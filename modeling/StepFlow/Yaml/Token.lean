import StepFlow.Yaml.Tag

/-!
# Tokens

A YAML text as a list of tokens. Where indentation opens and closes a collection, tokens of
their own say so, and a token stands before every key, so that nothing behind this point
looks at lines and columns.
-/

namespace StepFlow.Yaml

inductive Token where
  | directive (d : Directive)
  | documentStart
  | documentEnd
  | blockSequence
  | blockMapping
  | blockEnd
  | flowSequence
  | flowSequenceEnd
  | flowMapping
  | flowMappingEnd
  | item
  | comma
  | key
  | value
  | reference (name : List Char)
  | anchor (name : List Char)
  | tag (t : TagText)
  | scalar (style : ScalarStyle) (text : String)

end StepFlow.Yaml
