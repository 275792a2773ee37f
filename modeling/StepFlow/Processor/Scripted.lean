import StepFlow.Processor

/-!
# Processors that follow a script

For trying out flows with steps of the host: a processor that writes down what it was handed, waits,
and succeeds or fails as it was told beforehand.
-/

namespace StepFlow.Processor

/-- What is written down about a step: its tag and its evaluated fields. -/
def journalEntry (tag : String) (fields : Value) : Value :=
  .ofEntries [("tag", .string tag), ("fields", fields)]

/-- A processor for a type of the host that waits and then fails with a reason, if one is given. -/
def scripted (type : ActionType) (waitMs : Nat) (failure : Option String) (timeout : Option Nat) :
    Processor where
  type := type
  description := "Host-defined"
  timeout := timeout
  run inv a :=
    match a with
    | .simple (.custom tag fields) _ => do
      let fields ← inv.document (.object fields)
      ExceptT.lift (Task.modify fun w : World =>
        { w with journal := journalEntry tag fields :: w.journal })
      ExceptT.lift (Task.sleep waitMs)
      match failure with
      | some reason => throw (.executionFailed (.host reason))
      | none => pure none
    | a => throw (.executionFailed (.otherType type.name a.type.name))

end StepFlow.Processor
