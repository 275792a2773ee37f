import StepFlow.CommandLine.Session
import StepFlow.Proofs.Action.Known
import StepFlow.Proofs.Action.NormalForm
import StepFlow.Proofs.Json

/-!
# Checking a flow settles it

What `check` shows of a document is a document of which it shows the same, with no step dropped. The
steps that it reports as dropped are counted by a subtraction, from the descriptors that a document
holds and the steps that are left; the count is that of the descriptors that cannot be read and of
those that are left out for their types.
-/

namespace StepFlow

/-! ## Reading the steps that a document holds -/

namespace Descriptor

theorem stepsUnder_eq (o : Object) : stepsUnder o = steps (Flow.descriptors (.object o)) := by
  induction o with
  | nil => rfl
  | cons entry rest ih =>
    obtain ⟨k, v⟩ := entry
    rw [stepsUnder.eq_def, Flow.descriptors, Object.get?_cons]
    dsimp only
    split
    · cases v <;> rfl
    · exact ih

/-- The flow of a document has the steps that are read from its descriptors. -/
theorem flow?_cases (v : Value) :
    (flow? v = none ∧ steps (Flow.descriptors v) = []) ∨
      ∃ f, flow? v = some f ∧ f.steps = steps (Flow.descriptors v) := by
  cases v with
  | array items =>
    rw [flow?, Flow.descriptors]
    cases steps items with
    | nil => exact .inl ⟨rfl, rfl⟩
    | cons first rest => exact .inr ⟨_, rfl, rfl⟩
  | object o =>
    rw [flow?, ← stepsUnder_eq]
    cases stepsUnder o with
    | nil => exact .inl ⟨rfl, rfl⟩
    | cons first rest => exact .inr ⟨_, rfl, rfl⟩
  | _ => exact .inl ⟨rfl, rfl⟩

end Descriptor

theorem Written.length_steps (actions : List Action) :
    (Written.steps actions).length = actions.length := by
  induction actions with
  | nil => rfl
  | cons a rest ih => rw [Written.steps, List.length_cons, ih, List.length_cons]

/-! ## Counting what is left -/

/-- Whether a descriptor cannot be read as a step. -/
def Flow.isUnreadable (descriptor : Value) : Bool :=
  match Action.ofValue descriptor with
  | .ok _ => false
  | .error _ => true

namespace KnownTypes

/-- Whether a descriptor is read as a step of an unknown type, where such steps are dropped. -/
def isRefused (known : KnownTypes) (descriptor : Value) : Bool :=
  match Action.ofValue descriptor with
  | .ok a => known.policy = .drop && !known.isKnown a.type
  | .error _ => false

/-- How many descriptors of a document cannot be read, or are refused for their types. -/
def dropped (known : KnownTypes) (document : Value) : Nat :=
  (Flow.descriptors document).countP Flow.isUnreadable +
    (Flow.descriptors document).countP known.isRefused

def kept (known : KnownTypes) (document : Value) : Nat :=
  ((Flow.ofValueWith? known document).map fun flow => flow.steps.length).getD 0

def shown (known : KnownTypes) (document : Value) : Value :=
  ((Flow.ofValueWith? known document).map Flow.toValue).getD .null

variable {known : KnownTypes}

/-- Every descriptor of a list is left as a step, cannot be read, or is refused for its type. -/
theorem length_steps (items : List Value) :
    (known.steps (Descriptor.steps items)).length +
      (items.countP Flow.isUnreadable + items.countP known.isRefused) = items.length := by
  induction items with
  | nil => rfl
  | cons v rest ih =>
    rw [List.countP_cons, List.countP_cons, List.length_cons, Descriptor.steps]
    cases read : Descriptor.action v with
    | error e =>
      have unreadable : Flow.isUnreadable v = true := by
        rw [Flow.isUnreadable, Action.ofValue, read]
      have notRefused : known.isRefused v = false := by rw [isRefused, Action.ofValue, read]
      simp only [unreadable, notRefused]
      simp
      omega
    | ok a =>
      have readable : Flow.isUnreadable v = false := by rw [Flow.isUnreadable, Action.ofValue, read]
      have refused : known.isRefused v = (known.action? a).isNone := by
        rw [isRefused, Action.ofValue, read, isNone_action?]
        rfl
      simp only [readable, refused, steps]
      cases known.action? a with
      | none =>
        simp
        omega
      | some a' =>
        simp
        omega

theorem length_of_flow? (flow : Flow) :
    ((known.flow? flow).map fun f => f.steps.length).getD 0 = (known.steps flow.steps).length := by
  obtain ⟨actions, inkWell⟩ := flow
  rw [flow?]
  cases known.steps actions <;> rfl

theorem kept_eq (known : KnownTypes) (document : Value) :
    known.kept document = (known.steps (Descriptor.steps (Flow.descriptors document))).length := by
  rw [kept, Flow.ofValueWith?, Flow.ofValue?]
  obtain ⟨hnone, hsteps⟩ | ⟨f, hf, hsteps⟩ := Descriptor.flow?_cases document
  · rw [hnone, hsteps]
    rfl
  · rw [hf, ← hsteps]
    exact length_of_flow? f

/-- The steps that are left and those that are dropped are all that there are. -/
theorem kept_add_dropped (known : KnownTypes) (document : Value) :
    known.kept document + known.dropped document = (Flow.descriptors document).length := by
  rw [kept_eq]
  exact length_steps _

/-! ## What is shown is shown again -/

/-- The document of a flow holds a descriptor for each of its steps. -/
theorem length_descriptors (flow : Flow) :
    (Flow.descriptors flow.toValue).length = flow.steps.length := by
  obtain ⟨actions, inkWell⟩ := flow
  have listed : Object.get? (Object.ofList [("steps", Value.array (Written.steps actions)),
      ("inkWell", .bool inkWell)]) "steps" = some (.array (Written.steps actions)) := by
    simp
  rw [Flow.toValue, Written.flow, Value.ofEntries, Flow.descriptors, listed]
  exact Written.length_steps actions

/-- The flow that is left of a document is what is left of the document that it is written as. -/
theorem ofValueWith?_toValue {document : Value} (canonical : document.Canonical)
    (closed : document.BlocksClose) {flow : Flow}
    (h : Flow.ofValueWith? known document = some flow) :
    Flow.ofValueWith? known flow.toValue = some flow := by
  obtain ⟨source, hsource, hkept⟩ := Option.bind_eq_some_iff.1 h
  exact Descriptor.flow_normal known document canonical closed hsource hkept

/-- What is shown of a document is shown of itself, with no step dropped. -/
theorem shown_shown (known : KnownTypes) {document : Value} (canonical : document.Canonical)
    (closed : document.BlocksClose) :
    known.shown (known.shown document) = known.shown document ∧
      known.dropped (known.shown document) = 0 := by
  cases h : Flow.ofValueWith? known document with
  | none =>
    have hshown : known.shown document = .null := by rw [shown, h]; rfl
    rw [hshown]
    exact ⟨rfl, rfl⟩
  | some flow =>
    have hshown : known.shown document = flow.toValue := by rw [shown, h]; rfl
    have again := ofValueWith?_toValue canonical closed h
    have hkept : known.kept flow.toValue = flow.steps.length := by rw [kept, again]; rfl
    have hcount := known.kept_add_dropped flow.toValue
    rw [hkept, length_descriptors] at hcount
    rw [hshown]
    constructor
    · rw [shown, again]
      rfl
    · omega

end KnownTypes

namespace CommandLine

variable {files : Files} {path : String} {reading : Reading} {ex : Executor} {document : Value}
  {rest : Files}

/-- What `check` reports: what is shown of the document, and how many steps are dropped. -/
theorem check_eq (hex : files.executor reading = .ok ex)
    (hdocument : files.document path = .ok (document, rest)) :
    check files path reading = .ok ⟨[.document (ex.knownTypes.shown document)],
      [.dropped (ex.knownTypes.dropped document) (Flow.descriptors document).length]⟩ := by
  have hcount := ex.knownTypes.kept_add_dropped document
  have hsub : (Flow.descriptors document).length - ex.knownTypes.kept document =
      ex.knownTypes.dropped document := by omega
  rw [← hsub, KnownTypes.kept, KnownTypes.shown, check, hex]
  show Except.bind (files.document path) _ = _
  simp only [hdocument, Except.bind, Executor.readFlow?]
  cases Flow.ofValueWith? ex.knownTypes document <;> rfl

/-- The document on the standard input. -/
theorem document_of_read {text? : String → Option String} {text : String}
    (h : Json.read text = .ok document) :
    Files.document ⟨text?, text⟩ "-" = .ok (document, ⟨text?, ""⟩) := by
  rw [Files.document, if_pos rfl, pure_bind]
  simp only [h]

theorem canonical_of_text {text : String} {others : Files} {failure : Failure}
    (h : (match Json.read text with
      | .ok v => Except.ok (v, others)
      | .error _ => .error failure) = .ok (document, rest)) : document.Canonical := by
  split at h
  · next read =>
    cases h
    exact Json.canonical_of_read read
  · cases h

/-- A document that is read from a file or the standard input is canonical. -/
theorem canonical_of_document (h : files.document path = .ok (document, rest)) :
    document.Canonical := by
  rw [Files.document] at h
  split at h
  · exact canonical_of_text h
  · split at h
    · exact canonical_of_text h
    · cases h

/-- The document of the flow that is left of a document holds as many descriptors as the flow has
steps. If the blocks of a document end at the braces that close them, what is left of it, written
and read again, is what is left of that, and `check` shows the same of what it showed, with no step
dropped. They do unless a text has 2147483648 braces that open. The steps that are reported as
dropped are never fewer than none: they are the descriptors that cannot be read and, where steps of
unknown types are dropped, those of such steps. -/
theorem check_settles (known : KnownTypes) (document : Value) :
    ((∀ s ∈ document.texts, s.toList.count '\x7b' < 2147483648) → document.BlocksClose) ∧
    (∀ flow, Flow.ofValueWith? known document = some flow →
      (Flow.descriptors flow.toValue).length = flow.steps.length ∧
        (document.Canonical → document.BlocksClose →
          Flow.ofValueWith? known flow.toValue = some flow)) ∧
    known.kept document ≤ (Flow.descriptors document).length ∧
    (Flow.descriptors document).length - known.kept document =
      (Flow.descriptors document).countP Flow.isUnreadable +
        (Flow.descriptors document).countP known.isRefused ∧
    ∀ (files rest : Files) (path : String) (reading : Reading) (ex : Executor),
      files.executor reading = .ok ex → ex.knownTypes = known →
      files.document path = .ok (document, rest) →
      check files path reading = .ok ⟨[.document (known.shown document)],
        [.dropped (known.dropped document) (Flow.descriptors document).length]⟩ ∧
      (document.BlocksClose → ∀ (files rest : Files) (path : String),
        files.executor reading = .ok ex →
        files.document path = .ok (known.shown document, rest) →
        check files path reading = .ok ⟨[.document (known.shown document)],
          [.dropped 0 (Flow.descriptors (known.shown document)).length]⟩) := by
  have hcount := known.kept_add_dropped document
  refine ⟨Value.blocksClose_of_count, ?_, ?_, ?_, ?_⟩
  · intro flow h
    refine ⟨KnownTypes.length_descriptors flow, fun canonical closed => ?_⟩
    exact KnownTypes.ofValueWith?_toValue canonical closed h
  · omega
  · rw [← hcount, Nat.add_sub_cancel_left]
    rfl
  · rintro files rest path reading ex hex rfl hdocument
    refine ⟨check_eq hex hdocument, ?_⟩
    intro closed files' rest' path' hex' hdocument'
    obtain ⟨hshown, hnone⟩ := ex.knownTypes.shown_shown (canonical_of_document hdocument) closed
    rw [check_eq hex' hdocument', hshown, hnone]

/-- A dialog whose flow is of an unknown type only, a step for the host and what is no step:
read where the type of that step is known and others are replaced, and checked, which drops
all but the dialog. -/
theorem check_settles_dialog :
    let unknown : Value := .object [("type", .string "vibrate")]
    let document : Value := .array [.object [("onResult", .array [unknown]),
      ("type", .string "showDialog"), ("viewId", .string "ask")],
      .object [("type", .string "ping")], .bool true]
    let host : KnownTypes := ⟨.fallback, [.ofHostTag "ping"]⟩
    let dialog (nested : Option Flow) : Action :=
      .modal .dialog ⟨.literal "ask", .null, true⟩ nested none
    let flow : Flow := ⟨[dialog (some ⟨[.simple (.noop (some "vibrate")) none], false⟩),
      .simple (.custom "ping" []) none], false⟩
    let files (text : String) : Files := ⟨fun _ => none, text⟩
    let text :=
      "[\x7b\"onResult\":[\x7b\"type\":\"vibrate\"\x7d],\"type\":\"showDialog\"," ++
      "\"viewId\":\"ask\"\x7d," ++ "\x7b\"type\":\"ping\"\x7d,true]"
    let shown : Value := Flow.toValue ⟨[dialog none], false⟩
    (Flow.ofValueWith? host document = some flow ∧
      Flow.ofValueWith? host flow.toValue = some flow) ∧
      (files text).document "-" = .ok (document, files "") ∧
      check (files text) "-" ⟨none, some .drop⟩ = .ok ⟨[.document shown], [.dropped 2 3]⟩ ∧
      check (files (Json.renderPretty shown)) "-" ⟨none, some .drop⟩ =
        .ok ⟨[.document shown], [.dropped 0 1]⟩ := by
  intro unknown document host dialog flow files text shown
  let ex : Executor :=
    ⟨Registry.builtIn, { Config.default with unknownActions := .drop },
      Registry.missing?_builtIn, rfl⟩
  have read : Flow.ofValueWith? host document = some flow := by decide +kernel
  have parsed : Json.read text = .ok document := by decide +kernel
  have parsedAgain : Json.read (Json.renderPretty shown) = .ok shown := by decide +kernel
  have documentRead : (files text).document "-" = .ok (document, files "") :=
    document_of_read parsed
  have shownRead : (files (Json.renderPretty shown)).document "-" = .ok (shown, files "") :=
    document_of_read parsedAgain
  have made (text : String) : (files text).executor ⟨none, some .drop⟩ = .ok ex := by rfl
  have whatIsShown : ex.knownTypes.shown document = shown := by decide +kernel
  have counted : ex.knownTypes.dropped document = 2 := by decide +kernel
  have closed : document.BlocksClose := (check_settles host document).1 (by decide +kernel)
  obtain ⟨first, again⟩ :=
    (check_settles ex.knownTypes document).2.2.2.2 (files text) (files "") "-"
    ⟨none, some .drop⟩ ex (made text) rfl documentRead
  rw [whatIsShown, counted] at first
  have total : (Flow.descriptors shown).length = 1 := KnownTypes.length_descriptors _
  rw [whatIsShown, total] at again
  have settled :=
    ((check_settles host document).2.1 flow read).2 (Json.canonical_of_read parsed) closed
  exact ⟨⟨read, settled⟩, documentRead, first, again closed _ _ "-" (made _) shownRead⟩

/-! ## A flow that does not settle -/

theorem steps_copying (text : String) : Descriptor.steps [copying text] =
    [.simple (.copyToClipboard (.ofDocument .text (.string text))) none] := by
  have read := ofValue_copying text
  rw [Action.ofValue] at read
  simp only [Descriptor.steps, read]

/-- Steps that copy texts are left as they are, whatever types are known. -/
theorem flow?_copying (known : KnownTypes) (field : ExprOr .text) :
    known.flow? ⟨[.simple (.copyToClipboard field) none], false⟩ =
      some ⟨[.simple (.copyToClipboard field) none], false⟩ := by
  rw [KnownTypes.flow?, KnownTypes.steps, KnownTypes.action?, KnownTypes.operation?_of_isKnown rfl]
  rfl

/-- A flow that copies a text does not settle if the written block of that text is left open. -/
theorem ofValueWith?_toValue_copying (known : KnownTypes) {text source : String}
    (block : Template.source? text = some source)
    (lost : Template.source? (Template.ofSource source) = none) :
    ∃ flow, Flow.ofValueWith? known (.array [copying text]) = some flow ∧
      Flow.ofValueWith? known flow.toValue ≠ some flow := by
  have read : ExprOr.ofDocument .text (.string text) = .expression source :=
    ExprOr.ofDocument_eq_expression (v := .string text) block
  have other : ExprOr.ofDocument .text (.string (Template.ofSource source)) ≠ .expression source :=
    ExprOr.ofDocument_ne_expression (v := .string (Template.ofSource source)) lost
  have written : Written.steps [.simple (.copyToClipboard (.expression source)) none] =
      [copying (Template.ofSource source)] := by
    rw [Written.steps, Written.steps, ← toValue_copying, Action.toValue]
  refine ⟨⟨[.simple (.copyToClipboard (.expression source)) none], false⟩, ?_, ?_⟩
  · rw [Flow.ofValueWith?, Flow.ofValue?, Descriptor.flow?, steps_copying, read]
    exact flow?_copying known _
  · rw [Flow.ofValueWith?, Flow.ofValue?, Flow.toValue, Descriptor.flow?_written, written,
      steps_copying]
    intro same
    have left := Option.some.inj ((flow?_copying known _).symm.trans same)
    have first := (List.cons.inj (congrArg FlowOf.steps left)).1
    simp only [Action.simple.injEq, Operation.copyToClipboard.injEq] at first
    exact other first.1

/-- The flow that copies a text with 2147483648 braces, which are never closed, does not settle. -/
theorem unclosed_flow_changes :
    let known : KnownTypes := ⟨.fallback, []⟩
    let document : Value := .array [copying (Template.unclosed 2147483647)]
    document.Canonical ∧ ∃ flow, Flow.ofValueWith? known document = some flow ∧
      Flow.ofValueWith? known flow.toValue ≠ some flow := by
  intro known document
  have keys : ["message", "type"].Pairwise (· < ·) := by decide +kernel
  have most : 2147483647 = Template.maxInner + 1 := rfl
  refine ⟨⟨⟨List.pairwise_map.1 keys, trivial, trivial, trivial⟩, trivial⟩, ?_⟩
  simp only [document, most]
  exact ofValueWith?_toValue_copying known Template.source?_unclosed
    (Template.source?_ofSource_replicate (by decide) (Nat.le_refl _))

end CommandLine

end StepFlow
