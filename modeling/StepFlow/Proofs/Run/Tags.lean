import StepFlow.Proofs.Action.RoundTrip
import StepFlow.Proofs.Run.Dispatch

/-!
# Tags and the processors that they reach

A step is of the type that its tag names. So the processor for a type of the host is handed the
steps whose tags are the same as the one that it was registered under, up to case and one opening,
and no others. Under a tag that names a built-in type the host registers in vain: steps with such a
tag are of the built-in type.
-/

namespace StepFlow

namespace ActionType

variable {a b : String}

/-- The tag is the same as the name of a built-in type. -/
def NamesBuiltIn (tag : String) : Prop := ∃ type : BuiltIn, SameTag tag type.name

theorem withoutOpening_name (type : BuiltIn) : withoutOpening type.name = type.name := by
  cases type <;> decide +kernel

theorem namesBuiltIn_iff : NamesBuiltIn a ↔ (builtIn? a).isSome = true := by
  simp only [Option.isSome_iff_exists, NamesBuiltIn, sameTag_iff, builtIn?_eq_some_iff, bareName,
    withoutOpening_name]

theorem ofTag_of_not_namesBuiltIn (h : ¬NamesBuiltIn a) : ofTag a = ofHostTag a := by
  rw [namesBuiltIn_iff, Option.not_isSome_iff_eq_none] at h
  rw [ofTag, h]

theorem ofTag_of_custom {name : String} (h : ofTag a = custom name) : ofTag a = ofHostTag a := by
  unfold ofTag at h ⊢
  split at h
  · cases h
  · rfl

/-- A tag names the type that the host registers under another if it is the same tag and
names no built-in type. -/
theorem ofTag_eq_ofHostTag_iff : ofTag a = ofHostTag b ↔ SameTag a b ∧ ¬NamesBuiltIn b := by
  constructor
  · intro h
    have hbare : bareName a = bareName b := by
      rw [← foldCase_name_ofTag a, h, ofHostTag, name, foldCase_bareName]
    refine ⟨sameTag_iff.2 hbare, fun hb => ?_⟩
    obtain ⟨type, htype⟩ := Option.isSome_iff_exists.1 (namesBuiltIn_iff.1 hb)
    have hbuiltIn : ofTag b = builtIn type := by rw [ofTag, htype]
    rw [ofTag_eq_iff.2 hbare, hbuiltIn] at h
    cases h
  · rintro ⟨same, hb⟩
    rw [ofTag_eq_iff.2 (sameTag_iff.1 same), ofTag_of_not_namesBuiltIn hb]

end ActionType

namespace Descriptor

open Object (get?)

variable {o : Object} {tag : String} {a : Action}

theorem stepType_of_reading {type : BuiltIn} {kind : ModalKind} (h : reading type = .modal kind) :
    kind.stepType = type := by
  cases type <;> cases h <;> rfl

theorem eq_of_reading_request {type : BuiltIn} (h : reading type = .request) :
    type = .callRestApi := by
  cases type <;> first | rfl | cases h

/-- A step that is read is of the type that its tag names. -/
theorem type_of_action (htag : get? o typeKey = some (.string tag))
    (h : action (.object o) = .ok a) :
    a.type = ActionType.ofTag tag := by
  rw [action, htag] at h
  dsimp only at h
  split at h
  · next name hname =>
    cases h
    exact (ActionType.ofTag_of_custom hname).symm
  · next type htype =>
    have h := mapError_eq_ok.1 h
    rw [htype]
    split at h
    · next read hread =>
      obtain ⟨op, hop, rfl⟩ := map_eq_ok.1 h
      exact (readsBack_of_reading hread hop).1
    · next kind hkind =>
      obtain ⟨view, -, rfl⟩ := map_eq_ok.1 h
      exact congrArg ActionType.builtIn (stepType_of_reading hkind)
    · next hrequest =>
      obtain ⟨source, -, rfl⟩ := map_eq_ok.1 h
      rw [eq_of_reading_request hrequest]
      rfl

end Descriptor

theorem KnownTypes.action?_of_isCustom {known : KnownTypes} {a : Action} {name : String}
    (htype : a.type = .custom name)
    (hknown : known.isKnown a.type = true) : known.action? a = some a := by
  refine known.action?_of_clean a hknown fun slot inner owned => ?_
  cases a with
  | simple => cases owned
  | modal kind => cases htype
  | request => cases htype

namespace Executor

variable {ex : Executor} {type : ActionType} {p : Processor}

/-- A processor for a type of the host is handed the steps of that type. -/
theorem resolve_eq_some_iff {name : String} (hfind : ex.registry.find? (.custom name) = some p) :
    ex.resolve type = some p ↔ type = .custom name := by
  constructor
  · intro h
    rcases resolve_cases h with hown | ⟨-, hnoop⟩
    · exact (type_of_find? hown).symm.trans (type_of_find? hfind)
    · cases (type_of_find? hnoop).symm.trans (type_of_find? hfind)
  · rintro rfl
    exact resolve_of_find? hfind

/-- Two tags name one type exactly if they are the same up to case and one opening, the tag that is
written for a type names it again, and a step that is read is of the type that its tag names, which
is one of the host unless it is a built-in one. So the processor that is found for the type of a tag
of the host is handed the steps whose tags are the same as that one, and normalising leaves these
steps as they are; if the tag names a built-in type, it is handed none. -/
theorem tags_reach_processors :
    (∀ a b, ActionType.ofTag a = ActionType.ofTag b ↔ ActionType.SameTag a b) ∧
      (∀ a, ActionType.ofTag (ActionType.ofTag a).tag = ActionType.ofTag a) ∧
      (∀ a, ¬ActionType.NamesBuiltIn a → ActionType.ofTag a = ActionType.ofHostTag a) ∧
      ∀ (a : String) (o : Object) (action : Action),
        Object.get? o Descriptor.typeKey = some (.string a) →
        Action.ofValue (.object o) = .ok action → action.type = ActionType.ofTag a ∧
          ∀ (ex : Executor) (t : String) (p : Processor),
            ex.registry.find? (.ofHostTag t) = some p →
            (ex.resolve action.type = some p ↔
              ActionType.SameTag a t ∧ ¬ActionType.NamesBuiltIn t) ∧
              (ActionType.SameTag a t ∧ ¬ActionType.NamesBuiltIn t →
                ex.knownTypes.action? action = some action) := by
  refine ⟨fun a b => ?_, fun a => ?_, fun a h => ActionType.ofTag_of_not_namesBuiltIn h, ?_⟩
  · rw [ActionType.ofTag_eq_iff, ActionType.sameTag_iff]
  · rw [ActionType.ofTag_eq_iff, ActionType.bareName_tag, ActionType.foldCase_name_ofTag]
  · intro a o action htag hread
    have htype := Descriptor.type_of_action htag hread
    refine ⟨htype, fun ex t p hfind => ⟨?_, fun same => ?_⟩⟩
    · rw [resolve_eq_some_iff hfind, htype]
      exact ActionType.ofTag_eq_ofHostTag_iff
    · have hhost : action.type = .ofHostTag t :=
        htype.trans (ActionType.ofTag_eq_ofHostTag_iff.2 same)
      have hknown : ex.knownTypes.isKnown action.type = true := by
        rw [isKnown_eq_isSome, hhost, hfind]
        rfl
      exact KnownTypes.action?_of_isCustom hhost hknown

/-- A processor registered under a bare tag, and a step whose tag has an opening
and is in capitals. -/
theorem tags_reach_processors_capitals :
    let p : Processor := .scripted (.ofHostTag "vibrate") 0 none none
    let ex : Executor := ⟨Registry.builtIn.register p, .default, by decide +kernel, by decide⟩
    let o : Object := [("type", .string "ACTION.VIBRATE")]
    let action : Action := .simple (.custom "ACTION.VIBRATE" []) none
    Object.get? o Descriptor.typeKey = some (.string "ACTION.VIBRATE") ∧
      Action.ofValue (.object o) = .ok action ∧
      ex.registry.find? (.ofHostTag "vibrate") = some p ∧ ex.resolve action.type = some p ∧
      ex.knownTypes.action? action = some action := by
  intro p ex o action
  have htag : Object.get? o Descriptor.typeKey = some (.string "ACTION.VIBRATE") := by decide
  have hread : Action.ofValue (.object o) = .ok action := by decide +kernel
  have hfind : ex.registry.find? (.ofHostTag "vibrate") = some p := by
    have htype : p.type = .ofHostTag "vibrate" := rfl
    rw [Registry.find?_register, if_pos htype]
  have opened : ActionType.Stripped "ACTION.VIBRATE" "VIBRATE" :=
    .opened (show "ACTION.VIBRATE" = "ACTION." ++ "VIBRATE" by decide) (by decide +kernel)
  have bare : ActionType.Stripped "vibrate" "vibrate" :=
    ActionType.stripped_iff.2 (by decide +kernel)
  have same : ActionType.SameTag "ACTION.VIBRATE" "vibrate" :=
    ⟨"VIBRATE", "vibrate", opened, bare, by decide +kernel⟩
  have free : ¬ActionType.NamesBuiltIn "vibrate" := by
    rw [ActionType.namesBuiltIn_iff]
    decide +kernel
  obtain ⟨hreaches, hkept⟩ := (tags_reach_processors.2.2.2 _ o action htag hread).2 ex _ p hfind
  exact ⟨htag, hread, hfind, hreaches.2 ⟨same, free⟩, hkept ⟨same, free⟩⟩

end Executor

end StepFlow
