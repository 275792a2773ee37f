import Mathlib.Data.List.Nodup
import StepFlow.ActionType

/-!
# Tags name their types

Two tags name the same type exactly if they are the same up to case once each is stripped of one
opening. No two built-in types have names that differ in case only, so the tag under which a type is
written is read as that type.
-/

namespace StepFlow

/-- A search finds the only member that passes the test. -/
theorem find?_eq_some_of_unique {α : Type} {l : List α} {p : α → Bool} {a : α} (hm : a ∈ l)
    (hp : p a = true) (unique : ∀ b, p b = true → b = a) : l.find? p = some a := by
  cases h : l.find? p with
  | some b => rw [unique b (List.find?_some h)]
  | none => exact absurd hp (List.find?_eq_none.1 h a hm)

namespace BuiltIn

theorem mem_all (type : BuiltIn) : type ∈ all := by
  cases type <;> decide

theorem foldedNames : all.map (fun type => Text.foldCase type.name) =
    ["showtoast", "setstate", "rebuildstate", "navigatetopage", "navigateback", "showdialog",
      "showbottomsheet", "callrestapi", "openurl", "setappstate", "controlobject", "share", "delay",
      "copytoclipboard", "postmessage", "fireevent", "noop"] := by
  decide +kernel

theorem eq_of_foldCase_name {a b : BuiltIn}
    (h : Text.foldCase a.name = Text.foldCase b.name) : a = b := by
  have distinct : (all.map fun type => Text.foldCase type.name).Nodup := by
    rw [foldedNames]
    decide
  exact List.inj_on_of_nodup_map distinct (mem_all a) (mem_all b) h

end BuiltIn

namespace ActionType

/-! ## Openings -/

/-- What stays of a tag that is stripped of one `Action.` in front, in whatever case that is
written: all of it, if it does not begin so. -/
inductive Stripped (tag : String) : String → Prop
  | opened {front rest : String} (parts : tag = front ++ rest)
    (own : Text.sameName front "Action." = true) : Stripped tag rest
  | bare (none : ∀ front rest, tag = front ++ rest → Text.sameName front "Action." = false) :
    Stripped tag tag

/-- The tags are the same up to the case of the letters `a` to `z`, each
stripped of one `Action.`. -/
def SameTag (a b : String) : Prop :=
  ∃ r s, Stripped a r ∧ Stripped b s ∧ Text.sameName r s = true

theorem length_of_sameName {a b : String} (h : Text.sameName a b = true) :
    a.toList.length = b.toList.length := by
  have hfolded := congrArg (fun s => s.toList.length) (of_decide_eq_true h)
  simpa only [Text.foldCase, String.toList_ofList, List.length_map] using hfolded

/-- A front that is an opening is found. -/
theorem withoutOpening_append {front : String} (rest : String)
    (own : Text.sameName front opening = true) :
    withoutOpening (front ++ rest) = rest := by
  have hlength : opening.length = front.toList.length := by
    rw [length_of_sameName own, String.length_toList]
  simp only [withoutOpening, String.toList_append, hlength, List.take_left, List.drop_left,
    String.ofList_toList, own, if_true]

/-- Taking off an opening is stripping a tag of `Action.`. -/
theorem stripped_iff {tag rest : String} : Stripped tag rest ↔ withoutOpening tag = rest := by
  have same : opening = "Action." := rfl
  have split : tag =
      String.ofList (tag.toList.take opening.length) ++
        String.ofList (tag.toList.drop opening.length) := by
    rw [← String.ofList_append, List.take_append_drop, String.ofList_toList]
  constructor
  · intro h
    cases h with
    | opened parts own =>
      rw [← same] at own
      rw [parts, withoutOpening_append _ own]
    | bare none =>
      rw [← same] at none
      rw [withoutOpening, if_neg (Bool.eq_false_iff.1 (none _ _ split))]
  · rintro rfl
    by_cases own : Text.sameName (String.ofList (tag.toList.take opening.length)) opening = true
    · rw [withoutOpening, if_pos own]
      exact .opened split own
    · rw [withoutOpening, if_neg own]
      refine .bare fun front rest parts => Bool.eq_false_iff.2 fun hfront => own ?_
      rw [← same] at hfront
      have hlength : opening.length = front.toList.length := by
        rw [length_of_sameName hfront, String.length_toList]
      rwa [parts, String.toList_append, hlength, List.take_left, String.ofList_toList]

theorem sameTag_iff {a b : String} : SameTag a b ↔ bareName a = bareName b := by
  simp only [SameTag, stripped_iff, exists_and_left, exists_eq_left', Text.sameName,
    decide_eq_true_eq, bareName]

theorem withoutOpening_tag (type : ActionType) : withoutOpening type.tag = type.name := by
  have own : Text.sameName opening opening = true := decide_eq_true rfl
  exact withoutOpening_append type.name own

/-! ## Types -/

theorem builtIn?_eq_some_iff {tag : String} {type : BuiltIn} :
    builtIn? tag = some type ↔ bareName tag = Text.foldCase type.name := by
  delta builtIn?
  constructor
  · intro h
    have found := List.find?_some h
    exact of_decide_eq_true found
  · intro h
    refine find?_eq_some_of_unique (BuiltIn.mem_all type) (decide_eq_true h) fun other hother => ?_
    exact BuiltIn.eq_of_foldCase_name ((of_decide_eq_true hother).symm.trans h)

/-- A tag names the type whose name is its bare form, and a type of the host where that is no name
of a built-in type. -/
theorem ofTag_eq_iff {a b : String} : ofTag a = ofTag b ↔ bareName a = bareName b := by
  constructor
  · intro h
    unfold ofTag at h
    cases ha : builtIn? a with
    | some type =>
      cases hb : builtIn? b with
      | some other =>
        rw [ha, hb] at h
        cases h
        rw [builtIn?_eq_some_iff.1 ha, builtIn?_eq_some_iff.1 hb]
      | none =>
        rw [ha, hb] at h
        cases h
    | none =>
      cases hb : builtIn? b with
      | some other =>
        rw [ha, hb] at h
        cases h
      | none =>
        rw [ha, hb] at h
        exact custom.inj h
  · intro h
    have hbuiltIn : builtIn? a = builtIn? b := Option.ext fun type => by
      rw [builtIn?_eq_some_iff, builtIn?_eq_some_iff, h]
    rw [ofTag, ofTag, hbuiltIn, ofHostTag, ofHostTag, h]

theorem bareName_tag (type : ActionType) : bareName type.tag = Text.foldCase type.name := by
  rw [bareName, withoutOpening_tag]

/-- The tag under which a built-in type is written names it. -/
theorem ofTag_tag (type : BuiltIn) : ofTag (builtIn type).tag = builtIn type := by
  rw [ofTag, builtIn?_eq_some_iff.2 (bareName_tag (builtIn type))]

theorem toLower_toLower (c : Char) : c.toLower.toLower = c.toLower := by
  delta Char.toLower
  grind

theorem foldCase_bareName (tag : String) : Text.foldCase (bareName tag) = bareName tag := by
  simp only [bareName, Text.foldCase, String.toList_ofList, List.map_map, Function.comp_def,
    toLower_toLower]

/-- The bare name of the type that a tag names is the bare form of the tag. -/
theorem foldCase_name_ofTag (tag : String) : Text.foldCase (ofTag tag).name = bareName tag := by
  unfold ofTag
  cases h : builtIn? tag with
  | some type => exact (builtIn?_eq_some_iff.1 h).symm
  | none => exact foldCase_bareName tag

end ActionType

end StepFlow
