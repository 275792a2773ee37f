import StepFlow.Action.Descriptor
import StepFlow.Proofs.Outcome

/-!
# Which descriptors are read as steps

A descriptor is refused for its tag or for a field that its type declares, and for nothing else. The
table `declared` has the fields of each built-in type that can stand in the way, with what each of
them must be. The fields that it leaves out are read whatever they hold: optional expressions, plain
documents, the condition, the flows that a step owns and everything that the type does not know.
-/

namespace StepFlow

/-- A computation gives a result. -/
def Succeeds {ε α : Type} (x : Except ε α) : Prop := ∃ a, x = .ok a

namespace Succeeds

variable {ε ε' α β : Type} {x : Except ε α}

theorem pure (a : α) : Succeeds (Pure.pure a : Except ε α) := ⟨a, rfl⟩

/-- Where the second stage gives a result whatever the first one gave, or never, the
stages are independent. -/
theorem bind_iff {f : α → Except ε β} {P : Prop} (h : ∀ a, Succeeds (f a) ↔ P) :
    Succeeds (x >>= f) ↔ Succeeds x ∧ P := by
  constructor
  · rintro ⟨b, hb⟩
    obtain ⟨a, ha, hf⟩ := bind_eq_ok.1 hb
    exact ⟨⟨a, ha⟩, (h a).1 ⟨b, hf⟩⟩
  · rintro ⟨⟨a, ha⟩, hP⟩
    obtain ⟨b, hf⟩ := (h a).2 hP
    exact ⟨b, bind_eq_ok.2 ⟨a, ha, hf⟩⟩

theorem bind_pure_iff {f : α → β} : Succeeds (x >>= fun a => Pure.pure (f a)) ↔ Succeeds x := by
  rw [bind_iff fun a => iff_true_intro (pure (f a)), and_true]

theorem map_iff {f : α → β} : Succeeds (x.map f) ↔ Succeeds x := by
  simp only [Succeeds, map_eq_ok]
  constructor
  · rintro ⟨_, a, ha, -⟩
    exact ⟨a, ha⟩
  · rintro ⟨a, ha⟩
    exact ⟨_, a, ha, rfl⟩

theorem mapError_iff {f : ε → ε'} : Succeeds (x.mapError f) ↔ Succeeds x := by
  simp only [Succeeds, mapError_eq_ok]

theorem mapM_iff {f : α → Except ε β} {items : List α} :
    Succeeds (items.mapM f) ↔ ∀ a ∈ items, Succeeds (f a) := by
  induction items with
  | nil => exact ⟨fun _ => nofun, fun _ => pure []⟩
  | cons a rest ih =>
    rw [List.mapM_cons, bind_iff fun _ => bind_pure_iff, ih, List.forall_mem_cons]

end Succeeds

namespace Descriptor

open Object (get?)

variable {shape : Shape} {o : Object} {key : String} {v : Value}

/-- An update of a region as it may be written: an object with a text for the name, or a list of
such a text and possibly the value. -/
inductive IsUpdate : Value → Prop
  | object {o : Object} {name : String} (h : get? o "stateName" = some (.string name)) :
      IsUpdate (.object o)
  | list {name : String} {rest : List Value} (short : rest.length ≤ 1) :
      IsUpdate (.array (.string name :: rest))

/-- The description of a request as it may be written: an object with an address, or a list of two
to four fields, of which the address is the second. -/
inductive IsSource : Value → Prop
  | object {o : Object} {url : Value} (h : get? o "url" = some url) : IsSource (.object o)
  | list {items : List Value} (long : 2 ≤ items.length) (short : items.length ≤ 4) :
      IsSource (.array items)

/-- What a field must be. -/
inductive Demand where
  /-- It is there, with any value at all. -/
  | presence
  | truthValue
  | textOrNull
  | updates
  | source
deriving DecidableEq, Repr

/-- A field, which may be missing, meets a demand. -/
inductive Demand.MetBy : Demand → Option Value → Prop
  | presence (v : Value) : MetBy .presence (some v)
  | noTruthValue : MetBy .truthValue none
  | truthValue (b : Bool) : MetBy .truthValue (some (.bool b))
  | noText : MetBy .textOrNull none
  | nullText : MetBy .textOrNull (some .null)
  | text (s : String) : MetBy .textOrNull (some (.string s))
  | noUpdates : MetBy .updates none
  | updates {items : List Value} (each : ∀ v ∈ items, IsUpdate v) :
      MetBy .updates (some (.array items))
  | source {v : Value} (h : IsSource v) : MetBy .source (some v)

/-- The fields of a built-in type that can make a descriptor unreadable. -/
def declared : BuiltIn → List (String × Demand)
  | .showToast => [("message", .presence)]
  | .setState =>
    [("rebuild", .truthValue), ("stateContextName", .textOrNull), ("updates", .updates)]
  | .rebuildState => [("stateContextName", .textOrNull)]
  | .navigateToPage => [("replace", .truthValue), ("pageId", .presence)]
  | .navigateBack => []
  | .showDialog | .showBottomSheet => [("barrierDismissible", .truthValue), ("viewId", .presence)]
  | .callRestApi => [("dataSource", .source)]
  | .openUrl => [("url", .presence)]
  | .setAppState => [("rebuild", .truthValue), ("updates", .updates)]
  | .controlObject => [("object", .presence), ("method", .presence)]
  | .share => [("message", .presence)]
  | .delay => [("durationInMs", .presence)]
  | .copyToClipboard => [("message", .presence)]
  | .postMessage => [("name", .presence)]
  | .fireEvent => [("name", .presence)]
  | .noop => []

/-- Every declared field of a type is as it must be. -/
def Conforms (type : BuiltIn) (o : Object) : Prop :=
  ∀ field ∈ declared type, field.2.MetBy (get? o field.1)

/-! ## Fields -/

theorem succeeds_flag (default : Bool) :
    Succeeds (flag o key default) ↔ Demand.truthValue.MetBy (get? o key) := by
  rw [flag]
  generalize get? o key = found
  constructor
  · rintro ⟨b, hb⟩
    split at hb
    · exact .noTruthValue
    · exact .truthValue _
    · cases hb
  · intro met
    cases met with
    | noTruthValue => exact ⟨default, rfl⟩
    | truthValue b => exact ⟨b, rfl⟩

theorem succeeds_text? : Succeeds (text? o key) ↔ Demand.textOrNull.MetBy (get? o key) := by
  rw [text?]
  generalize get? o key = found
  constructor
  · rintro ⟨s, hs⟩
    split at hs
    · exact .noText
    · exact .nullText
    · exact .text _
    · cases hs
  · intro met
    cases met with
    | noText => exact ⟨none, rfl⟩
    | nullText => exact ⟨none, rfl⟩
    | text s => exact ⟨some s, rfl⟩

theorem succeeds_required : Succeeds (required shape o key) ↔
    Demand.presence.MetBy (get? o key) := by
  rw [required]
  generalize get? o key = found
  constructor
  · rintro ⟨field, hfield⟩
    split at hfield
    · cases hfield
    · exact .presence _
  · intro met
    cases met with
    | presence v => exact ⟨ExprOr.ofDocument shape v, rfl⟩

theorem succeeds_stateUpdate : Succeeds (stateUpdate v) ↔ IsUpdate v := by
  constructor
  · rintro ⟨update, h⟩
    unfold stateUpdate at h
    split at h
    · split at h
      · cases h
      · next hname => exact .object hname
      · cases h
    · cases h
    · exact .list (by simp)
    · exact .list (by simp)
    · cases h
    · cases h
    · cases h
  · intro h
    cases h with
    | object hname =>
      rw [stateUpdate, hname]
      exact ⟨_, rfl⟩
    | @list name rest short =>
      match rest, short with
      | [], _ => exact ⟨_, rfl⟩
      | [_], _ => exact ⟨_, rfl⟩

theorem succeeds_updates : Succeeds (updates o) ↔ Demand.updates.MetBy (get? o "updates") := by
  rw [updates]
  generalize get? o "updates" = found
  constructor
  · intro h
    split at h
    · exact .noUpdates
    · exact .updates fun v mem => succeeds_stateUpdate.1 (Succeeds.mapM_iff.1 h v mem)
    · obtain ⟨_, h⟩ := h
      cases h
  · intro met
    cases met with
    | noUpdates => exact ⟨[], rfl⟩
    | updates each => exact Succeeds.mapM_iff.2 fun v mem => succeeds_stateUpdate.2 (each v mem)

theorem succeeds_dataSource : Succeeds (dataSource v) ↔ IsSource v := by
  constructor
  · intro h
    unfold dataSource at h
    split at h
    · have url := succeeds_required.1 (Succeeds.bind_pure_iff.1 h)
      generalize hurl : get? _ "url" = found at url
      cases url with
      | presence v => exact .object hurl
    · obtain ⟨source, h⟩ := h
      split at h
      · exact .list (by simp) (by simp)
      · exact .list (by simp) (by simp)
      · exact .list (by simp) (by simp)
      · cases h
    · obtain ⟨source, h⟩ := h
      cases h
    · obtain ⟨source, h⟩ := h
      cases h
  · intro h
    cases h with
    | object hurl =>
      rw [dataSource]
      exact Succeeds.bind_pure_iff.2 (succeeds_required.2 (hurl ▸ .presence _))
    | @list items long short =>
      match items, long, short with
      | [_, _], _, _ => exact ⟨_, rfl⟩
      | [_, _, _], _, _ => exact ⟨_, rfl⟩
      | [_, _, _, _], _, _ => exact ⟨_, rfl⟩

theorem succeeds_requestSource :
    Succeeds (requestSource o) ↔ Demand.source.MetBy (get? o "dataSource") := by
  rw [requestSource]
  generalize get? o "dataSource" = found
  constructor
  · intro h
    split at h
    · obtain ⟨_, h⟩ := h
      cases h
    · exact .source (succeeds_dataSource.1 h)
  · intro met
    cases met with
    | source h => exact succeeds_dataSource.2 h

/-! ## Types -/

theorem conforms_one {type : BuiltIn} {demand : Demand} (h : declared type = [(key, demand)]) :
    Conforms type o ↔ demand.MetBy (get? o key) := by
  simp [Conforms, h]

/-- An operation is read exactly if the fields that its type declares are as they must be. -/
theorem succeeds_operation {type : BuiltIn} {read : Object → Except FieldError Operation}
    (h : reading type = .operation read) : Succeeds (read o) ↔ Conforms type o := by
  cases type with
  | showToast | openUrl | share | delay | copyToClipboard | postMessage | fireEvent =>
    cases h
    exact Succeeds.bind_pure_iff.trans (succeeds_required.trans (conforms_one rfl).symm)
  | setState =>
    cases h
    rw [setState, Succeeds.bind_iff fun _ => Succeeds.bind_iff fun _ => Succeeds.bind_pure_iff,
      succeeds_flag, succeeds_text?, succeeds_updates]
    simp [Conforms, declared]
  | rebuildState =>
    cases h
    exact Succeeds.bind_pure_iff.trans (succeeds_text?.trans (conforms_one rfl).symm)
  | navigateToPage =>
    cases h
    rw [navigateToPage, Succeeds.bind_iff fun _ => Succeeds.bind_pure_iff, succeeds_flag,
      succeeds_required]
    simp [Conforms, declared]
  | setAppState =>
    cases h
    rw [setAppState, Succeeds.bind_iff fun _ => Succeeds.bind_pure_iff, succeeds_flag,
      succeeds_updates]
    simp [Conforms, declared]
  | controlObject =>
    cases h
    rw [controlObject, Succeeds.bind_iff fun _ => Succeeds.bind_pure_iff, succeeds_required,
      succeeds_required]
    simp [Conforms, declared]
  | navigateBack | noop =>
    cases h
    exact iff_of_true (Succeeds.pure _) nofun
  | showDialog | showBottomSheet | callRestApi => cases h

theorem succeeds_modalView {type : BuiltIn} {kind : ModalKind} (h : reading type = .modal kind) :
    Succeeds (modalView o) ↔ Conforms type o := by
  rw [modalView, Succeeds.bind_iff fun _ => Succeeds.bind_pure_iff, succeeds_flag,
    succeeds_required]
  cases type <;> cases h <;> simp [Conforms, declared]

theorem succeeds_request {type : BuiltIn} (h : reading type = .request) :
    Succeeds (requestSource o) ↔ Conforms type o := by
  rw [succeeds_requestSource]
  cases type with
  | callRestApi => exact (conforms_one rfl).symm
  | _ => cases h

/-- With a tag, a descriptor is read exactly if it conforms to the type, should the tag
name a built-in one. -/
theorem succeeds_action {tag : String} (h : get? o typeKey = some (.string tag)) :
    Succeeds (action (.object o)) ↔
    ∀ type, ActionType.ofTag tag = .builtIn type → Conforms type o := by
  rw [action, h]
  dsimp only
  cases ActionType.ofTag tag with
  | custom name => exact iff_of_true (Succeeds.pure _) nofun
  | builtIn type =>
    dsimp only
    rw [Succeeds.mapError_iff]
    have fields : (∀ other, ActionType.builtIn type = .builtIn other → Conforms other o) ↔
        Conforms type o :=
      ⟨fun all => all type rfl, fun conforms other same => ActionType.builtIn.inj same ▸ conforms⟩
    rw [fields]
    split
    · next hread => rw [Succeeds.map_iff, succeeds_operation hread]
    · next hkind => rw [Succeeds.map_iff, succeeds_modalView hkind]
    · next hrequest => rw [Succeeds.map_iff, succeeds_request hrequest]

/-! ## Descriptors that are read alike -/

/-- Two fields are the same as far as a demand goes: where any value will do, only whether
there is one counts. -/
def Demand.Alike : Demand → Option Value → Option Value → Prop
  | .presence, v, w => v.isSome = w.isSome
  | _, v, w => v = w

theorem Demand.Alike.metBy {demand : Demand} {v w : Option Value} (h : demand.Alike v w)
    (met : demand.MetBy v) :
    demand.MetBy w := by
  cases demand with
  | presence =>
    cases met with
    | presence v =>
      obtain ⟨w, rfl⟩ := Option.isSome_iff_exists.1 (Eq.symm h)
      exact .presence w
  | _ =>
    cases h
    exact met

theorem Demand.Alike.symm {demand : Demand} {v w : Option Value} (h : demand.Alike v w) :
    demand.Alike w v := by
  cases demand <;> exact Eq.symm h

theorem Demand.Alike.metBy_iff {demand : Demand} {v w : Option Value} (h : demand.Alike v w) :
    demand.MetBy v ↔ demand.MetBy w :=
  ⟨h.metBy, h.symm.metBy⟩

end Descriptor

/-- A descriptor is read as a step exactly if it is an object with a text for the tag and, where
the tag names a built-in type, with the declared fields of that type as they must be. So two
objects with one tag are both read or both refused if their declared fields are the same, as far as
these must be anything: what the other fields hold, and what a field holds that only has to be
there, never decides. -/
theorem Descriptor.accepted_by_declared_fields :
    (∀ v, Succeeds (Action.ofValue v) ↔
      ∃ o tag, v = .object o ∧ Object.get? o typeKey = some (.string tag) ∧
      ∀ type, ActionType.ofTag tag = .builtIn type → Conforms type o) ∧
    ∀ o o' tag, Object.get? o typeKey = some (.string tag) →
    Object.get? o' typeKey = some (.string tag) →
      (∀ type, ActionType.ofTag tag = .builtIn type →
        ∀ field ∈ declared type, field.2.Alike (Object.get? o field.1) (Object.get? o' field.1)) →
      (Succeeds (Action.ofValue (.object o)) ↔ Succeeds (Action.ofValue (.object o'))) := by
  constructor
  · intro v
    constructor
    · intro h
      cases v with
      | object o =>
        cases htag : Object.get? o typeKey with
        | some found =>
          cases found with
          | string tag => exact ⟨o, tag, rfl, htag, (succeeds_action htag).1 h⟩
          | _ =>
            obtain ⟨a, ha⟩ := h
            rw [Action.ofValue, action, htag] at ha
            cases ha
        | none =>
          obtain ⟨a, ha⟩ := h
          rw [Action.ofValue, action, htag] at ha
          cases ha
      | _ =>
        obtain ⟨a, ha⟩ := h
        cases ha
    · rintro ⟨o, tag, rfl, htag, conforms⟩
      exact (succeeds_action htag).2 conforms
  · intro o o' tag htag htag' alike
    rw [Action.ofValue, Action.ofValue, succeeds_action htag, succeeds_action htag']
    refine forall_congr' fun type => forall_congr' fun named => ?_
    exact forall_congr' fun field => forall_congr' fun mem => (alike type named field mem).metBy_iff

/-- A dialog whose view is null and whose condition and nested flow make no sense, with a field of
no meaning, is read because one with nothing but a view and the same flag is. -/
theorem Descriptor.accepted_by_declared_fields_dialog :
    let o : Object :=
      [("barrierDismissible", .bool false), ("disableActionIf", .array []),
        ("onResult", .string "x"),
      ("type", .string "showDialog"), ("unknown", .null), ("viewId", .null)]
    let o' : Object :=
      [("barrierDismissible", .bool false), ("type", .string "showDialog"), ("viewId", .string "v")]
    Object.get? o typeKey = some (.string "showDialog") ∧
      Object.get? o' typeKey = some (.string "showDialog") ∧
      Succeeds (Action.ofValue (.object o)) ∧ Succeeds (Action.ofValue (.object o')) := by
  intro o o'
  have htag : Object.get? o typeKey = some (.string "showDialog") := by decide
  have htag' : Object.get? o' typeKey = some (.string "showDialog") := by decide
  have named : ActionType.ofTag "showDialog" = .builtIn .showDialog := by decide +kernel
  have alike : Succeeds (Action.ofValue (.object o)) ↔ Succeeds (Action.ofValue (.object o')) :=
    accepted_by_declared_fields.2 o o' _ htag htag' fun type htype => by
      cases named.symm.trans htype
      exact List.forall_mem_cons.2 ⟨rfl, List.forall_mem_singleton.2 rfl⟩
  have read : Succeeds (Action.ofValue (.object o')) :=
    (accepted_by_declared_fields.1 _).2 ⟨o', _, rfl, htag', fun type htype => by
      cases named.symm.trans htype
      exact List.forall_mem_cons.2 ⟨.truthValue false, List.forall_mem_singleton.2 (.presence _)⟩⟩
  exact ⟨htag, htag', alike.2 read, read⟩

end StepFlow
