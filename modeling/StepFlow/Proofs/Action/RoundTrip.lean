import StepFlow.Proofs.Action.Fields
import StepFlow.Proofs.ActionType
import StepFlow.Proofs.Outcome

/-!
# Steps and flows read back as they were written

Whatever step is read from a document, its written descriptor is read as the same step; the same
holds of flows, with the flows nested in their steps to any depth. A descriptor says more than the
fields of its type: its tag decides the type, and its condition is read whatever the type. So the
fields are compared under every key but these two, and tag and condition apart.

Documents are canonical values: the keys of every object are in order. A step for the host keeps all
of its fields, and they come back in that order.
-/

namespace StepFlow

namespace Descriptor

open Object (get? ofList)

variable {o : Object} {op : Operation}

/-- An object that has what written fields have under every key but those of tag and condition. -/
def Agrees (o : Object) (fields : List (String × Value)) : Prop :=
  ∀ key, key ≠ typeKey → key ≠ conditionKey → get? o key = get? (ofList fields) key

namespace Agrees

variable {shape : Shape} {fields : List (String × Value)} {key : String}

theorem required (agrees : Agrees o fields) {field : ExprOr shape} (faithful : Faithful field)
    (hk : key ≠ typeKey ∧ key ≠ conditionKey)
    (h : get? (ofList fields) key = some field.toValue) :
    Descriptor.required shape o key = .ok field :=
  required_of_written faithful ((agrees key hk.1 hk.2).trans h)

theorem optional (agrees : Agrees o fields) {field : Option (ExprOr shape)}
    (faithful : FaithfulOption field) (hk : key ≠ typeKey ∧ key ≠ conditionKey)
    (h : get? (ofList fields) key = field.map ExprOr.toValue) :
    Descriptor.optional shape o key = field :=
  optional_of_written faithful ((agrees key hk.1 hk.2).trans h)

theorem document (agrees : Agrees o fields) (v : Value)
    (hk : key ≠ typeKey ∧ key ≠ conditionKey)
    (h : get? (ofList fields) key = Written.present v) : Descriptor.document o key = v :=
  document_of_present ((agrees key hk.1 hk.2).trans h)

theorem flag (agrees : Agrees o fields) {default : Bool} (b : Bool)
    (hk : key ≠ typeKey ∧ key ≠ conditionKey)
    (h : get? (ofList fields) key = if b ≠ default then some (.bool b) else none) :
    Descriptor.flag o key default = .ok b :=
  flag_of_written ((agrees key hk.1 hk.2).trans h)

theorem text? (agrees : Agrees o fields) (s : Option String)
    (hk : key ≠ typeKey ∧ key ≠ conditionKey)
    (h : get? (ofList fields) key = s.map .string) : Descriptor.text? o key = .ok s :=
  text?_of_written ((agrees key hk.1 hk.2).trans h)

theorem updates (agrees : Agrees o fields) (us : List StateUpdate)
    (h : get? (ofList fields) "updates" = some (.array (us.map Written.stateUpdate))) :
    Descriptor.updates o = .ok us :=
  updates_of_written ((agrees _ (by decide) (by decide)).trans h)

end Agrees

/-- What is written for an operation is read as that operation. -/
def ReadsBack (read : Object → Except FieldError Operation) (op : Operation) : Prop :=
  ∀ o, Agrees o (Written.operation op) → read o = .ok op

/-! ## Shapes of which no value is written as null -/

theorem toValue_toastDuration_ne_null (d : Shape.Carrier .toastDuration) :
    Shape.toValue .toastDuration d ≠ .null := Value.noConfusion

theorem toValue_launchMode_ne_null (m : Shape.Carrier .launchMode) :
    Shape.toValue .launchMode m ≠ .null := Value.noConfusion

theorem toValue_bool_ne_null (b : Shape.Carrier .bool) : Shape.toValue .bool b ≠ .null :=
  Value.noConfusion

/-! ## Operations -/

theorem readsBack_setState (h : setState o = .ok op) :
    op.type = .builtIn .setState ∧ ReadsBack setState op := by
  obtain ⟨rebuild, -, h⟩ := bind_eq_ok.1 h
  obtain ⟨region, -, h⟩ := bind_eq_ok.1 h
  obtain ⟨us, -, h⟩ := bind_eq_ok.1 h
  cases h
  refine ⟨rfl, ?_⟩
  intro o' agrees
  rw [setState, agrees.flag rebuild (by decide) (by simp [Written.operation]),
    agrees.text? region (by decide) (by simp [Written.operation]),
    agrees.updates us (by simp [Written.operation])]
  rfl

theorem readsBack_setAppState (h : setAppState o = .ok op) :
    op.type = .builtIn .setAppState ∧ ReadsBack setAppState op := by
  obtain ⟨rebuild, -, h⟩ := bind_eq_ok.1 h
  obtain ⟨us, -, h⟩ := bind_eq_ok.1 h
  cases h
  refine ⟨rfl, ?_⟩
  intro o' agrees
  rw [setAppState, agrees.flag rebuild (by decide) (by simp [Written.operation]),
    agrees.updates us (by simp [Written.operation])]
  rfl

theorem readsBack_navigateToPage (h : navigateToPage o = .ok op) :
    op.type = .builtIn .navigateToPage ∧
    ((Value.object o).BlocksClose → ReadsBack navigateToPage op) := by
  obtain ⟨replace, -, h⟩ := bind_eq_ok.1 h
  obtain ⟨pageId, hp, h⟩ := bind_eq_ok.1 h
  cases h
  refine ⟨rfl, fun closed => ?_⟩
  intro o' agrees
  have page := faithful_of_required Shape.stable_text closed hp
  rw [navigateToPage, agrees.flag replace (by decide) (by simp [Written.operation]),
    agrees.required page (by decide) (by simp [Written.operation]),
    agrees.document (document o "args") (by decide) (by simp [Written.operation])]
  rfl

theorem readsBack_controlObject (h : controlObject o = .ok op) :
    op.type = .builtIn .controlObject ∧
    ((Value.object o).BlocksClose → ReadsBack controlObject op) := by
  obtain ⟨object, ho, h⟩ := bind_eq_ok.1 h
  obtain ⟨method, hm, h⟩ := bind_eq_ok.1 h
  cases h
  refine ⟨rfl, fun closed => ?_⟩
  intro o' agrees
  have object := faithful_of_required Shape.stable_text closed ho
  have method := faithful_of_required Shape.stable_text closed hm
  rw [controlObject, agrees.required object (by decide) (by simp [Written.operation]),
    agrees.required method (by decide) (by simp [Written.operation]),
    agrees.document (document o "args") (by decide) (by simp [Written.operation])]
  rfl

/-- An operation of which one field is required is read back if the rest of it is. -/
theorem readsBack_of_required {type : BuiltIn} {shape : Shape} {key : String}
    {make : ExprOr shape → Object → Operation} (stable : shape.Stable)
    (hk : key ≠ typeKey ∧ key ≠ conditionKey) (typed : ∀ field, (make field o).type = .builtIn type)
    (written : ∀ field, get? (ofList (Written.operation (make field o))) key = some field.toValue)
    (rest : (Value.object o).BlocksClose → ∀ field o',
      Agrees o' (Written.operation (make field o)) → make field o' = make field o)
    (h : (do let field ← required shape o key; pure (make field o)) = .ok op) :
    op.type = .builtIn type ∧ ((Value.object o).BlocksClose →
      ReadsBack (fun o => do let field ← required shape o key; pure (make field o)) op) := by
  obtain ⟨field, hf, hop⟩ := bind_eq_ok.1 h
  cases hop
  refine ⟨typed field, fun closed => ?_⟩
  intro o' agrees
  have faithful := faithful_of_required stable closed hf
  dsimp only
  rw [agrees.required faithful hk (written field)]
  exact congrArg Except.ok (rest closed field o' agrees)

/-- An operation that was read from an object is of the type it was read for, and it is read back if
the blocks of the object end at their braces. -/
theorem readsBack_of_reading {type : BuiltIn} {read : Object → Except FieldError Operation}
    (hr : reading type = .operation read) (h : read o = .ok op) :
    op.type = .builtIn type ∧ ((Value.object o).BlocksClose → ReadsBack read op) := by
  cases type with
  | showToast =>
    cases hr
    refine readsBack_of_required Shape.stable_text (by decide) (fun _ => rfl)
      (fun _ => by simp [Written.operation]) (fun closed message o' agrees => ?_) h
    have duration := faithfulOption_optional Shape.stable_toastDuration
      toValue_toastDuration_ne_null closed "duration"
    rw [agrees.optional duration (by decide) (by simp [Written.operation])]
  | setState =>
    cases hr
    obtain ⟨typed, back⟩ := readsBack_setState h
    exact ⟨typed, fun _ => back⟩
  | rebuildState =>
    cases hr
    obtain ⟨region, -, hop⟩ := bind_eq_ok.1 h
    cases hop
    refine ⟨rfl, fun _ => ?_⟩
    intro o' agrees
    dsimp only
    rw [agrees.text? region (by decide) (by simp [Written.operation])]
    rfl
  | navigateToPage =>
    cases hr
    exact readsBack_navigateToPage h
  | navigateBack =>
    cases hr
    cases h
    refine ⟨rfl, fun _ => ?_⟩
    intro o' agrees
    dsimp only
    rw [agrees.document (document o "result") (by decide) (by simp [Written.operation])]
    rfl
  | openUrl =>
    cases hr
    refine readsBack_of_required Shape.stable_text (by decide) (fun _ => rfl)
      (fun _ => by simp [Written.operation]) (fun closed url o' agrees => ?_) h
    have launchMode := faithfulOption_optional Shape.stable_launchMode
      toValue_launchMode_ne_null closed "launchMode"
    rw [agrees.optional launchMode (by decide) (by simp [Written.operation])]
  | setAppState =>
    cases hr
    obtain ⟨typed, back⟩ := readsBack_setAppState h
    exact ⟨typed, fun _ => back⟩
  | controlObject =>
    cases hr
    exact readsBack_controlObject h
  | share =>
    cases hr
    refine readsBack_of_required Shape.stable_text (by decide) (fun _ => rfl)
      (fun _ => by simp [Written.operation]) (fun closed message o' agrees => ?_) h
    have subject := faithfulOption_optional Shape.stable_text toValue_text_ne_null closed "subject"
    rw [agrees.optional subject (by decide) (by simp [Written.operation])]
  | delay =>
    cases hr
    exact readsBack_of_required (Shape.stable_int .signed64) (by decide) (fun _ => rfl)
      (fun _ => by simp [Written.operation]) (fun _ _ _ _ => rfl) h
  | copyToClipboard =>
    cases hr
    exact readsBack_of_required Shape.stable_text (by decide) (fun _ => rfl)
      (fun _ => by simp [Written.operation]) (fun _ _ _ _ => rfl) h
  | postMessage =>
    cases hr
    refine readsBack_of_required Shape.stable_text (by decide) (fun _ => rfl)
      (fun _ => by simp [Written.operation]) (fun _ name o' agrees => ?_) h
    rw [agrees.document (document o "payload") (by decide) (by simp [Written.operation])]
  | fireEvent =>
    cases hr
    refine readsBack_of_required Shape.stable_text (by decide) (fun _ => rfl)
      (fun _ => by simp [Written.operation]) (fun _ name o' agrees => ?_) h
    rw [agrees.document (document o "payload") (by decide) (by simp [Written.operation])]
  | noop =>
    cases hr
    cases h
    exact ⟨rfl, fun _ _ _ => rfl⟩
  | showDialog | showBottomSheet | callRestApi => cases hr

/-! ## Descriptors -/

def written (fields : List (String × Value)) (tag : String) (c : Condition) : Object :=
  ofList (fields ++ [(typeKey, .string tag)] ++ Written.optional conditionKey c)

variable {fields : List (String × Value)} {tag : String} {c : Condition}

theorem agrees_written (fields : List (String × Value)) (tag : String) (c : Condition) :
    Agrees (written fields tag c) fields := by
  intro key ht hc
  simp [written, ht, hc]

/-- The tag is read from what is written, whatever fields there are. -/
theorem get?_written_typeKey (fields : List (String × Value)) (tag : String) (c : Condition) :
    get? (written fields tag c) typeKey = some (.string tag) := by
  have hne : typeKey ≠ conditionKey := by decide
  simp [written, hne]

theorem get?_written_conditionKey (h : get? (ofList fields) conditionKey = none) :
    get? (written fields tag c) conditionKey = c.map ExprOr.toValue := by
  have hne : conditionKey ≠ typeKey := by decide
  simp [written, hne, h]

theorem faithfulOption_condition (closed : (Value.object o).BlocksClose) :
    FaithfulOption (condition o) :=
  faithfulOption_optional Shape.stable_bool toValue_bool_ne_null closed conditionKey

/-- The condition of a step is read back, unless one of the fields stands in its place. -/
theorem condition_written (faithful : FaithfulOption c)
    (h : get? (ofList fields) conditionKey = none) (tag : String) :
    condition (written fields tag c) = c :=
  optional_of_written faithful (get?_written_conditionKey h)

theorem get?_operation_conditionKey {type : BuiltIn} (h : op.type = .builtIn type) :
    get? (ofList (Written.operation op)) conditionKey = none := by
  have key : conditionKey = "disableActionIf" := rfl
  cases op with
  | custom => cases h
  | _ => simp [Written.operation, key]

theorem get?_hostFields (o : Object) (key : String) :
    get? (hostFields o) key =
      if key = conditionKey then none else if key = typeKey then none else get? o key := by
  rw [hostFields, Object.get?_erase, Object.get?_erase]

/-- The fields of a step for the host are what it was written with. -/
theorem hostFields_written (ho : Object.Sorted o) (tag : String) (c : Condition) :
    hostFields (written (hostFields o) tag c) = hostFields o := by
  have sorted : Object.Sorted (hostFields o) := (ho.erase typeKey).erase conditionKey
  have sorted' : Object.Sorted (hostFields (written (hostFields o) tag c)) :=
    ((Object.sorted_ofList _).erase typeKey).erase conditionKey
  apply sorted'.ext sorted
  intro key
  rw [get?_hostFields]
  by_cases hc : key = conditionKey
  · rw [if_pos hc, get?_hostFields, if_pos hc]
  · by_cases ht : key = typeKey
    · rw [if_neg hc, if_pos ht, get?_hostFields, if_neg hc, if_pos ht]
    · rw [if_neg hc, if_neg ht, agrees_written _ _ _ key ht hc, sorted.ofList_eq]

/-! ## Types and tags -/

/-- An operation that was read is written under the tag of its type. -/
theorem tag_of_reading {type : BuiltIn} {read : Object → Except FieldError Operation}
    (hr : reading type = .operation read) (h : read o = .ok op) :
    Written.tag op = (ActionType.builtIn type).tag := by
  have ht := (readsBack_of_reading hr h).1
  cases op with
  | noop originalTag =>
    cases type with
    | noop =>
      cases hr
      cases h
      rfl
    | _ => cases ht
  | custom => cases ht
  | _ => exact congrArg ActionType.tag ht

/-! ## Nested flows -/

theorem slot_eq (key : String) (o : Object) : slot key o = (get? o key).bind flow? := by
  induction o with
  | nil => rw [slot, Object.get?_nil, Option.bind_none]
  | cons entry rest ih =>
    obtain ⟨k, v⟩ := entry
    rw [slot, Object.get?_cons]
    by_cases h : k = key
    · rw [if_pos h, if_pos h, Option.bind_some]
    · rw [if_neg h, if_neg h, ih]

theorem stepsUnder_of_get? {items : List Value} (h : get? o "steps" = some (.array items)) :
    stepsUnder o = steps items := by
  induction o with
  | nil => cases h
  | cons entry rest ih =>
    obtain ⟨k, v⟩ := entry
    rw [Object.get?_cons] at h
    rw [stepsUnder.eq_def]
    dsimp only
    by_cases hk : k = "steps"
    · rw [if_pos hk] at h
      cases h
      rw [if_pos hk]
    · rw [if_neg hk] at h
      rw [if_neg hk, ih h]

/-- What is read back for a flow in a slot. -/
def reread (nested : Option Flow) : Option Flow := nested.bind fun f => flow? (Written.flow f)

theorem slot_of_written {key : String} {nested : Option Flow}
    (h : get? o key = nested.map Written.flow) : slot key o = reread nested := by
  rw [slot_eq, h]
  cases nested <;> rfl

/-- A slot is read back if its flow is. -/
theorem reread_eq {nested : Option Flow}
    (back : ∀ f, nested = some f → flow? (Written.flow f) = some f) : reread nested = nested := by
  cases nested with
  | none => rfl
  | some f => exact back f rfl

/-- A flow is read back with the steps that are read back, if there is one. -/
theorem flow?_written (actions : List Action) (inkWell : Bool) :
    flow? (Written.flow ⟨actions, inkWell⟩) =
      match steps (Written.steps actions) with
      | [] => none
      | first :: rest => some ⟨first :: rest, inkWell⟩ := by
  have under : stepsUnder (ofList [("steps", Value.array (Written.steps actions)),
      ("inkWell", .bool inkWell)]) = steps (Written.steps actions) := by
    have listed : get? (ofList [("steps", Value.array (Written.steps actions)),
        ("inkWell", .bool inkWell)]) "steps" = some (.array (Written.steps actions)) := by
      simp
    exact stepsUnder_of_get? listed
  rw [Written.flow, Value.ofEntries, flow?, under]
  cases steps (Written.steps actions) with
  | nil => rfl
  | cons first rest => cases inkWell <;> simp

/-! ## Steps and flows -/

theorem action_hostStep_written {tag name : String} (ho : Object.Sorted o)
    (faithful : FaithfulOption c) (htag : ActionType.ofTag tag = .custom name) :
    action (Written.action (.simple (.custom tag (hostFields o)) c)) =
      .ok (.simple (.custom tag (hostFields o)) c) := by
  have sorted : Object.Sorted (hostFields o) := (ho.erase typeKey).erase conditionKey
  have noCondition : get? (ofList (hostFields o)) conditionKey = none := by
    rw [sorted.ofList_eq, get?_hostFields, if_pos rfl]
  show action (.object (written (hostFields o) tag c)) = _
  rw [action, get?_written_typeKey]
  simp only [htag, hostFields_written ho, condition_written faithful noCondition]

theorem action_operation_written {type : BuiltIn} {read : Object → Except FieldError Operation}
    (hr : reading type = .operation read) (closed : (Value.object o).BlocksClose)
    (h : read o = .ok op) :
    action (Written.action (.simple op (condition o))) = .ok (.simple op (condition o)) := by
  obtain ⟨htype, back⟩ := readsBack_of_reading hr h
  have noCondition := get?_operation_conditionKey htype
  have same := back closed _ (agrees_written (Written.operation op) (Written.tag op) (condition o))
  show action (.object (written (Written.operation op) (Written.tag op) (condition o))) = _
  rw [action, get?_written_typeKey]
  simp only [tag_of_reading hr h, ActionType.ofTag_tag, hr] at same ⊢
  rw [same, condition_written (faithfulOption_condition closed) noCondition]
  rfl

theorem action_modal_written (kind : ModalKind) {view : ModalView} (onResult : Option Flow)
    (closed : (Value.object o).BlocksClose) (h : modalView o = .ok view) :
    action (Written.action (.modal kind view onResult (condition o))) =
      .ok (.modal kind view (reread onResult) (condition o)) := by
  obtain ⟨barrierDismissible, -, h⟩ := bind_eq_ok.1 h
  obtain ⟨viewId, hid, h⟩ := bind_eq_ok.1 h
  cases h
  have faithful := faithful_of_required Shape.stable_text closed hid
  let view : ModalView := ⟨viewId, document o "args", barrierDismissible⟩
  let fields := Written.modalView view ++ Written.slot "onResult" onResult
  let o' := written fields (ActionType.builtIn kind.stepType).tag (condition o)
  have agrees : Agrees o' fields := agrees_written _ _ _
  have noCondition : get? (ofList fields) conditionKey = none := by
    simp [fields, Written.modalView, conditionKey]
  have nested : slot "onResult" o' = reread onResult :=
    slot_of_written ((agrees _ (by decide) (by decide)).trans
      (by simp [fields, Written.modalView]))
  have described : modalView o' = .ok view := by
    rw [modalView,
      agrees.flag barrierDismissible (by decide) (by simp [fields, view, Written.modalView]),
      agrees.required faithful (by decide) (by simp [fields, view, Written.modalView]),
      agrees.document (document o "args") (by decide) (by simp [fields, view, Written.modalView])]
    rfl
  have read : reading kind.stepType = .modal kind := by
    cases kind <;> rfl
  show action (.object o') = _
  rw [action, get?_written_typeKey]
  simp only [ActionType.ofTag_tag, read]
  rw [described, nested, condition_written (faithfulOption_condition closed) noCondition]
  rfl

theorem action_request_written {source : DataSource} (onSuccess onError : Option Flow)
    (closed : (Value.object o).BlocksClose) (h : requestSource o = .ok source) :
    action (Written.action (.request source onSuccess onError (condition o))) =
      .ok (.request source (reread onSuccess) (reread onError) (condition o)) := by
  have faithful : FaithfulSource source := by
    rw [requestSource] at h
    split at h
    · cases h
    · next found => exact faithfulSource_of_dataSource (closed.of_get? found) h
  let fields := ("dataSource", Written.dataSource source) :: Written.slot "onSuccess" onSuccess ++
    Written.slot "onError" onError
  let o' := written fields (ActionType.builtIn .callRestApi).tag (condition o)
  have agrees : Agrees o' fields := agrees_written _ _ _
  have noCondition : get? (ofList fields) conditionKey = none := by
    simp [fields, conditionKey]
  have success : slot "onSuccess" o' = reread onSuccess :=
    slot_of_written ((agrees _ (by decide) (by decide)).trans (by simp [fields]))
  have failure : slot "onError" o' = reread onError :=
    slot_of_written ((agrees _ (by decide) (by decide)).trans (by simp [fields]))
  have described : requestSource o' = .ok source := by
    have present : get? o' "dataSource" = some (Written.dataSource source) :=
      (agrees _ (by decide) (by decide)).trans (by simp [fields])
    rw [requestSource, present]
    exact dataSource_written faithful
  have read : reading .callRestApi = .request := rfl
  show action (.object o') = _
  rw [action, get?_written_typeKey]
  simp only [ActionType.ofTag_tag, read]
  rw [described, success, failure, condition_written (faithfulOption_condition closed) noCondition]
  rfl

mutual

/-- A step that was read is read back from its written descriptor. -/
theorem action_written :
    (v : Value) → v.Canonical → v.BlocksClose → ∀ {a : Action}, action v = .ok a →
      action (Written.action a) = .ok a
  | .object o, ⟨sorted, inside⟩, closed, a, h => by
    rw [action] at h
    split at h
    · next tag htag =>
      split at h
      · next name hname =>
        cases h
        exact action_hostStep_written sorted (faithfulOption_condition closed) hname
      · next type htype =>
        have h := mapError_eq_ok.1 h
        split at h
        · next read hread =>
          obtain ⟨op, hop, rfl⟩ := map_eq_ok.1 h
          exact action_operation_written hread closed hop
        · next kind _ =>
          obtain ⟨view, hview, rfl⟩ := map_eq_ok.1 h
          have back := reread_eq fun f => slot_written "onResult" o inside closed
          rw [action_modal_written _ _ closed hview, back]
        · obtain ⟨source, hsource, rfl⟩ := map_eq_ok.1 h
          have backSuccess := reread_eq fun f => slot_written "onSuccess" o inside closed
          have backError := reread_eq fun f => slot_written "onError" o inside closed
          rw [action_request_written _ _ closed hsource, backSuccess, backError]
    · cases h
  | .null, _, _, _, h | .bool _, _, _, _, h | .number _, _, _, _, h | .string _, _, _, _, h
  | .array _, _, _, _, h => by cases h

theorem slot_written (key : String) :
    (entries : Object) → Value.CanonicalEntries entries →
    (Value.object entries).BlocksClose → ∀ {f : Flow},
      slot key entries = some f → flow? (Written.flow f) = some f
  | [], _, _, _, h => by cases h
  | (k, v) :: rest, inside, closed, f, h => by
    obtain ⟨first, others⟩ := Value.blocksClose_entries.1 closed
    rw [slot] at h
    split at h
    · exact flow_written v inside.1 first h
    · exact slot_written key rest inside.2 others h

theorem flow_written :
    (v : Value) → v.Canonical → v.BlocksClose → ∀ {f : Flow}, flow? v = some f →
      flow? (Written.flow f) = some f
  | .array items, canonical, closed, f, h => by
    rw [flow?] at h
    have back := steps_written items canonical closed
    split at h
    · cases h
    · next first rest hs =>
      cases h
      rw [hs] at back
      rw [flow?_written, back]
  | .object o, canonical, closed, f, h => by
    rw [flow?] at h
    have back := stepsUnder_written o canonical.2 closed
    split at h
    · cases h
    · next first rest hs =>
      cases h
      rw [hs] at back
      rw [flow?_written, back]
  | .null, _, _, _, h | .bool _, _, _, _, h | .number _, _, _, _, h | .string _, _, _, _, h => by
    cases h

theorem stepsUnder_written :
    (entries : Object) → Value.CanonicalEntries entries → (Value.object entries).BlocksClose →
      steps (Written.steps (stepsUnder entries)) = stepsUnder entries
  | [], _, _ => rfl
  | (k, v) :: rest, inside, closed => by
    obtain ⟨first, others⟩ := Value.blocksClose_entries.1 closed
    rw [stepsUnder.eq_def]
    dsimp only
    split
    · split
      · next items => exact steps_written items inside.1 first
      · rfl
    · exact stepsUnder_written rest inside.2 others

theorem steps_written :
    (items : List Value) → Value.CanonicalItems items → (Value.array items).BlocksClose →
      steps (Written.steps (steps items)) = steps items
  | [], _, _ => rfl
  | v :: rest, inside, closed => by
    obtain ⟨firstClosed, othersClosed⟩ := Value.blocksClose_items.1 closed
    have others := steps_written rest inside.2 othersClosed
    cases h : action v with
    | error e =>
      rw [steps, h]
      exact others
    | ok a =>
      have first := action_written v inside.1 firstClosed h
      rw [steps, h]
      simp only [Written.steps]
      rw [steps, first, others]

end

end Descriptor

/-- Writing a step or a flow that was read from a document, and reading the result, gives it again,
if the blocks of all texts in the document end at the braces that close them. They do unless a text
has 2147483648 braces that open. -/
theorem descriptors_read_back (v : Value) (canonical : v.Canonical) :
    ((∀ s ∈ v.texts, s.toList.count '\x7b' < 2147483648) → v.BlocksClose) ∧
      (v.BlocksClose →
        (∀ a, Action.ofValue v = .ok a → Action.ofValue a.toValue = .ok a) ∧
          ∀ f, Flow.ofValue? v = some f → Flow.ofValue? f.toValue = some f) := by
  refine ⟨Value.blocksClose_of_count, fun closed => ⟨?_, ?_⟩⟩
  · intro a h
    exact Descriptor.action_written v canonical closed h
  · intro f h
    exact Descriptor.flow_written v canonical closed h

/-- A dialog whose result starts a step for the host, and the list of that dialog and a toast. -/
theorem descriptors_read_back_dialog :
    let host : Value := .object [("mode", .null), ("type", .string "ping")]
    let dialog : Value := .object [("disableActionIf", .string "@{busy}"),
      ("onResult", .array [host]), ("type", .string "Action.showDialog"),
      ("viewId", .string "a @@{b}")]
    let toast : Value := .object [("message", .string "@{n}"), ("type", .string "showToast")]
    (∃ a, Action.ofValue dialog = .ok a ∧ Action.ofValue a.toValue = .ok a) ∧
      ∃ f, Flow.ofValue? (.array [dialog, toast]) = some f ∧
        Flow.ofValue? f.toValue = some f := by
  intro host dialog toast
  have hostCanonical : host.Canonical := by
    have keys : ["mode", "type"].Pairwise (· < ·) := by decide +kernel
    exact ⟨List.pairwise_map.1 keys, trivial, trivial, trivial⟩
  have dialogCanonical : dialog.Canonical := by
    have keys : ["disableActionIf", "onResult", "type", "viewId"].Pairwise (· < ·) := by
      decide +kernel
    exact ⟨List.pairwise_map.1 keys, trivial, ⟨hostCanonical, trivial⟩, trivial, trivial, trivial⟩
  have toastCanonical : toast.Canonical := by
    have keys : ["message", "type"].Pairwise (· < ·) := by decide +kernel
    exact ⟨List.pairwise_map.1 keys, trivial, trivial, trivial⟩
  let nested : Flow := ⟨[.simple (.custom "ping" [("mode", .null)]) none], false⟩
  let shown : Action :=
    .modal .dialog ⟨.literal "a @{b}", .null, true⟩ (some nested) (some (.expression "busy"))
  let told : Action := .simple (.showToast (.expression "n") none) none
  have dialogRead : Action.ofValue dialog = .ok shown := by decide +kernel
  have flowRead : Flow.ofValue? (.array [dialog, toast]) = some ⟨[shown, told], false⟩ := by
    decide +kernel
  refine ⟨⟨shown, dialogRead, ?_⟩, ⟨⟨[shown, told], false⟩, flowRead, ?_⟩⟩
  · obtain ⟨closed, back⟩ := descriptors_read_back dialog dialogCanonical
    exact (back (closed (by decide +kernel))).1 shown dialogRead
  · obtain ⟨closed, back⟩ := descriptors_read_back (.array [dialog, toast])
      ⟨dialogCanonical, toastCanonical, trivial⟩
    exact (back (closed (by decide +kernel))).2 _ flowRead

/-! ## A block that ends too early -/

def copying (text : String) : Value :=
  .object [("message", .string text), ("type", .string "Action.copyToClipBoard")]

theorem ofValue_copying (text : String) : Action.ofValue (copying text) =
    .ok (.simple (.copyToClipboard (.ofDocument .text (.string text))) none) := by
  have type : ActionType.ofTag "Action.copyToClipBoard" = .builtIn .copyToClipboard := by
    decide +kernel
  have tag : Object.get? [("message", .string text), ("type", .string "Action.copyToClipBoard")]
      Descriptor.typeKey = some (.string "Action.copyToClipBoard") := by
    simp [Object.get?, Descriptor.typeKey]
  have noCondition : Object.get? [("message", .string text),
      ("type", .string "Action.copyToClipBoard")] Descriptor.conditionKey = none := by
    simp [Object.get?, Descriptor.conditionKey]
  rw [Action.ofValue, copying, Descriptor.action, tag]
  simp only [type, Descriptor.reading, Descriptor.condition, Descriptor.optional,
    Descriptor.document, noCondition]
  rfl

theorem toValue_copying (source : String) :
    Action.toValue (.simple (.copyToClipboard (.expression source)) none) =
      copying (Template.ofSource source) := by
  let entries : Object := [("message", .string (Template.ofSource source)),
    ("type", .string "Action.copyToClipBoard")]
  have keys : ["message", "type"].Pairwise (· < ·) := by decide +kernel
  have sorted : Object.Sorted entries := List.pairwise_map.1 keys
  have tag : ActionType.tag (.builtIn .copyToClipboard) = "Action.copyToClipBoard" := by
    decide +kernel
  have written : Action.toValue (.simple (.copyToClipboard (.expression source)) none) =
      .object (Object.ofList [("message", .string (Template.ofSource source)),
        ("type", .string (ActionType.tag (.builtIn .copyToClipboard)))]) := rfl
  rw [written, tag]
  exact congrArg Value.object sorted.ofList_eq

/-- A step that copies a text is not read back if the written block of that text is left open. -/
theorem ofValue_toValue_copying {text source : String} (block : Template.source? text = some source)
    (lost : Template.source? (Template.ofSource source) = none) :
    ∃ a, Action.ofValue (copying text) = .ok a ∧ Action.ofValue a.toValue ≠ .ok a := by
  have read : ExprOr.ofDocument .text (.string text) = .expression source :=
    ExprOr.ofDocument_eq_expression (v := .string text) block
  have other : ExprOr.ofDocument .text (.string (Template.ofSource source)) ≠ .expression source :=
    ExprOr.ofDocument_ne_expression (v := .string (Template.ofSource source)) lost
  refine ⟨.simple (.copyToClipboard (.expression source)) none, ?_, ?_⟩
  · rw [ofValue_copying, read]
  · rw [toValue_copying, ofValue_copying]
    intro same
    simp only [Except.ok.injEq, Action.simple.injEq, Operation.copyToClipboard.injEq] at same
    exact other same.1

/-- The search ends the block of a text with 2147483648 braces, which are never closed, and it does
not end the block that is written for it. -/
theorem copied_unclosed_changes :
    (copying (Template.unclosed 2147483647)).Canonical ∧
      ∃ a, Action.ofValue (copying (Template.unclosed 2147483647)) = .ok a ∧
        Action.ofValue a.toValue ≠ .ok a := by
  have keys : ["message", "type"].Pairwise (· < ·) := by decide +kernel
  have most : 2147483647 = Template.maxInner + 1 := rfl
  refine ⟨⟨List.pairwise_map.1 keys, trivial, trivial, trivial⟩, ?_⟩
  rw [most]
  exact ofValue_toValue_copying Template.source?_unclosed
    (Template.source?_ofSource_replicate (by decide) (Nat.le_refl _))

end StepFlow
