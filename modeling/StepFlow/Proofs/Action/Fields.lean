import StepFlow.Action.Written
import StepFlow.Proofs.Field
import StepFlow.Proofs.Object

/-!
# Fields of a descriptor, written and read

For each way in which a field of a descriptor is written there is one in which it is read, and
reading undoes writing wherever the field stands among others. `get?_ofList_*` says what an object
made of written fields has under a key; the lemmas after them say what a reader makes of that.
-/

namespace StepFlow

namespace Written

open Object (get? ofList)

variable {shape : Shape} (key other : String)

/-- What is written for a document that may be null. -/
def present : Value → Option Value
  | .null => none
  | v => some v

@[simp] theorem get?_ofList_document (v : Value) :
    get? (ofList (document key v)) other = if other = key then present v else none := by
  cases v <;> simp [document, present]

@[simp] theorem get?_ofList_required (field : ExprOr shape) :
    get? (ofList (required key field)) other =
      if other = key then some field.toValue else none := by
  simp [required]

@[simp] theorem get?_ofList_optional (field : Option (ExprOr shape)) :
    get? (ofList (optional key field)) other =
      if other = key then field.map ExprOr.toValue else none := by
  cases field <;> simp [optional]

@[simp] theorem get?_ofList_text (s : Option String) :
    get? (ofList (text key s)) other = if other = key then s.map .string else none := by
  cases s <;> simp [text]

@[simp] theorem get?_ofList_flag (default b : Bool) :
    get? (ofList (flag key default b)) other =
      if other = key ∧ b ≠ default then some (.bool b) else none := by
  by_cases h : b = default <;> simp [flag, h]

@[simp] theorem get?_ofList_updates (us : List StateUpdate) :
    get? (ofList (updates us)) other =
      if other = "updates" then some (.array (us.map stateUpdate)) else none := by
  simp [updates]

@[simp] theorem get?_ofList_slot (nested : Option Flow) :
    get? (ofList (slot key nested)) other = if other = key then nested.map flow else none := by
  cases nested <;> simp [slot]

end Written

namespace Descriptor

open Object (get?)

variable {shape : Shape} {o : Object} {key : String}

theorem document_of_present {v : Value} (h : get? o key = Written.present v) :
    document o key = v := by
  rw [document, h]
  cases v <;> rfl

theorem flag_of_written {default b : Bool}
    (h : get? o key = if b ≠ default then some (.bool b) else none) :
    flag o key default = .ok b := by
  rw [flag, h]
  by_cases hb : b = default <;> simp [hb]

theorem text?_of_written {s : Option String} (h : get? o key = s.map .string) :
    text? o key = .ok s := by
  rw [text?, h]
  cases s <;> rfl

/-! ## Fields that may hold an expression -/

/-- A field that is read back from its written form, wherever that is found. -/
def Faithful (field : ExprOr shape) : Prop :=
  ExprOr.ofDocument shape field.toValue = field

/-- A field that may be absent and is read back from what is written for it. -/
def FaithfulOption (field : Option (ExprOr shape)) : Prop :=
  field.bind (fun field => unlessNull shape field.toValue) = field

theorem required_of_written {field : ExprOr shape} (faithful : Faithful field)
    (h : get? o key = some field.toValue) : required shape o key = .ok field := by
  rw [required, h]
  exact congrArg Except.ok faithful

theorem optional_of_written {field : Option (ExprOr shape)} (faithful : FaithfulOption field)
    (h : get? o key = field.map ExprOr.toValue) : optional shape o key = field := by
  rw [optional, document, h]
  cases field with
  | none => rfl
  | some field => exact faithful

/-- What a field of an object is made of has no other blocks than the object. -/
theorem blocksClose_document (closed : (Value.object o).BlocksClose) (key : String) :
    (document o key).BlocksClose := by
  rw [document]
  cases found : get? o key with
  | none => exact nofun
  | some v => exact closed.of_get? found

theorem faithful_of_required (stable : shape.Stable) (closed : (Value.object o).BlocksClose)
    {field : ExprOr shape} (h : required shape o key = .ok field) : Faithful field := by
  rw [required] at h
  split at h
  · cases h
  · next found =>
    cases h
    exact ExprOr.ofDocument_toValue_ofDocument stable (closed.of_get? found).text

/-- Nothing but null is written as null: a text, a number or a truth value is none, and a value that
does not fit its shape is the one that was read. -/
theorem toValue_ofDocument_ne_null (proper : ∀ a : shape.Carrier, shape.toValue a ≠ .null)
    {v : Value} (hv : v ≠ .null) : (ExprOr.ofDocument shape v).toValue ≠ .null := by
  cases h : ExprOr.ofDocument shape v with
  | literal a =>
    have ha := proper a
    rw [ExprOr.toValue]
    split
    · exact Value.noConfusion
    · exact ha
  | expression source => exact Value.noConfusion
  | unresolved raw =>
    have raw_eq : raw = v := by
      unfold ExprOr.ofDocument ExprOr.ofValue? at h
      split at h
      · cases h
      · cases ha : shape.ofValue? (ExprOr.unescaped v) with
        | some a => simp [ha] at h
        | none =>
          simp only [ha, Option.map_none, Option.getD_none] at h
          cases h
          rfl
    rw [ExprOr.toValue, raw_eq]
    exact hv

theorem faithfulOption_unlessNull (stable : shape.Stable)
    (proper : ∀ a : shape.Carrier, shape.toValue a ≠ .null) {v : Value} (closed : v.BlocksClose) :
    FaithfulOption (unlessNull shape v) := by
  by_cases hv : v = .null
  · subst hv
    rfl
  · have read : ∀ {w : Value},
        w ≠ .null → unlessNull shape w = some (ExprOr.ofDocument shape w) := by
      intro w hw
      rw [unlessNull]
      exact hw
    rw [FaithfulOption, read hv, Option.bind_some,
      read (toValue_ofDocument_ne_null proper hv),
      ExprOr.ofDocument_toValue_ofDocument stable closed.text]

theorem faithfulOption_optional (stable : shape.Stable)
    (proper : ∀ a : shape.Carrier, shape.toValue a ≠ .null)
    (closed : (Value.object o).BlocksClose) (key : String) :
    FaithfulOption (optional shape o key) :=
  faithfulOption_unlessNull stable proper (blocksClose_document closed key)

/-! ## Updates and data sources -/

theorem stateUpdate_written (update : StateUpdate) :
    stateUpdate (Written.stateUpdate update) = .ok update := by
  have name : get? (Object.ofList [("stateName", Value.string update.stateName),
      ("newValue", update.newValue)]) "stateName" = some (.string update.stateName) := by simp
  have value : get? (Object.ofList [("stateName", Value.string update.stateName),
      ("newValue", update.newValue)]) "newValue" = some update.newValue := by simp
  simp only [Written.stateUpdate, Value.ofEntries, stateUpdate, name, document, value,
    Option.getD_some]

theorem mapM_stateUpdate_written (us : List StateUpdate) :
    (us.map Written.stateUpdate).mapM stateUpdate = .ok us := by
  induction us with
  | nil => rfl
  | cons u rest ih =>
    rw [List.map_cons, List.mapM_cons, stateUpdate_written, ih]
    rfl

theorem updates_of_written {us : List StateUpdate}
    (h : get? o "updates" = some (.array (us.map Written.stateUpdate))) : updates o = .ok us := by
  rw [updates, h]
  exact mapM_stateUpdate_written us

/-- What a data source has to be for it to be read back. -/
structure FaithfulSource (source : DataSource) : Prop where
  method : FaithfulOption source.method
  url : Faithful source.url

theorem dataSource_written {source : DataSource} (faithful : FaithfulSource source) :
    dataSource (Written.dataSource source) = .ok source := by
  simp only [Written.dataSource, Value.ofEntries, dataSource]
  rw [required_of_written faithful.url (by simp),
    optional_of_written faithful.method (by simp),
    document_of_present (v := source.headers) (by simp),
    document_of_present (v := source.body) (by simp)]
  rfl

theorem toValue_text_ne_null (s : Shape.Carrier .text) : Shape.toValue .text s ≠ .null :=
  Value.noConfusion

theorem toValue_httpMethod_ne_null (m : Shape.Carrier .httpMethod) :
    Shape.toValue .httpMethod m ≠ .null := Value.noConfusion

theorem faithfulSource_of_list {method url : Value} (methodClosed : method.BlocksClose)
    (urlClosed : url.BlocksClose) (headers body : Value) :
    FaithfulSource ⟨unlessNull .httpMethod method, ExprOr.ofDocument .text url, headers, body⟩ where
  method :=
    faithfulOption_unlessNull Shape.stable_httpMethod toValue_httpMethod_ne_null methodClosed
  url := ExprOr.ofDocument_toValue_ofDocument Shape.stable_text urlClosed.text

theorem faithfulSource_of_dataSource {v : Value} (closed : v.BlocksClose) {source : DataSource}
    (h : dataSource v = .ok source) : FaithfulSource source := by
  unfold dataSource at h
  split at h
  · next o =>
    cases hu : required .text o "url" with
    | error e =>
      rw [hu] at h
      cases h
    | ok url =>
      rw [hu] at h
      cases h
      exact ⟨faithfulOption_optional Shape.stable_httpMethod toValue_httpMethod_ne_null
        closed "method", faithful_of_required Shape.stable_text closed hu⟩
  · next method url rest =>
    obtain ⟨methodClosed, closed⟩ := Value.blocksClose_items.1 closed
    obtain ⟨urlClosed, -⟩ := Value.blocksClose_items.1 closed
    split at h
    · cases h
      exact faithfulSource_of_list methodClosed urlClosed _ _
    · cases h
      exact faithfulSource_of_list methodClosed urlClosed _ _
    · cases h
      exact faithfulSource_of_list methodClosed urlClosed _ _
    · cases h
  · cases h
  · cases h

end Descriptor

end StepFlow
