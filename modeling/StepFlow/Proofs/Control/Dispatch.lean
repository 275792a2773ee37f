import StepFlow.Proofs.Run.Deed

/-!
# Which method a call runs

Methods are registered one at a time or several of one category together, and the last one of a
category and a name is in force. What is declared of the methods already tells whether a call is
refused, for want of the category, of the method or because the object is of another kind:
`MethodsOf.refusal?`. Such a call fails whatever the methods do. Every other call is one run of the
method in force on what the object holds.
-/

namespace StepFlow

variable {κ : Type} {State : κ → Type} {category name : String}

/-! ## What was registered -/

/-- What is done to register methods: one of them, or several of one category. -/
inductive Enrolment {κ : Type} (State : κ → Type) where
  | one (category name : String) (method : MethodOf State)
  | several (category : String) (methods : List (String × MethodOf State))

namespace Enrolment

/-- The registrations that come of it, in this order. -/
def registrations : Enrolment State → List (RegistrationOf State)
  | one category name method => [⟨category, name, method⟩]
  | several category methods => methods.map fun entry => ⟨category, entry.1, entry.2⟩

def enrol (ms : MethodsOf State) : Enrolment State → MethodsOf State
  | one category name method => ms.register category name method
  | several category methods => ms.registerAll category methods

/-- All that is registered, the earliest first. -/
def known (history : List (Enrolment State)) : List (RegistrationOf State) :=
  history.flatMap registrations

/-- The table after all of it, beginning with none. -/
def table (history : List (Enrolment State)) : MethodsOf State := history.foldl enrol []

theorem enrol_eq (ms : MethodsOf State) (e : Enrolment State) :
    enrol ms e = e.registrations.reverse ++ ms := by
  cases e with
  | one category name method => rfl
  | several category methods =>
    rw [enrol, registrations, MethodsOf.registerAll]
    induction methods generalizing ms with
    | nil => rfl
    | cons entry rest ih =>
      rw [List.foldl_cons, ih, List.map_cons, List.reverse_cons, List.append_assoc]
      rfl

/-- The table holds what was registered, the latest first. -/
theorem table_eq (history : List (Enrolment State)) : table history = (known history).reverse := by
  have grown (ms : MethodsOf State) : history.foldl enrol ms = (known history).reverse ++ ms := by
    induction history generalizing ms with
    | nil => rfl
    | cons e rest ih =>
      rw [List.foldl_cons, ih, enrol_eq, known, known, List.flatMap_cons, List.reverse_append,
        List.append_assoc]
  rw [table, grown, List.append_nil]

theorem mem_table {history : List (Enrolment State)} {r : RegistrationOf State} :
    r ∈ table history ↔ r ∈ known history := by
  rw [table_eq, List.mem_reverse]

end Enrolment

namespace RegistrationOf

def declared (r : RegistrationOf State) : String × String × κ := (r.category, r.name, r.method.kind)

/-- The registration of a method that does nothing. -/
def idle (r : RegistrationOf State) : RegistrationOf State :=
  ⟨r.category, r.name, r.method.kind, fun _ _ state => .ok (.null, state)⟩

/-- A registration is the last one for its category and name. -/
def InForce (r : RegistrationOf State) (known : List (RegistrationOf State))
    (category name : String) :
    Prop :=
  (r.category = category ∧ r.name = name) ∧ ∃ before after, known = before ++ r :: after ∧
    ∀ later ∈ after, ¬(later.category = category ∧ later.name = name)

end RegistrationOf

namespace MethodsOf

open RegistrationOf

variable {ms ms' : MethodsOf State}

theorem hasCategory_iff : ms.hasCategory category = true ↔ ∃ r ∈ ms, r.category = category := by
  simp only [hasCategory, List.any_eq_true, decide_eq_true_eq]

theorem hasMethod_iff :
    ms.hasMethod category name = true ↔ ∃ r ∈ ms, r.category = category ∧ r.name = name := by
  simp only [hasMethod, find?, Option.isSome_map, List.find?_isSome, Bool.and_eq_true,
    decide_eq_true_eq]

/-- The method that is found is the one in force. -/
theorem find?_table {history : List (Enrolment State)} {m : MethodOf State} :
    (Enrolment.table history).find? category name = some m ↔
      ∃ r : RegistrationOf State,
        r.InForce (Enrolment.known history) category name ∧ r.method = m := by
  rw [find?, Option.map_eq_some_iff]
  refine exists_congr fun r => and_congr_left fun _ => ?_
  rw [List.find?_eq_some_iff_append, Enrolment.table_eq]
  simp only [Bool.and_eq_true, decide_eq_true_eq, Bool.not_eq_true', Bool.and_eq_false_iff,
    decide_eq_false_iff_not, ← Decidable.not_and_iff_not_or_not, InForce]
  refine and_congr_right fun _ => ⟨?_, ?_⟩
  · rintro ⟨after, before, split, last⟩
    refine ⟨before.reverse, after.reverse, ?_, fun later mem => last later (List.mem_reverse.1 mem)⟩
    rw [← List.reverse_inj, split]
    simp
  · rintro ⟨before, after, split, last⟩
    refine ⟨after.reverse, before.reverse, ?_, fun later mem => last later (List.mem_reverse.1 mem)⟩
    rw [split]
    simp

/-! ## Refused calls -/

section Calls

variable [DecidableEq κ] {c : ControlOf State} {e : ActionError}

/-- A call is refused with an error: it fails so under all tables in which the same is declared, at
any time and with any arguments. -/
def Refuses (ms : MethodsOf State) (c : ControlOf State) (name : String) (e : ActionError) : Prop :=
  ∀ ms' : MethodsOf State, ms'.map declared = ms.map declared →
    ∀ now args, ms'.call now c name args = .error e

/-- Why no method is run on a call, if so. -/
def refusal? (ms : MethodsOf State) (c : ControlOf State) (name : String) : Option ActionError :=
  if ms.hasCategory c.category then
    match (ms.find? c.category name).map MethodOf.kind with
    | some kind => if c.kind = kind then none else some (.executionFailed (.otherKind c.category))
    | none => some (.methodNotFound c.category name)
  else some (.categoryNotFound c.category)

/-- Whether a call is refused depends on what is declared only. -/
theorem refusal?_congr (same : ms'.map declared = ms.map declared) (c : ControlOf State)
    (name : String) : ms'.refusal? c name = ms.refusal? c name := by
  have hasCategory (ms : MethodsOf State) : ms.hasCategory c.category =
      (ms.map declared).any fun d => d.1 = c.category := by
    rw [List.any_map]
    rfl
  have kind (ms : MethodsOf State) : (ms.find? c.category name).map MethodOf.kind =
      ((ms.map declared).find? fun d => d.1 = c.category && d.2.1 = name).map fun d => d.2.2 := by
    rw [find?, List.find?_map, Option.map_map, Option.map_map]
    rfl
  simp only [refusal?, hasCategory, kind, same]

theorem call_of_refusal (h : ms.refusal? c name = some e) (now : Nat) (args : Object) :
    ms.call now c name args = .error e := by
  rw [refusal?] at h
  rw [call]
  split at h
  · next has =>
    rw [if_pos has]
    cases found : ms.find? c.category name with
    | none =>
      rw [found] at h
      cases h
      rfl
    | some m =>
      rw [found] at h
      dsimp only [Option.map_some] at h
      split at h
      · cases h
      · next other =>
        cases h
        exact dif_neg other
  · next has =>
    rw [if_neg has]
    cases h
    rfl

/-- A call that is not refused is a run of the method that is found. -/
theorem call_of_no_refusal (h : ms.refusal? c name = none) :
    ∃ m, ms.find? c.category name = some m ∧ c.kind = m.kind ∧
      ∀ now args, ms.call now c name args = m.call now args c := by
  rw [refusal?] at h
  split at h
  · next has =>
    cases found : ms.find? c.category name with
    | none =>
      rw [found] at h
      cases h
    | some m =>
      rw [found] at h
      dsimp only [Option.map_some] at h
      split at h
      · next same => exact ⟨m, rfl, same, fun now args => by rw [call, if_pos has, found]⟩
      · cases h
  · cases h

/-- A call is refused if and only if what is declared says so: with methods that do nothing it would
go through otherwise. -/
theorem refuses_iff : ms.Refuses c name e ↔ ms.refusal? c name = some e := by
  constructor
  · intro refuses
    have same : (ms.map idle).map declared = ms.map declared := by
      rw [List.map_map]
      rfl
    have failed := refuses (ms.map idle) same 0 []
    rw [← refusal?_congr same]
    cases verdict : refusal? (ms.map idle) c name with
    | some e' =>
      rw [call_of_refusal verdict] at failed
      cases failed
      rfl
    | none =>
      obtain ⟨m, found, kind, run⟩ := call_of_no_refusal verdict
      obtain ⟨r, first, rfl⟩ := Option.map_eq_some_iff.1 found
      obtain ⟨r, -, rfl⟩ := List.mem_map.1 (List.mem_of_find?_eq_some first)
      rw [run, MethodOf.call, dif_pos kind] at failed
      cases failed
  · intro verdict ms' same
    exact call_of_refusal ((refusal?_congr same c name).trans verdict)

theorem refuses_categoryNotFound_iff :
    ms.Refuses c name (.categoryNotFound c.category) ↔ ∀ r ∈ ms, r.category ≠ c.category := by
  rw [refuses_iff, refusal?]
  split
  · next has =>
    obtain ⟨r, mem, own⟩ := hasCategory_iff.1 has
    refine iff_of_false (fun verdict => ?_) (fun none => none r mem own)
    split at verdict
    · split at verdict <;> cases verdict
    · cases verdict
  · next has => exact iff_of_true rfl fun r mem own => has (hasCategory_iff.2 ⟨r, mem, own⟩)

theorem refuses_methodNotFound_iff :
    ms.Refuses c name (.methodNotFound c.category name) ↔
      (∃ r ∈ ms, r.category = c.category) ∧ ∀ r ∈ ms, r.category = c.category → r.name ≠ name := by
  rw [refuses_iff, refusal?, ← hasCategory_iff]
  split
  · next has =>
    rw [and_iff_right has]
    cases found : ms.find? c.category name with
    | none =>
      refine iff_of_true rfl fun r mem own called => ?_
      have hasMethod := hasMethod_iff.2 ⟨r, mem, own, called⟩
      rw [MethodsOf.hasMethod, found] at hasMethod
      cases hasMethod
    | some m =>
      have hasMethod : ms.hasMethod c.category name = true := by
        rw [MethodsOf.hasMethod, found]; rfl
      obtain ⟨r, mem, own, called⟩ := hasMethod_iff.1 hasMethod
      refine iff_of_false (fun verdict => ?_) (fun none => none r mem own called)
      dsimp only [Option.map_some] at verdict
      split at verdict <;> cases verdict
  · next has =>
    refine iff_of_false (fun verdict => ?_) (fun both => has both.1)
    cases verdict

theorem hasMethod_iff_not_refuses (c : ControlOf State) (name : String) :
    ms.hasMethod c.category name = true ↔
      ¬ms.Refuses c name (.categoryNotFound c.category) ∧
        ¬ms.Refuses c name (.methodNotFound c.category name) := by
  rw [hasMethod_iff, refuses_categoryNotFound_iff, refuses_methodNotFound_iff]
  grind

/-! ## Calls that are not refused -/

theorem refuses_of_otherKind {m : MethodOf State} (found : ms.find? c.category name = some m)
    (other : c.kind ≠ m.kind) : ms.Refuses c name (.executionFailed (.otherKind c.category)) := by
  have hasMethod : ms.hasMethod c.category name = true := by rw [MethodsOf.hasMethod, found]; rfl
  obtain ⟨r, mem, own, -⟩ := hasMethod_iff.1 hasMethod
  rw [refuses_iff, refusal?, if_pos (hasCategory_iff.2 ⟨r, mem, own⟩), found]
  exact if_neg other

theorem call_of_find? {m : MethodOf State} (found : ms.find? c.category name = some m)
    (same : c.kind = m.kind) (now : Nat) (args : Object) :
    ms.call now c name args = (m.run now args (same ▸ c.state)).map fun result =>
      (result.1, ⟨m.kind, c.category, result.2⟩) := by
  have hasMethod : ms.hasMethod c.category name = true := by rw [MethodsOf.hasMethod, found]; rfl
  obtain ⟨r, mem, own, -⟩ := hasMethod_iff.1 hasMethod
  rw [call, if_pos (hasCategory_iff.2 ⟨r, mem, own⟩), found]
  exact dif_pos same

end Calls

/-! ## The names of methods -/

theorem nodup_eraseDups (names : List String) : names.eraseDups.Nodup := by
  induction h : names.length using Nat.strongRecOn generalizing names with
  | ind length ih =>
    cases names with
    | nil => exact List.nodup_nil
    | cons first rest =>
      rw [List.eraseDups_cons, List.nodup_cons]
      refine ⟨by simp [List.mem_eraseDups], ih _ ?_ _ rfl⟩
      rw [← h, List.length_cons, Nat.lt_succ_iff]
      exact List.length_filter_le _ rest

theorem mem_names {m : String} : m ∈ ms.names category ↔ ms.hasMethod category m = true := by
  rw [names, List.mem_mergeSort, List.mem_eraseDups, hasMethod_iff, List.mem_map]
  simp only [List.mem_filter, decide_eq_true_eq, and_assoc]

/-- The names are in increasing order, each once. -/
theorem names_increasing (ms : MethodsOf State) (category : String) :
    (ms.names category).Pairwise (· < ·) := by
  rw [names]
  generalize ((ms.filter fun r => r.category = category).map RegistrationOf.name) = all
  have ordered : (all.eraseDups.mergeSort fun a b => a ≤ b).Pairwise fun a b =>
      decide (a ≤ b) = true :=
    List.pairwise_mergeSort (by simpa using fun _ _ _ => String.le_trans)
      (by simpa using String.le_total) _
  have distinct : (all.eraseDups.mergeSort fun a b => a ≤ b).Nodup :=
    (List.mergeSort_perm _ _).nodup_iff.2 (nodup_eraseDups all)
  exact (ordered.and distinct).imp fun h => Std.lt_of_le_of_ne (of_decide_eq_true h.1) h.2

end MethodsOf

/-! ## Steps that call a method -/

namespace ObjectStore

theorem get?_modify (change : StoredObject → StoredObject) (store : ObjectStore)
    {id other : ObjectId}
    (distinct : other ≠ id) : (store.modify change id).get? other = store.get? other := by
  have length (store : ObjectStore) (id : ObjectId) :
      (store.modify change id).length = store.length := by
    induction store with
    | nil => rfl
    | cons o older ih =>
      rw [modify]
      split
      · rfl
      · rw [List.length_cons, ih, List.length_cons]
  induction store with
  | nil => rfl
  | cons o older ih =>
    rw [modify]
    split
    · next own => rw [get?, get?, if_neg (own ▸ distinct), if_neg (own ▸ distinct)]
    · rw [get?, get?, length, ih]

/-- A call changes no object but the one of the name. -/
theorem get?_call {store store' : ObjectStore} {ms : Methods} {now : Nat} {name method : String}
    {args : Object} {v : Value} (h : store.call ms now name method args = .ok (v, store'))
    {id : ObjectId} (other : store.find? name ≠ some id) : store'.get? id = store.get? id := by
  rw [call] at h
  cases found : store.find? name with
  | none =>
    rw [found] at h
    cases h
  | some own =>
    rw [found] at h
    dsimp only at h
    cases object : store.get? own with
    | none =>
      rw [object] at h
      cases h
    | some o =>
      rw [object] at h
      dsimp only at h
      cases called : ms.call now o.control method args with
      | error e =>
        rw [called] at h
        cases h
      | ok result =>
        rw [called] at h
        cases h
        exact get?_modify _ store fun same => other (same ▸ found)

end ObjectStore

variable {w : World} {id : ObjectId}

theorem Deed.get?_call {host : Host} {object method : String} {args : Object} {v : World}
    {result : Except ActionError (Option Launch)}
    (h : ((Deed.call object method args).run host).run World.pass w = (result, v))
    (other : w.objects.find? object ≠ some id) : v.objects.get? id = w.objects.get? id := by
  rw [Task.run_of_settle, settle_run_call] at h
  cases answer : w.objects.call host.methods w.clock object method args with
  | error e =>
    rw [answer] at h
    cases h
    rfl
  | ok changed =>
    rw [answer] at h
    cases h
    exact ObjectStore.get?_call answer other

namespace Processor

variable {inv : Invocation} {object method : ExprOr .text} {args : Value} {condition : Condition}

/-- A step that calls a method changes no object but the one that it names. -/
theorem get?_controlObject
    (other : ∀ name, object.evaluate (inv.bindings w) = some name →
      w.objects.find? name ≠ some id) :
    (((ofBuiltIn .controlObject).run inv
      (.simple (.controlObject object method args) condition)).run.run
      World.pass w).2.objects.get? id = w.objects.get? id := by
  have settled := Deed.settle_carryOut inv w (.simple (.controlObject object method args) condition)
  rcases h : ((ofBuiltIn .controlObject).run inv
    (.simple (.controlObject object method args) condition)).run.run World.pass w with ⟨result, v⟩
  replace h : (carryOut inv (.simple (.controlObject object method args) condition)).run.run
    World.pass w =
    (result, v) := h
  rw [Task.run_of_settle, settled] at h
  simp only [Deed.of?, Deed.ofOperation, Attempt.proceed_bind, Attempt.proceed_pure,
    Deed.required] at h
  cases named : object.evaluate (inv.bindings w) with
  | none =>
    rw [named] at h
    cases h
    rfl
  | some name =>
    cases called : method.evaluate (inv.bindings w) with
    | none =>
      rw [named, called] at h
      cases h
      rfl
    | some method =>
      cases given : Deed.arguments (Deed.document inv w args) with
      | error e =>
        rw [named, called, given] at h
        cases h
        rfl
      | ok args =>
        rw [named, called, given] at h
        exact Deed.get?_call ((Task.run_of_settle ..).trans h) (other name named)

end Processor

/-! ## Calls after any registrations -/

namespace MethodsOf

open RegistrationOf

/-- What calls come to under a table, by all that was registered, the earliest first. -/
structure Dispatches [DecidableEq κ] (ms : MethodsOf State) (known : List (RegistrationOf State)) :
    Prop where
  /-- A call is refused for want of the category if nothing was registered for it. -/
  unknownCategory (c : ControlOf State) (name : String) :
    ms.Refuses c name (.categoryNotFound c.category) ↔ ∀ r ∈ known, r.category ≠ c.category
  /-- It is refused for want of the method if something else was registered
  for the category only. -/
  unknownMethod (c : ControlOf State) (name : String) :
    ms.Refuses c name (.methodNotFound c.category name) ↔
      (∃ r ∈ known, r.category = c.category) ∧ ∀ r ∈ known, r.category = c.category → r.name ≠ name
  /-- Otherwise there is a last registration. -/
  registered (c : ControlOf State) (name : String) :
    ¬ms.Refuses c name (.categoryNotFound c.category) →
      ¬ms.Refuses c name (.methodNotFound c.category name) → ∃ r, InForce r known c.category name
  /-- Its method is run once, on what the object holds. -/
  runs {c : ControlOf State} {name : String} {r : RegistrationOf State} :
    InForce r known c.category name → ∀ same : c.kind = r.method.kind, ∀ now args,
      ms.call now c name args = (r.method.run now args (same ▸ c.state)).map fun result =>
        (result.1, ⟨r.method.kind, c.category, result.2⟩)
  /-- If it was declared for another kind of object, the call is refused. -/
  otherKind {c : ControlOf State} {name : String} {r : RegistrationOf State} :
    InForce r known c.category name → c.kind ≠ r.method.kind →
      ms.Refuses c name (.executionFailed (.otherKind c.category))
  /-- A method is there if no call of it is refused for want of it or of its category. -/
  hasMethod (c : ControlOf State) (name : String) :
    ms.hasMethod c.category name = true ↔
      ¬ms.Refuses c name (.categoryNotFound c.category) ∧
        ¬ms.Refuses c name (.methodNotFound c.category name)
  /-- The names of a category are those of the methods that are there. -/
  listed (category name : String) : name ∈ ms.names category ↔ ms.hasMethod category name = true
  /-- They are in increasing order, each once. -/
  increasing (category : String) : (ms.names category).Pairwise (· < ·)

theorem dispatches_table [DecidableEq κ] (history : List (Enrolment State)) :
    (Enrolment.table history).Dispatches (Enrolment.known history) where
  unknownCategory c name := by simp only [refuses_categoryNotFound_iff, Enrolment.mem_table]
  unknownMethod c name := by simp only [refuses_methodNotFound_iff, Enrolment.mem_table]
  registered c name hasCategory hasName := by
    have found := (hasMethod_iff_not_refuses c name).2 ⟨hasCategory, hasName⟩
    obtain ⟨m, found⟩ := Option.isSome_iff_exists.1 found
    obtain ⟨r, inForce, -⟩ := find?_table.1 found
    exact ⟨r, inForce⟩
  runs inForce same now args := call_of_find? (find?_table.2 ⟨_, inForce, rfl⟩) same now args
  otherKind inForce other := refuses_of_otherKind (find?_table.2 ⟨_, inForce, rfl⟩) other
  hasMethod := hasMethod_iff_not_refuses
  listed _ _ := mem_names
  increasing := names_increasing _

/-- After any registrations, what a call comes to follows from them and from the kind of the object:
it is refused, or the method that was registered last is run once. A step that makes a call leaves
all objects alone but the one that it names. -/
theorem calls_follow_registrations :
    (∀ {κ : Type} [DecidableEq κ] {State : κ → Type} (history : List (Enrolment State)),
      (Enrolment.table history).Dispatches (Enrolment.known history)) ∧
    ∀ (inv : Invocation) (object method : ExprOr .text) (args : Value)
      (condition : Condition) (w : World),
      let step : Action := .simple (.controlObject object method args) condition
      let v : World := (((Processor.ofBuiltIn .controlObject).run inv step).run.run World.pass w).2
      ∀ id, (∀ name, object.evaluate (inv.bindings w) = some name →
        w.objects.find? name ≠ some id) →
        v.objects.get? id = w.objects.get? id :=
  ⟨dispatches_table, fun _ _ _ _ _ _ _ other => Processor.get?_controlObject other⟩

/-- Texts of a category with a method that was registered again, and one for timers. A step clears
the first of two texts. -/
theorem calls_follow_registrations_editor :
    let history : List (Enrolment ControlKind.State) := [.several "editor" Methods.text,
      .one "editor" "append" ⟨.text, fun _ _ _ => .ok (.null, "again")⟩,
      .one "editor" "start" ⟨.timer, fun _ _ t => .ok (.null, t)⟩]
    let ms : Methods := Enrolment.table history
    let draft : Control := ⟨.text, "editor", "draft"⟩
    let lamp : Control := ⟨.foreign, "lamp", ()⟩
    let inv : Invocation :=
      ⟨⟨fun _ _ => ⟨0, .ok .null⟩, ms, 0⟩, Scope.root "flow", none, "id-1", "id-2"⟩
    let w : World :=
      ⟨0, [], [⟨some "second", draft⟩, ⟨some "first", draft⟩], .ofCapacity 1, [], [], [], 2⟩
    let step : Action := .simple (.controlObject (.literal "first") (.literal "append") .null) none
    let v : World := (((Processor.ofBuiltIn .controlObject).run inv step).run.run World.pass w).2
    ms.Refuses lamp "start" (.categoryNotFound "lamp") ∧
      ms.Refuses draft "stop" (.methodNotFound "editor" "stop") ∧
      ms.Refuses draft "start" (.executionFailed (.otherKind "editor")) ∧
      (∀ now args, ms.call now draft "append" args = .ok (.null, ⟨.text, "editor", "again"⟩)) ∧
      (ms.names "editor").Pairwise (· < ·) ∧ "start" ∈ ms.names "editor" ∧
        "stop" ∉ ms.names "editor" ∧
      v.objects.get? 0 = some ⟨some "first", .text, "editor", "again"⟩ ∧
      v.objects.get? 1 = w.objects.get? 1 := by
  intro history ms draft lamp inv w step v
  have dispatches : ms.Dispatches (Enrolment.known history) := calls_follow_registrations.1 history
  refine ⟨(dispatches.unknownCategory lamp "start").2 (by decide +kernel),
    (dispatches.unknownMethod draft "stop").2 ⟨⟨_, List.mem_cons_self, rfl⟩, by decide +kernel⟩,
    dispatches.otherKind (r := ⟨"editor", "start", .timer, fun _ _ t => .ok (.null, t)⟩)
      ⟨⟨rfl, rfl⟩, Enrolment.known (history.take 2), [], rfl, nofun⟩ (by decide),
    fun now args =>
      dispatches.runs (r := ⟨"editor", "append", .text, fun _ _ _ => .ok (.null, "again")⟩)
      ⟨⟨rfl, rfl⟩, Enrolment.known (history.take 1), [_], rfl, by simp⟩ rfl now args,
    dispatches.increasing "editor",
    (dispatches.listed "editor" "start").2 (by decide +kernel),
    fun listed => absurd ((dispatches.listed "editor" "stop").1 listed)
      (by decide +kernel), rfl, ?_⟩
  refine calls_follow_registrations.2 inv (.literal "first") (.literal "append") .null none w 1 ?_
  rintro name named
  cases named
  decide +kernel

end MethodsOf

end StepFlow
