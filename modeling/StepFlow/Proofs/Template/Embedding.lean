import StepFlow.Nested
import StepFlow.Proofs.Json
import StepFlow.Proofs.Object
import StepFlow.Proofs.Template.Escape

/-!
# Data in documents

A document is evaluated at every text and key that it has. To carry data through unchanged, the
delimiters in every text and key are escaped. Then nothing in the document is an expression, and
evaluating it gives the data back under any bindings. The escaped keys stand in another order than
the keys; an object is made of them all the same, since no two texts have the same escaped form.
-/

namespace StepFlow

namespace Object

variable {o : Object} {f : String → String} {g : Value → Value} {key key' : String}

theorem mem_of_mem_insert {value : Value} {entry : String × Value}
    (h : entry ∈ insert key value o) : entry = (key, value) ∨ entry ∈ o := by
  induction o with
  | nil => simpa [insert] using h
  | cons first rest ih =>
    obtain ⟨k, w⟩ := first
    rw [insert] at h
    split at h
    · exact (List.mem_cons.1 h).imp_right (List.mem_cons_of_mem _)
    · split at h
      · exact List.mem_cons.1 h
      · rcases List.mem_cons.1 h with rfl | h
        · exact .inr List.mem_cons_self
        · exact (ih h).imp_right (List.mem_cons_of_mem _)

theorem mem_of_mem_insertAll {entries : List (String × Value)} {entry : String × Value}
    (h : entry ∈ insertAll o entries) : entry ∈ entries ∨ entry ∈ o := by
  induction entries generalizing o with
  | nil => exact .inr h
  | cons first rest ih =>
    rcases ih h with h | h
    · exact .inl (List.mem_cons_of_mem _ h)
    · exact (mem_of_mem_insert h).imp_left fun he => List.mem_cons.2 (.inl he)

theorem mem_of_mem_ofList {entries : List (String × Value)} {entry : String × Value}
    (h : entry ∈ ofList entries) : entry ∈ entries :=
  (mem_of_mem_insertAll h).resolve_right List.not_mem_nil

/-- An object whose keys and values are rewritten has the new value under a key if one key
only becomes that key. -/
theorem Sorted.get?_ofList_map (h : Sorted o) (hf : ∀ entry ∈ o, f entry.1 = key ↔ entry.1 = key') :
    get? (ofList (o.map (Prod.map f g))) key = (get? o key').map g := by
  induction o with
  | nil => rfl
  | cons entry rest ih =>
    obtain ⟨k, v⟩ := entry
    have first : f k = key ↔ k = key' := hf (k, v) List.mem_cons_self
    have others := ih h.tail fun entry he => hf entry (List.mem_cons_of_mem _ he)
    rw [List.map_cons, Prod.map_apply, get?_ofList_cons, others, get?_cons]
    by_cases hk : k = key'
    · rw [if_pos hk, if_pos (first.2 hk).symm, ← hk, h.get?_tail]
      rfl
    · rw [if_neg hk, if_neg fun heq => hk (first.1 heq.symm), Option.or_none]

end Object

namespace Nested

variable {look : Bindings} {v : Value} {items : List Value} {entries : List (String × Value)}

mutual

/-- A value with the delimiters in all its texts and keys escaped. -/
def escape : Value → Value
  | .string s => .string (Template.escape s)
  | .array items => .array (escapeItems items)
  | .object entries => .object (Object.ofList (escapeEntries entries))
  | .null => .null
  | .bool b => .bool b
  | .number n => .number n

def escapeItems : List Value → List Value
  | [] => []
  | v :: rest => escape v :: escapeItems rest

/-- The entries of an object, escaped, in the order of the keys as they were. -/
def escapeEntries : List (String × Value) → List (String × Value)
  | [] => []
  | (k, v) :: rest => (Template.escape k, escape v) :: escapeEntries rest

end

mutual

/-- No text or key in a document is an expression. -/
def Inert : Value → Prop
  | .string s => Template.source? s = none
  | .array items => InertItems items
  | .object entries => InertEntries entries
  | _ => True

def InertItems : List Value → Prop
  | [] => True
  | v :: rest => Inert v ∧ InertItems rest

def InertEntries : List (String × Value) → Prop
  | [] => True
  | (k, v) :: rest => (Template.source? k = none ∧ Inert v) ∧ InertEntries rest

end

theorem escapeEntries_eq_map (entries : List (String × Value)) :
    escapeEntries entries = entries.map (Prod.map Template.escape escape) := by
  induction entries with
  | nil => rfl
  | cons entry rest ih =>
    obtain ⟨k, v⟩ := entry
    rw [escapeEntries, ih]
    rfl

theorem evaluateEntries_eq_insertAll (o : Object) (entries : List (String × Value)) :
    evaluateEntries look o entries =
      Object.insertAll o (entries.map (Prod.map (evaluateKey look) (evaluate look))) := by
  induction entries generalizing o with
  | nil => rfl
  | cons entry rest ih =>
    obtain ⟨k, v⟩ := entry
    rw [evaluateEntries, ih]
    rfl

theorem inertEntries_iff :
    InertEntries entries ↔ ∀ entry ∈ entries, Template.source? entry.1 = none ∧ Inert entry.2 := by
  induction entries with
  | nil => simp [InertEntries]
  | cons entry rest ih =>
    obtain ⟨k, v⟩ := entry
    rw [InertEntries, ih, List.forall_mem_cons]

theorem escape_injective : Function.Injective Template.escape := by
  intro s t h
  rw [← Template.unescape_escape s, h, Template.unescape_escape]

theorem evaluateKey_escape (look : Bindings) (s : String) :
    evaluateKey look (Template.escape s) = s := by
  simp [evaluateKey, evaluateText, Value.text]

/-! ## Escaped values -/

mutual

/-- An escaped value holds no expression. -/
theorem inert_escape : (v : Value) → Inert (escape v)
  | .string s => Template.source?_escape s
  | .array items => inertItems_escapeItems items
  | .object entries => by
    refine inertEntries_iff.2 fun entry he => ?_
    exact inertEntries_iff.1 (inertEntries_escapeEntries entries) entry
      (Object.mem_of_mem_ofList he)
  | .null | .bool _ | .number _ => trivial

theorem inertItems_escapeItems : (items : List Value) → InertItems (escapeItems items)
  | [] => trivial
  | v :: rest => ⟨inert_escape v, inertItems_escapeItems rest⟩

theorem inertEntries_escapeEntries :
    (entries : List (String × Value)) → InertEntries (escapeEntries entries)
  | [] => trivial
  | (k, v) :: rest =>
    ⟨⟨Template.source?_escape k, inert_escape v⟩, inertEntries_escapeEntries rest⟩

end

mutual

theorem canonical_escape : (v : Value) → (escape v).Canonical
  | .array items => canonicalItems_escapeItems items
  | .object entries => Value.canonical_ofList (canonicalEntries_escapeEntries entries)
  | .null | .bool _ | .number _ | .string _ => trivial

theorem canonicalItems_escapeItems :
    (items : List Value) → Value.CanonicalItems (escapeItems items)
  | [] => trivial
  | v :: rest => ⟨canonical_escape v, canonicalItems_escapeItems rest⟩

theorem canonicalEntries_escapeEntries :
    (entries : List (String × Value)) → Value.CanonicalEntries (escapeEntries entries)
  | [] => trivial
  | (_, v) :: rest => ⟨canonical_escape v, canonicalEntries_escapeEntries rest⟩

end

/-- An object is evaluated to itself from its escaped entries, if its values are. -/
theorem evaluateEntries_escapeEntries (sorted : Object.Sorted entries)
    (values : ∀ entry ∈ entries, evaluate look (escape entry.2) = entry.2) :
    evaluateEntries look [] (Object.ofList (escapeEntries entries)) = entries := by
  rw [evaluateEntries_eq_insertAll]
  refine (Object.sorted_ofList _).ext sorted fun key => ?_
  have keys : ∀ entry ∈ Object.ofList (escapeEntries entries),
      evaluateKey look entry.1 = key ↔ entry.1 = Template.escape key := by
    intro entry he
    have escaped := Object.mem_of_mem_ofList he
    rw [escapeEntries_eq_map] at escaped
    obtain ⟨⟨k, v⟩, -, rfl⟩ := List.mem_map.1 escaped
    rw [Prod.map_apply, evaluateKey_escape, escape_injective.eq_iff]
  have escapedKeys : ∀ entry ∈ entries,
      Template.escape entry.1 = Template.escape key ↔ entry.1 = key :=
    fun entry _ => escape_injective.eq_iff
  refine ((Object.sorted_ofList _).get?_ofList_map keys).trans ?_
  rw [escapeEntries_eq_map, sorted.get?_ofList_map escapedKeys]
  cases hv : Object.get? entries key with
  | none => rfl
  | some v => exact congrArg some (values (key, v) (Object.mem_of_get? hv))

mutual

/-- An escaped value is evaluated to the value, whatever the bindings are. -/
theorem evaluate_escape (look : Bindings) : (v : Value) → v.Canonical → evaluate look (escape v) = v
  | .string s, _ => by
    rw [escape, evaluate, evaluateText, Template.source?_escape, Template.unescape_escape]
  | .array items, h => congrArg Value.array (evaluateItems_escapeItems look items h)
  | .object entries, h =>
    congrArg Value.object
      (evaluateEntries_escapeEntries h.1 (evaluate_escape_entries look entries h.2))
  | .null, _ | .bool _, _ | .number _, _ => rfl

theorem evaluateItems_escapeItems (look : Bindings) :
    (items : List Value) → Value.CanonicalItems items →
      evaluateItems look (escapeItems items) = items
  | [], _ => rfl
  | v :: rest, h => by
    rw [escapeItems, evaluateItems, evaluate_escape look v h.1,
      evaluateItems_escapeItems look rest h.2]

theorem evaluate_escape_entries (look : Bindings) :
    (entries : List (String × Value)) → Value.CanonicalEntries entries →
      ∀ entry ∈ entries, evaluate look (escape entry.2) = entry.2
  | [], _, _, he => absurd he List.not_mem_nil
  | (_, v) :: rest, h, entry, he => by
    rcases List.mem_cons.1 he with rfl | he
    · exact evaluate_escape look v h.1
    · exact evaluate_escape_entries look rest h.2 entry he

end

/-- Data with its delimiters escaped holds no expression, and it is evaluated to the data. -/
theorem escaped_data_evaluates_back (v : Value) (canonical : v.Canonical) :
    (∀ look, evaluate look (escape v) = v) ∧ Inert (escape v) ∧ (escape v).Canonical :=
  ⟨fun look => evaluate_escape look v canonical, inert_escape v, canonical_escape v⟩

/-- Delimiters that are escaped already are escaped once more, and one that is never closed as well.
The second key comes first when it is escaped. -/
theorem escaped_data_evaluates_back_keys :
    let v : Value := .object
      [("a@z", .string "@\x7bn\x7d"),
        ("a@\x7b", .array [.string "@@\x7bn\x7d@@@", .string "@\x7b"])]
    v.Canonical ∧
      escape v = .object
        [("a@@\x7b", .array [.string "@@@\x7bn\x7d@@@", .string "@@\x7b"]),
          ("a@z", .string "@@\x7bn\x7d")] ∧
      ∀ look, evaluate look (escape v) = v := by
  intro v
  have canonical : v.Canonical := by
    refine ⟨?_, trivial, ⟨trivial, trivial, trivial⟩, trivial⟩
    simp only [Object.Sorted, List.pairwise_cons]
    decide +kernel
  refine ⟨canonical, by decide +kernel, ?_⟩
  exact (escaped_data_evaluates_back v canonical).1

end Nested

end StepFlow
