import Mathlib.Data.List.Induction
import Mathlib.Data.List.Nodup
import StepFlow.Value

/-!
# Objects as finite maps

What `Object.get?` says about an object determines it, as long as its keys are in order. So an
object that is built from entries is known once the value under every key is, and the order in
which entries of different keys were put in does not matter. `get?_ofList_append` takes such a
list of entries apart.
-/

namespace StepFlow.Object

variable {o : Object} {key : String}

@[simp] theorem get?_nil (key : String) : get? [] key = none := rfl

theorem get?_cons (k : String) (v : Value) (rest : Object) (key : String) :
    get? ((k, v) :: rest) key = if k = key then some v else get? rest key := rfl

theorem get?_insert (key : String) (value : Value) (o : Object) (other : String) :
    get? (insert key value o) other = if other = key then some value else get? o other := by
  by_cases h : other = key
  · rw [if_pos h, h, get?_insert_self]
  · rw [if_neg h, get?_insert_of_ne value o h]

theorem get?_eq_none (h : ∀ entry ∈ o, entry.1 ≠ key) : get? o key = none := by
  induction o with
  | nil => rfl
  | cons entry rest ih =>
    obtain ⟨k, v⟩ := entry
    have hk : k ≠ key := h (k, v) (List.mem_cons_self ..)
    rw [get?_cons, if_neg hk]
    exact ih fun entry he => h entry (List.mem_cons_of_mem _ he)

theorem mem_of_get? {v : Value} (h : get? o key = some v) : (key, v) ∈ o := by
  induction o with
  | nil => cases h
  | cons entry rest ih =>
    obtain ⟨k, w⟩ := entry
    rw [get?_cons] at h
    split at h
    · next hk =>
      cases h
      rw [hk]
      exact List.mem_cons_self ..
    · exact List.mem_cons_of_mem _ (ih h)

/-! ## Objects made of entries -/

/-- A later entry counts over what was there before. -/
theorem get?_insertAll (o : Object) (entries : List (String × Value)) (key : String) :
    get? (insertAll o entries) key = (get? (ofList entries) key).or (get? o key) := by
  induction entries using List.reverseRecOn generalizing o with
  | nil => rfl
  | append_singleton rest entry ih =>
    simp only [insertAll, ofList, List.foldl_append, List.foldl_cons, List.foldl_nil,
      get?_insert] at ih ⊢
    by_cases h : key = entry.1
    · simp [h]
    · simp only [if_neg h]
      exact ih o

@[simp] theorem get?_ofList_nil (key : String) : get? (ofList []) key = none := rfl

@[simp] theorem get?_ofList_append (first later : List (String × Value)) (key : String) :
    get? (ofList (first ++ later)) key =
      (get? (ofList later) key).or (get? (ofList first) key) := by
  rw [← get?_insertAll (ofList first) later key]
  simp only [ofList, insertAll, List.foldl_append]

@[simp] theorem get?_ofList_cons (k : String) (v : Value) (later : List (String × Value))
    (key : String) :
    get? (ofList ((k, v) :: later)) key =
      (get? (ofList later) key).or (if key = k then some v else none) := by
  rw [← List.singleton_append, get?_ofList_append]
  congr 1
  exact get?_insert k v [] key

/-- The last entry of a key counts. -/
theorem get?_ofList (entries : List (String × Value)) (key : String) :
    get? (ofList entries) key =
      (entries.reverse.find? fun entry => entry.1 = key).map Prod.snd := by
  induction entries with
  | nil => rfl
  | cons entry rest ih =>
    obtain ⟨k, v⟩ := entry
    rw [get?_ofList_cons, ih, List.reverse_cons, List.find?_append, Option.map_or]
    congr 1
    by_cases h : key = k
    · simp [h]
    · simp [h, Ne.symm h]

theorem get?_ofList_eq_none {entries : List (String × Value)} :
    get? (ofList entries) key = none ↔ key ∉ entries.map Prod.fst := by
  rw [get?_ofList, Option.map_eq_none_iff, List.find?_eq_none, List.mem_map]
  simp only [List.mem_reverse, decide_eq_true_eq, not_exists, not_and]

/-- Values of different keys can be put in either order. -/
theorem insert_comm {j k : String} (distinct : j ≠ k) (x y : Value) (o : Object) :
    insert j x (insert k y o) = insert k y (insert j x o) := by
  have keys := Std.lt_trichotomy j k
  induction o with
  | nil => grind [insert, Std.lt_irrefl, Std.lt_trans]
  | cons entry rest ih =>
    obtain ⟨first, v⟩ := entry
    -- both keys may belong before, at or behind the first one
    have left := Std.lt_trichotomy j first
    have right := Std.lt_trichotomy k first
    grind [insert, Std.lt_irrefl, Std.lt_trans]

/-- The order of entries does not matter if no two of them have the same key. -/
theorem insertAll_perm {entries entries' : List (String × Value)} (perm : entries.Perm entries')
    (distinct : (entries.map Prod.fst).Nodup) (o : Object) :
    insertAll o entries = insertAll o entries' := by
  apply perm.foldl_eq'
  intro entry mem entry' mem' o
  by_cases same : entry.1 = entry'.1
  · rw [List.inj_on_of_nodup_map distinct mem mem' same]
  · exact insert_comm (Ne.symm same) _ _ o

/-! ## Objects with their keys in order -/

theorem Sorted.get?_tail {k : String} {v : Value} {rest : Object} (h : Sorted ((k, v) :: rest)) :
    get? rest k = none := by
  apply get?_eq_none
  intro entry he heq
  have hlt := (List.pairwise_cons.1 h).1 entry he
  rw [heq] at hlt
  exact Std.lt_irrefl hlt

theorem Sorted.tail {entry : String × Value} {rest : Object} (h : Sorted (entry :: rest)) :
    Sorted rest := (List.pairwise_cons.1 h).2

/-- The first key of an object is below every other key that it has. -/
theorem Sorted.le_of_get? {k : String} {v w : Value} {rest : Object} (h : Sorted ((k, v) :: rest))
    (hw : get? ((k, v) :: rest) key = some w) : k ≤ key := by
  rcases List.mem_cons.1 (mem_of_get? hw) with he | he
  · cases he
    exact Std.le_refl _
  · exact Std.le_of_lt ((List.pairwise_cons.1 h).1 _ he)

/-- Two objects with the same value under every key are the same list of entries. -/
theorem Sorted.ext {a b : Object} (ha : Sorted a) (hb : Sorted b)
    (h : ∀ key, get? a key = get? b key) : a = b := by
  induction a generalizing b with
  | nil =>
    cases b with
    | nil => rfl
    | cons entry rest =>
      obtain ⟨k, v⟩ := entry
      simpa [get?_cons] using h k
  | cons entry rest ih =>
    obtain ⟨k, v⟩ := entry
    cases b with
    | nil => simpa [get?_cons] using h k
    | cons other rest' =>
      obtain ⟨j, w⟩ := other
      have hj : get? ((k, v) :: rest) j = some w := by rw [h j, get?_cons, if_pos rfl]
      have hk : get? ((j, w) :: rest') k = some v := by rw [← h k, get?_cons, if_pos rfl]
      obtain rfl : k = j := Std.le_antisymm (ha.le_of_get? hj) (hb.le_of_get? hk)
      obtain rfl : v = w := by simpa [get?_cons] using hj
      have tails : ∀ key, get? rest key = get? rest' key := by
        intro key
        by_cases hkey : k = key
        · rw [← hkey, ha.get?_tail, hb.get?_tail]
        · simpa [get?_cons, hkey] using h key
      rw [ih ha.tail hb.tail tails]

/-- An object is made of its own entries. -/
theorem Sorted.ofList_eq (h : Sorted o) : ofList o = o := by
  apply (sorted_ofList o).ext h
  intro key
  induction o with
  | nil => rfl
  | cons entry rest ih =>
    obtain ⟨k, v⟩ := entry
    rw [get?_ofList_cons, ih h.tail, get?_cons]
    by_cases hk : k = key
    · rw [if_pos hk, if_pos hk.symm, ← hk, h.get?_tail]
      rfl
    · rw [if_neg hk, if_neg (Ne.symm hk), Option.or_none]

theorem get?_erase (o : Object) (key other : String) :
    get? (erase o key) other = if other = key then none else get? o other := by
  induction o with
  | nil => simp [erase]
  | cons entry rest ih =>
    obtain ⟨k, v⟩ := entry
    simp only [erase] at ih ⊢
    by_cases hk : k = key
    · simp only [hk, ne_eq, not_true_eq_false, decide_false, List.filter_cons, Bool.false_eq_true,
        if_false, ih, get?_cons]
      by_cases ho : other = key
      · rw [if_pos ho, if_pos ho]
      · rw [if_neg ho, if_neg ho, if_neg (Ne.symm ho)]
    · simp only [ne_eq, hk, not_false_eq_true, decide_true, List.filter_cons, if_true,
        get?_cons, ih]
      by_cases ho : k = other
      · rw [if_pos ho, if_neg (ho ▸ hk), if_pos ho]
      · rw [if_neg ho, if_neg ho]

end StepFlow.Object
