import StepFlow.Number

/-!
# Document values

The values of a document: null, truth values, numbers, texts, lists and objects. An object is the
list of its entries in strictly increasing order of keys; every operation here keeps that order, and
`Value.Canonical` states it for a value with everything inside it. Equality as the language sees it
(`Value.same`) differs from identity only in that floats are compared as numbers.
-/

namespace StepFlow

inductive Value where
  | null
  | bool (b : Bool)
  | number (n : Number)
  | string (s : String)
  | array (items : List Value)
  | object (entries : List (String × Value))

/-- The entries of an object, in increasing order of keys. -/
abbrev Object := List (String × Value)

namespace Object

def get? : Object → String → Option Value
  | [], _ => none
  | (k, v) :: rest, key => if k = key then some v else get? rest key

/-- Puts a value under a key, over any value that was there. -/
def insert (key : String) (value : Value) : Object → Object
  | [] => [(key, value)]
  | (k, v) :: rest =>
    if key = k then (key, value) :: rest
    else if key < k then (key, value) :: (k, v) :: rest
    else (k, v) :: insert key value rest

/-- Puts several values, a later one over an earlier one. -/
def insertAll (o : Object) (entries : List (String × Value)) : Object :=
  entries.foldl (fun o entry => insert entry.1 entry.2 o) o

/-- The object with the given entries, the last one of each key. -/
def ofList (entries : List (String × Value)) : Object :=
  insertAll [] entries

def erase (o : Object) (key : String) : Object :=
  o.filter fun entry => entry.1 ≠ key

def contains (o : Object) (key : String) : Bool :=
  (get? o key).isSome

def Sorted (o : Object) : Prop :=
  o.Pairwise fun a b => a.1 < b.1

@[simp] theorem get?_insert_self (key : String) (value : Value) (o : Object) :
    get? (insert key value o) key = some value := by
  induction o with
  | nil => simp [insert, get?]
  | cons entry rest ih =>
    obtain ⟨k, w⟩ := entry
    by_cases hk : key = k
    · simp [insert, get?, hk]
    · by_cases hlt : key < k
      · simp [insert, get?, hk, hlt]
      · simp [insert, get?, hk, hlt, Ne.symm hk, ih]

theorem get?_insert_of_ne {key other : String} (value : Value) (o : Object) (h : other ≠ key) :
    get? (insert key value o) other = get? o other := by
  induction o with
  | nil => simp [insert, get?, Ne.symm h]
  | cons entry rest ih =>
    obtain ⟨k, w⟩ := entry
    by_cases hk : key = k
    · subst hk
      simp [insert, get?, Ne.symm h]
    · by_cases hlt : key < k
      · simp [insert, get?, hk, hlt, Ne.symm h]
      · simp [insert, get?, hk, hlt, ih]

theorem fst_of_mem_insert {key : String} {value : Value} {o : Object} {entry : String × Value}
    (h : entry ∈ insert key value o) : entry.1 = key ∨ entry ∈ o := by
  induction o with
  | nil =>
    obtain rfl : entry = (key, value) := by simpa [insert] using h
    exact .inl rfl
  | cons first rest ih =>
    obtain ⟨k, w⟩ := first
    by_cases hk : key = k
    · simp only [insert, hk, if_true, List.mem_cons] at h
      rcases h with rfl | h
      · exact .inl hk.symm
      · exact .inr (List.mem_cons_of_mem _ h)
    · by_cases hlt : key < k
      · simp only [insert, hk, hlt, if_true, if_false, List.mem_cons] at h
        rcases h with rfl | h
        · exact .inl rfl
        · exact .inr (List.mem_cons.2 h)
      · simp only [insert, hk, hlt, if_false, List.mem_cons] at h
        rcases h with rfl | h
        · exact .inr (List.mem_cons_self ..)
        · exact (ih h).imp_right (List.mem_cons_of_mem _)

/-- Putting a value keeps the order of keys. -/
theorem Sorted.insert {o : Object} (h : Sorted o) (key : String) (value : Value) :
    Sorted (Object.insert key value o) := by
  induction o with
  | nil => exact List.pairwise_singleton _ _
  | cons first rest ih =>
    obtain ⟨k, w⟩ := first
    obtain ⟨hfirst, hrest⟩ := List.pairwise_cons.1 h
    by_cases hk : key = k
    · subst hk
      rw [Object.insert, if_pos rfl]
      exact List.pairwise_cons.2 ⟨hfirst, hrest⟩
    · by_cases hlt : key < k
      · simp only [Object.insert, hk, hlt, if_true, if_false]
        refine List.pairwise_cons.2 ⟨fun entry he => ?_, h⟩
        rcases List.mem_cons.1 he with rfl | he
        · exact hlt
        · exact String.lt_trans hlt (hfirst entry he)
      · simp only [Object.insert, hk, hlt, if_false]
        refine List.pairwise_cons.2 ⟨fun entry he => ?_, ih hrest⟩
        rcases fst_of_mem_insert he with he | he
        · rw [he]
          exact Std.lt_of_le_of_ne (Std.not_lt.1 hlt) (Ne.symm hk)
        · exact hfirst entry he

theorem Sorted.insertAll {o : Object} (h : Sorted o) (entries : List (String × Value)) :
    Sorted (Object.insertAll o entries) := by
  induction entries generalizing o with
  | nil => exact h
  | cons entry rest ih => exact ih (h.insert entry.1 entry.2)

/-- However entries are written, the object made of them has its keys in order. -/
theorem sorted_ofList (entries : List (String × Value)) : Sorted (ofList entries) :=
  Sorted.insertAll List.Pairwise.nil entries

theorem Sorted.erase {o : Object} (h : Sorted o) (key : String) : Sorted (Object.erase o key) :=
  h.filter _

end Object

namespace Value

mutual

/-- Every object in a value has its keys in strictly increasing order. -/
def Canonical : Value → Prop
  | .array items => CanonicalItems items
  | .object entries => Object.Sorted entries ∧ CanonicalEntries entries
  | _ => True

def CanonicalItems : List Value → Prop
  | [] => True
  | v :: rest => v.Canonical ∧ CanonicalItems rest

def CanonicalEntries : List (String × Value) → Prop
  | [] => True
  | (_, v) :: rest => v.Canonical ∧ CanonicalEntries rest

end

mutual

def decEq : (a b : Value) → Decidable (a = b)
  | .null, .null => isTrue rfl
  | .bool a, .bool b =>
    if h : a = b then isTrue (by rw [h]) else isFalse (by simp [h])
  | .number a, .number b =>
    if h : a = b then isTrue (by rw [h]) else isFalse (by simp [h])
  | .string a, .string b =>
    if h : a = b then isTrue (by rw [h]) else isFalse (by simp [h])
  | .array a, .array b =>
    match decEqItems a b with
    | isTrue h => isTrue (by rw [h])
    | isFalse h => isFalse (by simp [h])
  | .object a, .object b =>
    match decEqEntries a b with
    | isTrue h => isTrue (by rw [h])
    | isFalse h => isFalse (by simp [h])
  | .null, .bool _ | .null, .number _ | .null, .string _ | .null, .array _ | .null, .object _
  | .bool _, .null | .bool _, .number _ | .bool _, .string _ | .bool _, .array _
  | .bool _, .object _ | .number _, .null | .number _, .bool _ | .number _, .string _
  | .number _, .array _ | .number _, .object _ | .string _, .null | .string _, .bool _
  | .string _, .number _ | .string _, .array _ | .string _, .object _ | .array _, .null
  | .array _, .bool _ | .array _, .number _ | .array _, .string _ | .array _, .object _
  | .object _, .null | .object _, .bool _ | .object _, .number _ | .object _, .string _
  | .object _, .array _ => isFalse (by simp)

def decEqItems : (a b : List Value) → Decidable (a = b)
  | [], [] => isTrue rfl
  | [], _ :: _ => isFalse (by simp)
  | _ :: _, [] => isFalse (by simp)
  | x :: xs, y :: ys =>
    match decEq x y, decEqItems xs ys with
    | isTrue h, isTrue hs => isTrue (by rw [h, hs])
    | isFalse h, _ => isFalse (by simp [h])
    | _, isFalse hs => isFalse (by simp [hs])

def decEqEntries : (a b : List (String × Value)) → Decidable (a = b)
  | [], [] => isTrue rfl
  | [], _ :: _ => isFalse (by simp)
  | _ :: _, [] => isFalse (by simp)
  | (j, x) :: xs, (k, y) :: ys =>
    if hk : j = k then
      match decEq x y, decEqEntries xs ys with
      | isTrue h, isTrue hs => isTrue (by rw [hk, h, hs])
      | isFalse h, _ => isFalse (by simp [h])
      | _, isFalse hs => isFalse (by simp [hs])
    else isFalse (by simp [hk])

end

instance : DecidableEq Value := decEq

instance : Inhabited Value := ⟨.null⟩

mutual

/-- Equality of values: same shape, and numbers equal as `Number.same` has it. -/
def same : Value → Value → Bool
  | .null, .null => true
  | .bool a, .bool b => a = b
  | .number a, .number b => a.same b
  | .string a, .string b => a = b
  | .array a, .array b => sameItems a b
  | .object a, .object b => sameEntries a b
  | _, _ => false

def sameItems : List Value → List Value → Bool
  | [], [] => true
  | x :: xs, y :: ys => same x y && sameItems xs ys
  | _, _ => false

def sameEntries : List (String × Value) → List (String × Value) → Bool
  | [], [] => true
  | (j, x) :: xs, (k, y) :: ys => j = k && same x y && sameEntries xs ys
  | _, _ => false

end

/-- The value of a float; one that is not finite becomes null. -/
def ofFloat (f : Float) : Value :=
  match Number.ofFloat? f with
  | some n => .number n
  | none => .null

/-- The value of an integer; one beyond 64 bits becomes a float. -/
def ofInt (n : Int) : Value :=
  match Number.ofInt? n with
  | some m => .number m
  | none => ofFloat (Number.floatOfInt n)

def ofNat (n : Nat) : Value :=
  ofInt n

def string? : Value → Option String
  | .string s => some s
  | _ => none

def object? : Value → Option Object
  | .object o => some o
  | _ => none

def field? (v : Value) (key : String) : Option Value :=
  v.object?.bind fun o => Object.get? o key

def ofEntries (entries : List (String × Value)) : Value :=
  .object (Object.ofList entries)

end Value

end StepFlow
