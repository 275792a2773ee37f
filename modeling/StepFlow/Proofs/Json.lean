import StepFlow.Json.Reader
import StepFlow.Proofs.Outcome

/-!
# Documents that are read are canonical

However the entries of an object are written, the object that is read has its keys in order, at
every depth of a document. So what holds of canonical documents holds of every document in a file.
-/

namespace StepFlow

namespace Value

variable {o : Object} {v : Value}

theorem CanonicalEntries.insert (ho : CanonicalEntries o) (key : String) (hv : v.Canonical) :
    CanonicalEntries (Object.insert key v o) := by
  induction o with
  | nil => exact ⟨hv, trivial⟩
  | cons entry rest ih =>
    obtain ⟨k, w⟩ := entry
    rw [Object.insert]
    split
    · exact ⟨hv, ho.2⟩
    · split
      · exact ⟨hv, ho⟩
      · exact ⟨ho.1, ih ho.2⟩

theorem CanonicalEntries.insertAll {entries : List (String × Value)} (ho : CanonicalEntries o)
    (h : CanonicalEntries entries) : CanonicalEntries (Object.insertAll o entries) := by
  induction entries generalizing o with
  | nil => exact ho
  | cons entry rest ih => exact ih (ho.insert entry.1 h.1) h.2

theorem canonical_ofList {entries : List (String × Value)} (h : CanonicalEntries entries) :
    Canonical (.object (Object.ofList entries)) :=
  ⟨Object.sorted_ofList entries, CanonicalEntries.insertAll (o := []) trivial h⟩

end Value

namespace Json

/-- Whatever a reader gives has a property. -/
def Gives {α : Type} (P : α → Prop) (reader : Reader ReadError Char α) : Prop :=
  ∀ cs a r, reader cs = .ok (a, r) → P a

variable {item : Reader ReadError Char Value}

theorem length_lt_of_cons {cs rest : List Char} {c : Char} (r : Rest cs) (h : r.val = c :: rest) :
    rest.length < cs.length := by
  have := r.property
  rw [h] at this
  exact Nat.lt_of_succ_lt this

theorem gives_items (h : Gives Value.Canonical item) : Gives Value.CanonicalItems (items item) := by
  intro cs
  induction hn : cs.length using Nat.strongRecOn generalizing cs with
  | _ n ih =>
    subst hn
    intro vs r hread
    rw [items] at hread
    obtain ⟨⟨v, r₁⟩, hv, hread⟩ := bind_eq_ok.1 hread
    dsimp only at hread
    split at hread
    · next rest hrest =>
      obtain ⟨⟨others, r₂⟩, hothers, hread⟩ := bind_eq_ok.1 hread
      cases hread
      have hshorter := length_lt_of_cons _ hrest
      exact ⟨h _ _ _ hv, ih _ hshorter rest rfl _ _ hothers⟩
    · cases hread
      exact ⟨h _ _ _ hv, trivial⟩
    · cases hread

theorem gives_entry (h : Gives Value.Canonical item) :
    Gives (fun e => e.2.Canonical) (entry item) := by
  intro cs e r hread
  rw [entry] at hread
  obtain ⟨⟨key, r₁⟩, -, hread⟩ := bind_eq_ok.1 hread
  dsimp only at hread
  split at hread
  · obtain ⟨⟨v, r₂⟩, hv, hread⟩ := bind_eq_ok.1 hread
    cases hread
    exact h _ _ _ hv
  · cases hread

theorem gives_entries (h : Gives Value.Canonical item) :
    Gives Value.CanonicalEntries (entries item) := by
  intro cs
  induction hn : cs.length using Nat.strongRecOn generalizing cs with
  | _ n ih =>
    subst hn
    intro es r hread
    rw [entries] at hread
    obtain ⟨⟨e, r₁⟩, he, hread⟩ := bind_eq_ok.1 hread
    dsimp only at hread
    split at hread
    · next rest hrest =>
      obtain ⟨⟨others, r₂⟩, hothers, hread⟩ := bind_eq_ok.1 hread
      cases hread
      have hshorter := length_lt_of_cons _ hrest
      exact ⟨gives_entry h _ _ _ he, ih _ hshorter rest rfl _ _ hothers⟩
    · cases hread
      exact ⟨gives_entry h _ _ _ he, trivial⟩
    · cases hread

theorem gives_list (h : Gives Value.Canonical item) : Gives Value.Canonical (list item) := by
  intro cs v r hread
  rw [list] at hread
  dsimp only at hread
  split at hread
  · cases hread
    trivial
  · obtain ⟨⟨vs, r₁⟩, hvs, hread⟩ := bind_eq_ok.1 hread
    cases hread
    exact gives_items h _ _ _ hvs

theorem gives_object (h : Gives Value.Canonical item) : Gives Value.Canonical (object item) := by
  intro cs v r hread
  rw [object] at hread
  dsimp only at hread
  split at hread
  · cases hread
    exact ⟨List.Pairwise.nil, trivial⟩
  · obtain ⟨⟨es, r₁⟩, hes, hread⟩ := bind_eq_ok.1 hread
    cases hread
    exact Value.canonical_ofList (gives_entries h _ _ _ hes)

theorem gives_word {w : List Char} {v : Value} (h : v.Canonical) :
    Gives Value.Canonical (word w v) := by
  intro cs v' r hread
  unfold word at hread
  split at hread
  · cases hread
  · split at hread
    · cases hread
      exact h
    · cases hread

theorem gives_scalar : Gives Value.Canonical scalar := by
  intro cs v r hread
  unfold scalar at hread
  split at hread
  · exact gives_word (v := .null) trivial _ _ _ hread
  · exact gives_word (v := .bool true) trivial _ _ _ hread
  · exact gives_word (v := .bool false) trivial _ _ _ hread
  · obtain ⟨⟨s, r₁⟩, -, hread⟩ := bind_eq_ok.1 hread
    cases hread
    trivial
  · obtain ⟨⟨n, r₁⟩, -, hread⟩ := bind_eq_ok.1 hread
    cases hread
    trivial

theorem gives_value (room : Nat) : Gives Value.Canonical (value room) := by
  induction room using Nat.strongRecOn with
  | ind room ih =>
    intro cs v r hread
    rw [value.eq_def] at hread
    dsimp only at hread
    split at hread
    · cases hread
    · split at hread
      · cases room with
        | zero => cases hread
        | succ room =>
          have hitem := ih room (Nat.lt_succ_self room)
          dsimp only at hread
          split at hread
          · obtain ⟨⟨v', r₁⟩, hv, hread⟩ := bind_eq_ok.1 hread
            cases hread
            exact gives_list hitem _ _ _ hv
          · obtain ⟨⟨v', r₁⟩, hv, hread⟩ := bind_eq_ok.1 hread
            cases hread
            exact gives_object hitem _ _ _ hv
      · obtain ⟨⟨v', r₁⟩, hv, hread⟩ := bind_eq_ok.1 hread
        cases hread
        exact gives_scalar _ _ _ hv

/-- A document that is read has the keys of all its objects in order. -/
theorem canonical_of_read {s : String} {v : Value} (h : read s = .ok v) : v.Canonical := by
  obtain ⟨⟨v', r⟩, hv, h⟩ := bind_eq_ok.1 h
  dsimp only at h
  split at h
  · cases h
    exact gives_value nestingLimit _ _ _ hv
  · cases h

end Json

end StepFlow
