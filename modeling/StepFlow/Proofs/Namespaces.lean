import StepFlow.Proofs.Regions

/-!
# Regions by their names

A name is resolved in two ways. A step that writes to it means the nearest region that is called so.
An expression that reads it gets the answer of the nearest region that knows the name at all, be it
as a key or as its own. The two agree as long as no region has the name for a key, from where both
begin to the region that is called so: `Unshadowed`.
-/

namespace StepFlow

namespace Region

/-- A region answers for its keys and for its own name. -/
def Knows (r : Region) (name : String) : Prop := (Object.get? r.values name).isSome ∨ r.name = name

instance (r : Region) (name : String) : Decidable (r.Knows name) :=
  inferInstanceAs (Decidable (_ ∨ _))

theorem answer_eq (r : Region) (name : String) :
    r.answer name =
      if r.Knows name then some ((Object.get? r.values name).getD (.object r.values))
      else none := by
  rw [answer]
  cases value : Object.get? r.values name with
  | some v => simp [Knows, value]
  | none => simp [Knows, value]

end Region

namespace Regions

variable {rs : Regions} {id target : RegionId} {name : String} {entry : RegionId × Region}
variable {change : Region → Region}

/-! ## Looking a name up -/

/-- The nearest region that knows a name answers, with its value of that name, or else
with all its values. -/
theorem lookup_eq (rs : Regions) (id : RegionId) (name : String) :
    rs.lookup id name =
      ((rs.chain id).find? fun entry => entry.2.Knows name).map fun entry =>
        (Object.get? entry.2.values name).getD (.object entry.2.values) := by
  rw [lookup]
  induction rs.chain id with
  | nil => rfl
  | cons entry outer ih =>
    rw [List.findSome?_cons, Region.answer_eq, List.find?_cons, ih]
    by_cases knows : entry.2.Knows name
    · simp [knows]
    · simp [knows]

theorem lookup_eq_none :
    rs.lookup id name = none ↔ ∀ entry ∈ rs.chain id, ¬entry.2.Knows name := by
  rw [lookup_eq, Option.map_eq_none_iff, List.find?_eq_none]
  simp only [decide_eq_true_eq]

/-! ## The regions around one -/

/-- The newest region is in a chain only as its first entry. -/
theorem of_mem_chain_cons {r : Region} {older : Regions} (mem : entry ∈ chain (r :: older) id) :
    entry = (older.length, r) ∨ ∃ further, entry ∈ chain older further := by
  rw [chain] at mem
  split at mem
  · next newest =>
    obtain _ | ⟨_, outer⟩ := mem
    · exact .inl (congrArg (·, r) newest)
    · cases around : r.parent with
      | none =>
        rw [around] at outer
        cases outer
      | some parent =>
        rw [around] at outer
        exact .inr ⟨parent, outer⟩
  · exact .inr ⟨id, mem⟩

theorem lt_of_mem_chain (mem : entry ∈ rs.chain id) : entry.1 < rs.length := by
  induction rs generalizing id with
  | nil => cases mem
  | cons r older ih =>
    obtain rfl | ⟨further, mem⟩ := of_mem_chain_cons mem
    · exact Nat.lt_succ_self older.length
    · exact Nat.lt_succ_of_lt (ih mem)

theorem get?_of_mem_chain (mem : entry ∈ rs.chain id) : rs.get? entry.1 = some entry.2 := by
  induction rs generalizing id with
  | nil => cases mem
  | cons r older ih =>
    obtain rfl | ⟨further, mem⟩ := of_mem_chain_cons mem
    · exact if_pos rfl
    · exact (if_neg (Nat.ne_of_lt (lt_of_mem_chain mem))).trans (ih mem)

/-- A change of one region is a change of its entry. -/
def changed (change : Region → Region) (target : RegionId) (entry : RegionId × Region) :
    RegionId × Region :=
  if entry.1 = target then (entry.1, change entry.2) else entry

theorem map_changed_chain (change : Region → Region) {older : Regions}
    (newer : older.length ≤ target) (id : RegionId) :
    (chain older id).map (changed change target) = chain older id := by
  refine (List.map_congr_left fun entry mem => ?_).trans (List.map_id _)
  exact if_neg (Nat.ne_of_lt (Nat.lt_of_lt_of_le (lt_of_mem_chain mem) newer))

theorem chain_modify (keeps : Region.KeepsPlace change) (rs : Regions) (target id : RegionId) :
    (rs.modify change target).chain id = (rs.chain id).map (changed change target) := by
  induction rs generalizing id with
  | nil => rfl
  | cons r older ih =>
    rw [modify]
    by_cases newest : target = older.length
    · have same := map_changed_chain change (Nat.le_of_eq newest.symm)
      rw [if_pos newest, chain, chain, keeps.parent]
      by_cases asked : id = older.length
      · rw [if_pos asked, if_pos asked, List.map_cons, changed, if_pos (asked.trans newest.symm)]
        cases r.parent with
        | none => rfl
        | some parent => exact congrArg _ (same parent).symm
      · rw [if_neg asked, if_neg asked, same]
    · rw [if_neg newest, chain, chain, length_modify]
      by_cases asked : id = older.length
      · rw [if_pos asked, if_pos asked, List.map_cons, changed, if_neg fun h =>
          newest (h.symm.trans asked)]
        cases r.parent with
        | none => rfl
        | some parent => exact congrArg _ (ih parent)
      · rw [if_neg asked, if_neg asked, ih]

/-! ## Keys that hide a region -/

/-- No region of a chain has a name for a key, as far as the first that is called so. -/
def FreeIn (name : String) : List (RegionId × Region) → Prop
  | [] => True
  | entry :: outer => Object.get? entry.2.values name = none ∧
    (entry.2.name = name ∨ FreeIn name outer)

/-- No region has a name for a key, from one region outward and up to the
nearest that is called so. -/
def Unshadowed (rs : Regions) (id : RegionId) (name : String) : Prop := FreeIn name (rs.chain id)

variable {entries : List (RegionId × Region)}

theorem findSome?_of_freeIn (first : entries.find? (fun entry => entry.2.name = name) = some entry)
    (free : FreeIn name entries) :
    entries.findSome? (fun entry => entry.2.answer name) = some (.object entry.2.values) := by
  induction entries with
  | nil => cases first
  | cons nearest outer ih =>
    obtain ⟨noKey, rest⟩ := free
    rw [List.find?_cons] at first
    rw [List.findSome?_cons, Region.answer, noKey]
    by_cases named : nearest.2.name = name
    · simp only [named, decide_true] at first
      cases first
      simp only [if_pos named]
    · simp only [named, decide_false] at first
      simp only [if_neg named]
      exact ih first (rest.resolve_left named)

/-- An unshadowed name is read as all the values of the region that a step means by it. -/
theorem lookup_of_unshadowed (found : rs.find? id name = some target)
    (free : rs.Unshadowed id name) :
    ∃ r, rs.get? target = some r ∧ rs.lookup id name = some (.object r.values) := by
  obtain ⟨entry, first, rfl⟩ := Option.map_eq_some_iff.1 found
  exact ⟨entry.2, get?_of_mem_chain (List.mem_of_find?_eq_some first),
    findSome?_of_freeIn first free⟩

theorem freeIn_changed {updates : List (String × Value)} {notify : Bool}
    (there : ∀ entry ∈ entries, rs.get? entry.1 = some entry.2)
    (first : entries.find? (fun entry => entry.2.name = name) = some entry) :
    FreeIn name (entries.map (changed (fun r => r.setAll updates notify) entry.1)) ↔
      FreeIn name entries ∧ name ∉ updates.map Prod.fst := by
  have entryThere := there entry (List.mem_of_find?_eq_some first)
  have entryNamed : entry.2.name = name := by simpa using List.find?_some first
  induction entries with
  | nil => cases first
  | cons nearest outer ih =>
    rw [List.find?_cons] at first
    rw [List.map_cons, changed]
    by_cases named : nearest.2.name = name
    · simp only [named, decide_true] at first
      cases first
      simp only [if_pos, FreeIn, Region.name_setAll, Region.values_setAll, Object.get?_insertAll,
        Option.or_eq_none_iff, Object.get?_ofList_eq_none, named, true_or, and_true]
      exact and_comm
    · simp only [named, decide_false] at first
      have other : nearest.1 ≠ entry.1 := by
        intro same
        have nearestThere := there nearest List.mem_cons_self
        rw [same, entryThere] at nearestThere
        exact named (Option.some.inj nearestThere ▸ entryNamed)
      have rest := ih (fun e mem => there e (List.mem_cons_of_mem _ mem)) first
      simp only [if_neg other, FreeIn, named, false_or, rest, and_assoc]

/-- Writing to the region that a name means hides the region exactly if a value is written
under its own name. -/
theorem unshadowed_setAll (found : rs.find? id name = some target) (updates : List (String × Value))
    (notify : Bool) :
    (rs.modify (fun r => r.setAll updates notify) target).Unshadowed id name ↔
      rs.Unshadowed id name ∧ name ∉ updates.map Prod.fst := by
  obtain ⟨entry, first, rfl⟩ := Option.map_eq_some_iff.1 found
  rw [Unshadowed, chain_modify (Region.keepsPlace_setAll updates notify)]
  exact freeIn_changed (fun _ => get?_of_mem_chain) first

end Regions

end StepFlow
