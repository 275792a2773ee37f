import StepFlow.Proofs.Object
import StepFlow.Proofs.Run.Deed

/-!
# State regions under change

A step finds the region that it targets by the names of regions and by which region is around
which. This is the outline of the regions. Whatever a step does to a region is a change of its
values and its revision, which leaves the outline as it is; so a name that resolves to a region
resolves to it for the whole run.
-/

namespace StepFlow

namespace Region

/-! ## Writing and notifying -/

variable (r : Region) (updates : List (String × Value)) (notify : Bool)

@[simp] theorem name_flush : r.flush.name = r.name := rfl

@[simp] theorem parent_flush : r.flush.parent = r.parent := rfl

@[simp] theorem values_flush : r.flush.values = r.values := rfl

@[simp] theorem revision_flush : r.flush.revision = r.revision + 1 := rfl

@[simp] theorem name_setAll : (r.setAll updates notify).name = r.name := by
  cases notify <;> rfl

@[simp] theorem parent_setAll : (r.setAll updates notify).parent = r.parent := by
  cases notify <;> rfl

@[simp] theorem values_setAll :
    (r.setAll updates notify).values = Object.insertAll r.values updates := by
  cases notify <;> rfl

@[simp] theorem revision_setAll :
    (r.setAll updates notify).revision = r.revision + if notify then 1 else 0 := by
  cases notify <;> rfl

/-- A change that leaves a region where it is, under its name. -/
structure KeepsPlace (change : Region → Region) : Prop where
  name : ∀ r, (change r).name = r.name
  parent : ∀ r, (change r).parent = r.parent

theorem keepsPlace_flush : KeepsPlace flush := ⟨name_flush, parent_flush⟩

theorem keepsPlace_setAll : KeepsPlace fun r => r.setAll updates notify :=
  ⟨fun r => r.name_setAll updates notify, fun r => r.parent_setAll updates notify⟩

end Region

namespace Regions

variable {rs rs' : Regions} {change : Region → Region}

/-! ## One region -/

@[simp] theorem length_modify (change : Region → Region) (rs : Regions) (id : RegionId) :
    (rs.modify change id).length = rs.length := by
  induction rs with
  | nil => rfl
  | cons r older ih =>
    rw [modify]
    split
    · rfl
    · exact congrArg Nat.succ ih

theorem get?_modify (change : Region → Region) (rs : Regions) (id other : RegionId) :
    (rs.modify change id).get? other =
      if other = id then (rs.get? other).map change else rs.get? other := by
  induction rs with
  | nil => exact (ite_self none).symm
  | cons r older ih =>
    rw [modify, get?]
    by_cases newest : id = older.length
    · rw [if_pos newest, get?]
      by_cases asked : other = older.length
      · rw [if_pos asked, if_pos (asked.trans newest.symm), if_pos asked]
        rfl
      · rw [if_neg asked, if_neg fun h => asked (h.trans newest), if_neg asked]
    · rw [if_neg newest, get?, length_modify, ih]
      by_cases asked : other = older.length
      · rw [if_pos asked, if_neg fun h => newest (h.symm.trans asked)]
        exact (if_pos asked).symm
      · simp only [if_neg asked]

theorem exists_get? {id : RegionId} (there : id < rs.length) : ∃ r, rs.get? id = some r := by
  induction rs with
  | nil => exact absurd there (Nat.not_lt_zero id)
  | cons r older ih =>
    rw [get?]
    by_cases newest : id = older.length
    · exact ⟨r, if_pos newest⟩
    · rw [if_neg newest]
      exact ih (Nat.lt_of_le_of_ne (Nat.lt_succ_iff.1 there) newest)

theorem revision_modify {raise : Nat} (raises : ∀ r, (change r).revision = r.revision + raise)
    {other : RegionId} (there : other < rs.length) (id : RegionId) :
    (rs.modify change id).revision other = rs.revision other + if other = id then raise else 0 := by
  obtain ⟨r, found⟩ := exists_get? there
  rw [revision, revision, get?_modify, found]
  by_cases asked : other = id
  · rw [if_pos asked, if_pos asked]
    exact raises r
  · rw [if_neg asked, if_neg asked]
    rfl

/-! ## The outline of regions -/

def outline (rs : Regions) : List (String × Option RegionId) := rs.map fun r => (r.name, r.parent)

theorem outline_modify (keeps : Region.KeepsPlace change) (rs : Regions) (id : RegionId) :
    (rs.modify change id).outline = rs.outline := by
  induction rs with
  | nil => rfl
  | cons r older ih =>
    rw [modify]
    split
    · exact congrArg (· :: outline older) (Prod.ext (keeps.name r) (keeps.parent r))
    · exact congrArg ((r.name, r.parent) :: ·) ih

theorem length_eq_of_outline (same : rs.outline = rs'.outline) : rs.length = rs'.length := by
  have lengths := congrArg List.length same
  rwa [Regions.outline, Regions.outline, List.length_map, List.length_map] at lengths

/-- The numbers and names of the regions around a region depend on the outline alone. -/
theorem names_chain (same : rs.outline = rs'.outline) (id : RegionId) :
    (rs.chain id).map (fun entry => (entry.1, entry.2.name)) =
      (rs'.chain id).map fun entry => (entry.1, entry.2.name) := by
  induction rs generalizing rs' id with
  | nil =>
    cases rs' with
    | nil => rfl
    | cons r' older' => cases same
  | cons r older ih =>
    cases rs' with
    | nil => cases same
    | cons r' older' =>
      obtain ⟨here, rest⟩ := List.cons.inj same
      obtain ⟨name, parent⟩ := Prod.mk.inj here
      rw [chain, chain, length_eq_of_outline rest, parent]
      split
      · rw [List.map_cons, List.map_cons, name]
        cases r'.parent with
        | none => rfl
        | some outer => exact congrArg _ (ih rest outer)
      · exact ih rest id

/-- So does the region that a name is resolved to. -/
theorem find?_congr (same : rs.outline = rs'.outline) (id : RegionId) (name : String) :
    rs.find? id name = rs'.find? id name := by
  have by_names (rs : Regions) : rs.find? id name =
      (((rs.chain id).map fun entry => (entry.1, entry.2.name)).find? fun entry =>
        entry.2 = name).map Prod.fst := by
    rw [List.find?_map, Option.map_map]
    rfl
  rw [by_names, by_names, names_chain same]

/-! ## Targets -/

/-- The region that a step means by a name, or without one: the region of its flow, or the nearest
one of the name, or else the application's if it is called like that. -/
def target? (rs : Regions) (region : Option RegionId) (appState : RegionId) :
    Option String → Option RegionId
  | none => region
  | some name =>
    (region.bind fun id =>
      rs.find? id name).or (if name = appStateName then some appState else none)

theorem target?_congr (same : rs.outline = rs'.outline) :
    rs.target? = rs'.target? := by
  funext region appState name
  cases name with
  | none => rfl
  | some name => simp only [target?, find?_congr same]

end Regions

/-- A built-in step finds the region that its name is resolved to. -/
theorem Deed.target_eq_ok {inv : Invocation} {w : World} {name : Option String} {id : RegionId} :
    Deed.target inv w name = .ok id ↔
    w.regions.target? inv.region inv.host.appState name = some id := by
  cases name with
  | none => cases region : inv.region <;> simp [Deed.target, Regions.target?, region]
  | some name =>
    rw [Deed.target, Regions.target?]
    cases inv.region.bind fun id => w.regions.find? id name with
    | some found => simp
    | none => by_cases app : name = appStateName <;> simp [app]

end StepFlow
