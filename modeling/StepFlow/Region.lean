import StepFlow.Value

/-!
# State regions

A region is a named store of values, possibly inside another region. Regions are numbered in
the order in which they are made, and a region is made inside one that is already there, so
going outward always ends.

A variable is looked up from a region outward: a region answers with its value of that name, or with
all its values if it has the name itself. Each notification of a region raises its revision by one,
and whoever watches the region sees a change when the revision is not the one seen last.
-/

namespace StepFlow

abbrev RegionId : Type := Nat

structure Region where
  /-- Steps target a region by its name. -/
  name : String
  /-- The region around it. -/
  parent : Option RegionId
  values : Object
  /-- How often dependents were told to recompute. -/
  revision : Nat
deriving DecidableEq

/-- All regions, the newest first. -/
abbrev Regions : Type := List Region

/-- The name of the region for the application. -/
def appStateName : String := "appState"

namespace Region

def make (name : String) (parent : Option RegionId) (values : Object) : Region :=
  ⟨name, parent, values, 0⟩

/-- Tells dependents to recompute. -/
def flush (r : Region) : Region := { r with revision := r.revision + 1 }

/-- Writes several values, a later one over an earlier one, with at most one notification. -/
def setAll (r : Region) (updates : List (String × Value)) (notify : Bool) : Region :=
  let written := { r with values := Object.insertAll r.values updates }
  if notify then written.flush else written

def set (r : Region) (key : String) (value : Value) (notify : Bool) : Region :=
  r.setAll [(key, value)] notify

/-- What a region by itself says about a variable: its value of that name, or else all its values,
if that is the region's own name. -/
def answer (r : Region) (key : String) : Option Value :=
  match Object.get? r.values key with
  | some v => some v
  | none => if r.name = key then some (.object r.values) else none

end Region

namespace Regions

/-- Makes a region. -/
def add (rs : Regions) (r : Region) : RegionId × Regions := (rs.length, r :: rs)

def get? : Regions → RegionId → Option Region
  | [], _ => none
  | r :: older, id => if id = older.length then some r else get? older id

def modify (change : Region → Region) : Regions → RegionId → Regions
  | [], _ => []
  | r :: older, id =>
    if id = older.length then change r :: older else r :: modify change older id

/-- The region of a number and those around it, the innermost first. -/
def chain : Regions → RegionId → List (RegionId × Region)
  | [], _ => []
  | r :: older, id =>
    if id = older.length then
      (id, r) :: (match r.parent with
        | some parent => chain older parent
        | none => [])
    else chain older id

/-- The nearest region of a name, from one region outward. -/
def find? (rs : Regions) (id : RegionId) (name : String) : Option RegionId :=
  ((rs.chain id).find? fun entry => entry.2.name = name).map Prod.fst

/-- What a variable stands for, from one region outward. -/
def lookup (rs : Regions) (id : RegionId) (key : String) : Option Value :=
  (rs.chain id).findSome? fun entry => entry.2.answer key

def revision (rs : Regions) (id : RegionId) : Nat :=
  match rs.get? id with
  | some r => r.revision
  | none => 0

end Regions

/-- Someone who watches a region. -/
structure Watcher where
  region : RegionId
  /-- The revision that was seen last. -/
  seen : Nat

namespace Watcher

/-- Begins to watch a region. What it was notified of before does not count. -/
def subscribe (rs : Regions) (id : RegionId) : Watcher := ⟨id, rs.revision id⟩

/-- Whether the region was notified since the watcher last looked. -/
def hasChanged (watcher : Watcher) (rs : Regions) : Bool :=
  watcher.seen ≠ rs.revision watcher.region

/-- Looks at the region, so that all notifications so far are seen. -/
def look (watcher : Watcher) (rs : Regions) : Watcher :=
  { watcher with seen := rs.revision watcher.region }

end Watcher

end StepFlow
