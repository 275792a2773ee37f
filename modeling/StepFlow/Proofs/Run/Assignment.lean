import StepFlow.Executor
import StepFlow.Proofs.Regions

/-!
# Steps that set values assign at once

A step that sets values of a region evaluates all of them before it writes any. So whatever its
expressions read, be it the region that is written to, by the names in it or by its own, or a region
around it, they read what was there before the step. `Assigned` says what such a step leaves. In
what order it lists values of different names makes no difference, nor does it matter by which of
the two types of steps the region of the application is reached.
-/

namespace StepFlow

/-- The value that a list of updates has for a name in a world: that of the last update of the
name. -/
def lastUpdate? (inv : Invocation) (w : World) (us : List StateUpdate) (name : String) :
    Option Value :=
  (us.reverse.find? fun u => u.stateName = name).map fun u =>
    Nested.evaluate (inv.scope.lookup w) u.newValue

/-- What a step comes to that assigns to a region in a world. -/
structure Assigned (inv : Invocation) (w : World) (id : RegionId) (us : List StateUpdate)
    (rebuild : Bool) (outcome : Except ActionError (Option Launch) × World) : Prop where
  succeeds : outcome.1 = .ok none
  /-- The region has the new values where there are such, and its old ones otherwise. -/
  target : ∀ r, w.regions.get? id = some r → ∃ values,
    outcome.2.regions.get? id =
      some { r with values, revision := r.revision + if rebuild then 1 else 0 } ∧
    ∀ name, Object.get? values name = (lastUpdate? inv w us name).or (Object.get? r.values name)
  others : ∀ other, other ≠ id → outcome.2.regions.get? other = w.regions.get? other
  /-- All but the regions is as it was. -/
  rest : outcome.2 = { w with regions := outcome.2.regions }

theorem Deed.get?_updates (inv : Invocation) (w : World) (us : List StateUpdate) (name : String) :
    Object.get? (Object.ofList (updates inv w us)) name = lastUpdate? inv w us name := by
  rw [Object.get?_ofList, updates, ← List.map_reverse, List.find?_map, Option.map_map]
  rfl

theorem assigned_modifyRegion (inv : Invocation) (w : World) (id : RegionId) (us : List StateUpdate)
    (rebuild : Bool) :
    Assigned inv w id us rebuild
      (.ok none, w.modifyRegion id fun r => r.setAll (Deed.updates inv w us) rebuild) where
  succeeds := rfl
  target r found := by
    refine ⟨Object.insertAll r.values (Deed.updates inv w us), ?_, fun name => ?_⟩
    · refine (Regions.get?_modify _ w.regions id id).trans ?_
      rw [if_pos rfl, found]
      cases rebuild <;> rfl
    · rw [Object.get?_insertAll, Deed.get?_updates]
  others other ne := (Regions.get?_modify _ w.regions id other).trans (if_neg ne)
  rest := rfl

namespace Processor

variable {inv : Invocation} {w : World} {us us' : List StateUpdate} {rebuild : Bool} {c : Condition}
variable {name : Option String}

theorem outcome_setState {id : RegionId}
    (resolved : w.regions.target? inv.region inv.host.appState name = some id) :
    outcome .setState inv (.simple (.setState name us rebuild) c) w =
      (.ok none, w.modifyRegion id fun r => r.setAll (Deed.updates inv w us) rebuild) := by
  refine (outcome_eq rfl (by decide) inv w).trans ?_
  rw [Deed.of?, Deed.ofOperation, Deed.target_eq_ok.2 resolved]
  rfl

theorem outcome_setState_refused {e : ActionError} (refused : Deed.target inv w name = .error e) :
    outcome .setState inv (.simple (.setState name us rebuild) c) w = (.error e, w) := by
  refine (outcome_eq rfl (by decide) inv w).trans ?_
  rw [Deed.of?, Deed.ofOperation, refused]
  rfl

theorem outcome_setAppState :
    outcome .setAppState inv (.simple (.setAppState us rebuild) c) w =
      (.ok none, w.modifyRegion inv.host.appState fun r =>
        r.setAll (Deed.updates inv w us) rebuild) :=
  outcome_eq rfl (by decide) inv w

end Processor

/-- The order of updates of different names makes no difference to a region. -/
theorem Region.setAll_updates_perm {us us' : List StateUpdate} (perm : us.Perm us')
    (distinct : (us.map StateUpdate.stateName).Nodup) (inv : Invocation) (w : World)
    (rebuild : Bool) :
    (fun r : Region => r.setAll (Deed.updates inv w us) rebuild) =
      fun r => r.setAll (Deed.updates inv w us') rebuild := by
  have names : ((Deed.updates inv w us).map Prod.fst).Nodup := by
    rw [Deed.updates, List.map_map]
    exact distinct
  funext r
  have same := Object.insertAll_perm (perm.map _) names r.values
  simp only [setAll, Deed.updates, same]

/-- Where no region around, itself included, has the name of the application's, that name means the
application. -/
theorem Regions.target?_appState {rs : Regions} {region : Option RegionId} (appState : RegionId)
    (nowhere : ∀ id, region = some id → ∀ entry ∈ rs.chain id, entry.2.name ≠ appStateName) :
    rs.target? region appState (some appStateName) = some appState := by
  have unresolved : (region.bind fun id => rs.find? id appStateName) = none := by
    cases region with
    | none => rfl
    | some id =>
      refine Option.map_eq_none_iff.2 (List.find?_eq_none.2 fun entry mem => ?_)
      simpa using nowhere id rfl entry mem
  rw [target?, unresolved, if_pos rfl]
  rfl

/-- A step that sets values of a region that it finds, and one that sets values of the application,
assign all of them at once: what each expression comes to is told by the world before the step.
Listing updates of different names in another order gives the same result, in every respect. And a
step that sets values of the region named like the application's does the same as one that sets
values of the application, if no region around the step has this name. -/
theorem assignment_simultaneous (inv : Invocation) (us : List StateUpdate) (rebuild : Bool)
    (c : Condition) (w : World) :
    let setState := fun name us =>
      Processor.outcome .setState inv (.simple (.setState name us rebuild) c) w
    let setAppState := fun us =>
      Processor.outcome .setAppState inv (.simple (.setAppState us rebuild) c) w
    (∀ name id, w.regions.target? inv.region inv.host.appState name = some id →
      Assigned inv w id us rebuild (setState name us)) ∧
    Assigned inv w inv.host.appState us rebuild (setAppState us) ∧
    (∀ us', us.Perm us' → (us.map StateUpdate.stateName).Nodup →
      (∀ name, setState name us' = setState name us) ∧ setAppState us' = setAppState us) ∧
    ((∀ id, inv.region = some id → ∀ entry ∈ w.regions.chain id, entry.2.name ≠ appStateName) →
      setState (some appStateName) us = setAppState us) := by
  intro setState setAppState
  have app (us : List StateUpdate) : setAppState us = _ := Processor.outcome_setAppState
  refine ⟨fun name id resolved => ?_, ?_, fun us' perm distinct => ⟨fun name => ?_, ?_⟩,
    fun nowhere => ?_⟩
  · have found : setState name us = _ := Processor.outcome_setState resolved
    rw [found]
    exact assigned_modifyRegion inv w id us rebuild
  · rw [app]
    exact assigned_modifyRegion inv w _ us rebuild
  · cases found : Deed.target inv w name with
    | error e =>
      have refused (us : List StateUpdate) : setState name us = _ :=
        Processor.outcome_setState_refused found
      rw [refused, refused]
    | ok id =>
      have found (us : List StateUpdate) : setState name us = _ :=
        Processor.outcome_setState (Deed.target_eq_ok.1 found)
      rw [found, found, Region.setAll_updates_perm perm distinct inv w]
  · rw [app, app, Region.setAll_updates_perm perm distinct inv w]
  · have found : setState (some appStateName) us = _ :=
      Processor.outcome_setState (Regions.target?_appState _ nowhere)
    rw [found, app]

/-- A step that exchanges two values of its region, one of which it reads through the name of the
region, and sets a third one twice; and the same updates for the application. -/
theorem assignment_simultaneous_exchange :
    let host : Host := .silent 0
    let inv : Invocation := ⟨host, Executor.flowScope host none (some 1), some 1, "id-1", "id-2"⟩
    let page : Region := ⟨"page", none, [("a", .ofNat 1), ("b", .ofNat 2)], 0⟩
    let app : Region := Region.make appStateName none [("b", .ofNat 9)]
    let w : World := ⟨0, [page, app], [], .ofCapacity 1, [], [], [], 0⟩
    let a : StateUpdate := ⟨"a", .string "@\x7bb\x7d"⟩
    let b : StateUpdate := ⟨"b", .string "@\x7bpage.a\x7d"⟩
    let us : List StateUpdate := [⟨"c", .null⟩, a, b, ⟨"c", .string "@\x7ba\x7d"⟩]
    let setState := fun name us =>
      Processor.outcome .setState inv (.simple (.setState name us true) none) w
    let setAppState := fun us =>
      Processor.outcome .setAppState inv (.simple (.setAppState us true) none) w
    w.regions.target? inv.region inv.host.appState none = some 1 ∧
    Assigned inv w 1 us true (setState none us) ∧
    (setState none us).2.regions.get? 1 =
      some { page with
        values := [("a", .ofNat 2), ("b", .ofNat 1), ("c", .ofNat 1)], revision := 1 } ∧
    [a, b].Perm [b, a] ∧ ([a, b].map StateUpdate.stateName).Nodup ∧
    setState (some "page") [b, a] = setState (some "page") [a, b] ∧
    setState (some appStateName) [a, b] = setAppState [a, b] ∧
    (setAppState [a, b]).2.regions.get? 0 =
      some { app with values := [("a", .ofNat 2), ("b", .ofNat 1)], revision := 1 } := by
  intro host inv page app w a b us setState setAppState
  obtain ⟨assigned, -, -, -⟩ := assignment_simultaneous inv us true none w
  obtain ⟨-, -, permuted, agree⟩ := assignment_simultaneous inv [a, b] true none w
  have perm : [a, b].Perm [b, a] := .swap b a []
  have distinct : ([a, b].map StateUpdate.stateName).Nodup := by decide
  have nowhere : ∀ id, inv.region = some id →
      ∀ entry ∈ w.regions.chain id, entry.2.name ≠ appStateName := by
    rintro id ⟨⟩
    decide
  exact ⟨rfl, assigned none 1 rfl, by decide +kernel, perm, distinct,
    (permuted [b, a] perm distinct).1 _, agree nowhere, by decide +kernel⟩

end StepFlow
