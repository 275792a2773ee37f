import StepFlow.Proofs.Expression.Paths
import StepFlow.Proofs.Namespaces
import StepFlow.Proofs.Run.Assignment
import StepFlow.Proofs.Run.Visibility
import StepFlow.Proofs.Template.Interpolation

/-!
# Reading what was written under a name

A step sets values of a region by the name of the region, and an expression behind it asks for one
of these values: `name['key']`. In between stand the variables of launches and of the caller, which
are asked first, and the keys of regions, which are asked together with their names. If none of them
has the name, then the value that was written is read. A step that sets values waits for nothing, so
no time limit gets between the two.
-/

namespace StepFlow

open Lexer (Lexes)

/-! ## A value by a name and a key -/

/-- The source that asks for what a name stands for, and in that for a key. -/
def indexed (n : Identifier) (key : String) : String :=
  String.ofList (n.chars ++ '[' :: (Template.quoteLiteral key.toList ++ [']']))

theorem parse_indexed (n : Identifier) (key : String) :
    Parser.parse (indexed n key) = .ok (.index (.var n.text) (.literal (.string key))) := by
  have closing : Lexes [']'] [.symbol .rightBracket] := .lexeme rfl rfl .nil
  have quoted := Template.lexes_quoteLiteral key.toList closing
  rw [String.ofList_toList] at quoted
  have opened : Lexes ('[' :: (Template.quoteLiteral key.toList ++ [']']))
      [.symbol .leftBracket, .text key, .symbol .rightBracket] := .lexeme rfl rfl quoted
  have lexed := Path.lexes_name n (by rintro _ ⟨⟩; rfl) opened
  have atom : Grammar.Postfix 1 [(.ident n.text, 1)] (.var n.text) := .atom (.var 1 n.text)
  have inside : Grammar.Conditional 1 [(.text key, 2)] (.literal (.string key)) :=
    (Grammar.Postfix.atom (.literal rfl)).conditional
  refine Parser.parse_eq_ok_iff.2 ⟨_, ?_, (atom.index inside).conditional, ?_, ?_⟩
  · rw [Lexer.tokenize_eq_ok, indexed, String.toList_ofList]
    exact lexed
  · simp [Grammar.Within, maxDepth]
  · simp [Expr.depth_eq_height, Expr.height, maxDepth]

theorem tryEvaluate_indexed {look : Bindings} {n : Identifier} {values : Object}
    (bound : look n.text = some (.object values)) (key : String) :
    tryEvaluate look (indexed n key) = .ok ((Object.get? values key).getD .null) := by
  rw [tryEvaluate, parse_indexed]
  show Expr.eval look _ = _
  simp only [Expr.eval, bound]
  rfl

namespace Executor

variable {ex : Executor} {setting : Setting} {l : Level} {index : Nat} {a : Action} {p : Processor}
variable {inv : Invocation} {nested : Slot → Scope World → Task World Unit} {w u : World}

/-! ## Steps that wait for nothing -/

/-- What waits for nothing is done within any time limit. -/
theorem run_within_of_ended {t : Task World (Except ActionError Unit)}
    {result : Except ActionError Unit} (h : t.settle w = .ended result u) (limit : Option Nat) :
    (within limit t).run World.pass w = (result, u) := by
  cases limit with
  | none => rw [within, Task.run_of_settle, h]
  | some ms => rw [within, Task.run_mapResult, Task.run_of_settle, Task.settle_limit, h]; rfl

/-- A step whose processor waits for nothing and launches nothing leaves the regions as
the processor does. -/
theorem regions_worldAt_succ (hands : ex.Hands setting l index a p)
    (ended : (p.run (invocation setting l.scope (ex.worldAt setting l index)) a).run.settle
      (started setting index a (ex.worldAt setting l index)) = .ended (.ok none) u) :
    (ex.worldAt setting l (index + 1)).regions = u.regions := by
  obtain ⟨nested, same⟩ := runStep_eq_step ex setting l.scope index a
  have attempted :
      (attempt (invocation setting l.scope (ex.worldAt setting l index)) p a nested).settle
      (started setting index a (ex.worldAt setting l index)) = .ended (.ok ()) u :=
    Task.settle_bind_of_ended ended
  have enabled : ¬a.isDisabled (l.scope.lookup (ex.worldAt setting l index).freshId.2) = true := by
    rw [hands.enabled]
    exact Bool.false_ne_true
  have done := run_within_of_ended attempted (ex.limitFor p)
  rw [invocation, started, nameOf] at done
  rw [worldAt_succ hands.step, same, run_step hands.resolved, if_neg enabled, run_dispatch, done]
  rfl

/-! ## Steps that set values by a name -/

variable {name : String} {us : List StateUpdate} {rebuild : Bool} {c : Condition}
    {id target : RegionId}

/-- A step that sets values of a region waits for nothing. -/
theorem settle_setState
    (resolved : w.regions.target? inv.region inv.host.appState (some name) = some target) :
    ((Processor.ofBuiltIn .setState).run inv
      (.simple (.setState (some name) us rebuild) c)).run.settle w =
      .ended (.ok none)
        (w.modifyRegion target fun r => r.setAll (Deed.updates inv w us) rebuild) := by
  refine (Deed.settle_carryOut inv w (.simple (.setState (some name) us rebuild) c)).trans ?_
  rw [Deed.of?, Deed.ofOperation, Deed.target_eq_ok.2 resolved]
  rfl

theorem regions_worldAt_setState (region : setting.region = some id)
    (hands : ex.Hands setting l index (.simple (.setState (some name) us rebuild) c)
      (.ofBuiltIn .setState))
    (found : (ex.worldAt setting l index).regions.find? id name = some target) :
    let a : Action := .simple (.setState (some name) us rebuild) c
    let w := ex.worldAt setting l index
    (ex.worldAt setting l (index + 1)).regions =
      w.regions.modify
        (fun r =>
          r.setAll (Deed.updates (invocation setting l.scope w) (started setting index a w) us)
          rebuild) target := by
  intro a w
  have resolved : (started setting index a w).regions.target? setting.region setting.host.appState
      (some name) = some target := by
    rw [Regions.target?, region]
    show (w.regions.find? id name).or _ = _
    rw [found]
    rfl
  exact regions_worldAt_succ hands (settle_setState resolved)

/-- The region that was found answers with the values that were written. -/
theorem exists_lookup_of_setState (region : setting.region = some id)
    (hands : ex.Hands setting l index (.simple (.setState (some name) us rebuild) c)
      (.ofBuiltIn .setState))
    (found : (ex.worldAt setting l index).regions.find? id name = some target)
    (free : (ex.worldAt setting l (index + 1)).regions.Unshadowed id name) :
    let a : Action := .simple (.setState (some name) us rebuild) c
    let w := ex.worldAt setting l index
    ∃ values, (ex.worldAt setting l (index + 1)).regions.lookup id name = some (.object values) ∧
      ∀ key v, lastUpdate? (invocation setting l.scope w) (started setting index a w)
        us key = some v →
        Object.get? values key = some v := by
  intro a w
  have written : (ex.worldAt setting l (index + 1)).regions = _ :=
    regions_worldAt_setState region hands found
  have outline := Regions.outline_modify (Region.keepsPlace_setAll
    (Deed.updates (invocation setting l.scope w) (started setting index a w) us) rebuild)
      w.regions target
  rw [← written] at outline
  rw [← Regions.find?_congr outline] at found
  obtain ⟨r, there, answer⟩ := Regions.lookup_of_unshadowed found free
  refine ⟨r.values, answer, fun key v last => ?_⟩
  rw [written, Regions.get?_modify, if_pos rfl] at there
  obtain ⟨old, -, rfl⟩ := Option.map_eq_some_iff.1 there
  rw [Region.values_setAll, Object.get?_insertAll, Deed.get?_updates, last]
  rfl

/-- Reading a name and writing to it agree. What a name stands for among regions is told by the
nearest one that knows it: its value of that name, or else all its values; and it stands for nothing
if no region knows it.

A step sets values of the nearest region that is called by a name. If no region has the name for a
key, from the region of the execution up to that one, then the name with any key that was written is
the value that was written, in every flow that reads it while the regions are as the step left them,
unless a launch around that flow or the caller binds the name. The step itself hides a region only
by writing a value under its name. -/
theorem names_read_as_written (ex : Executor) (host : Host) (flow : Flow)
    (caller : Option (Scope World)) (id : RegionId) (w : World) :
    let setting : Setting := ⟨host, some id, w.freshId.1⟩
    let outer : Level := topLevel host flow caller (some id) w
    (∀ (rs : Regions) (id : RegionId) (name : String),
      rs.lookup id name =
        ((rs.chain id).find? fun entry => entry.2.Knows name).map fun entry =>
          (Object.get? entry.2.values name).getD (.object entry.2.values)) ∧
    (∀ (rs : Regions) (id : RegionId) (name : String),
      rs.lookup id name = none ↔ ∀ entry ∈ rs.chain id, ¬entry.2.Knows name) ∧
    ∀ (l : Level) (index : Nat) (n : Identifier) (us : List StateUpdate) (rebuild : Bool)
      (c : Condition)
      (target : RegionId),
      let a : Action := .simple (.setState (some n.text) us rebuild) c
      let before := ex.worldAt setting l index
      let after := ex.worldAt setting l (index + 1)
      ex.Hands setting l index a (.ofBuiltIn .setState) →
        before.regions.find? id n.text = some target →
        (after.regions.Unshadowed id n.text ↔
          before.regions.Unshadowed id n.text ∧ ∀ u ∈ us, u.stateName ≠ n.text) ∧
        (after.regions.Unshadowed id n.text → ∀ key v,
          lastUpdate? (invocation setting l.scope before) (started setting index a before)
            us key = some v →
          ∀ reader now, ex.Enters setting outer reader → now.regions = after.regions →
            (∀ launched ∈ reader.launches, launched.binding? n.text = none) →
            (caller.bind fun scope => scope.lookup now n.text) = none →
              tryEvaluate (reader.scope.lookup now) (indexed n key) = .ok v) := by
  intro setting outer
  refine ⟨Regions.lookup_eq, fun rs id name => Regions.lookup_eq_none, ?_⟩
  intro l index n us rebuild c target a before after hands found
  refine ⟨?_, fun free key v last reader now entered same unbound uncalled => ?_⟩
  · have written : after.regions = _ := regions_worldAt_setState rfl hands found
    rw [written, Regions.unshadowed_setAll found, Deed.updates, List.map_map, List.mem_map]
    simp only [Function.comp_apply, not_exists, not_and]
  · obtain ⟨values, answer, written⟩ := exists_lookup_of_setState rfl hands found free
    have launches : (reader.launches.findSome? fun launched => launched.binding? n.text) = none :=
      List.findSome?_eq_none_iff.2 unbound
    have top : outer.scope.lookup now n.text = _ :=
      lookup_flowScope host caller (some id) now n.text
    have bound : reader.scope.lookup now n.text = some (.object values) := by
      rw [entered.lookup rfl now n.text, launches, top, uncalled, Option.bind_some, same, answer]
      rfl
    rw [tryEvaluate_indexed bound, written key v last]
    rfl

def page : Identifier := .ofChars 'p' ['a', 'g', 'e'] (by decide)

/-- From a card on a page inside a page, a count of the page is set. The card has a count of its
own, and the page further out keeps the one that it had. -/
theorem names_read_as_written_page :
    let ex : Executor := ⟨Registry.builtIn, .default, Registry.missing?_builtIn, rfl⟩
    let count : Action := .simple (.setState (some page.text) [⟨"count", .bool true⟩] true) none
    let flow : Flow := ⟨[count], false⟩
    let host : Host := .silent 0
    let caller : Scope World := (Scope.root "caller").extend [("card", .null)]
    let card : Region := Region.make "card" (some 2) [("count", .string "mine")]
    let inner : Region := Region.make "page" (some 1) []
    let around : Region := Region.make "page" (some 0) [("count", .bool false)]
    let app : Region := Region.make appStateName none []
    let w : World := ⟨0, [card, inner, around, app], [], .ofCapacity 1, [], [], [], 0⟩
    let setting : Setting := ⟨host, some 3, w.freshId.1⟩
    let outer : Level := topLevel host flow (some caller) (some 3) w
    let now : World := ex.worldAt setting outer 1
    w.regions.find? 3 "page" = some 2 ∧
    now.regions.lookup 3 "count" = some (.string "mine") ∧
    now.regions.lookup 1 "page" = some (.object [("count", .bool false)]) ∧
    now.regions.lookup 3 "nowhere" = none ∧
    now.regions.Unshadowed 3 "page" ∧
    indexed page "count" = "page['count']" ∧
    tryEvaluate (outer.scope.lookup now) (indexed page "count") = .ok (.bool true) := by
  intro ex count flow host caller card inner around app w setting outer now
  obtain ⟨read, unread, written⟩ := names_read_as_written ex host flow (some caller) 3 w
  obtain ⟨hidden, reads⟩ :=
    written outer 0 page [⟨"count", .bool true⟩] true none 2 ⟨rfl, rfl, rfl⟩ rfl
  have free : now.regions.Unshadowed 3 "page" := by
    refine hidden.2 ⟨⟨rfl, .inr ⟨rfl, .inl rfl⟩⟩, ?_⟩
    decide
  refine ⟨rfl, ?_, ?_, ?_, free, by decide, ?_⟩
  · exact (read now.regions 3 "count").trans (by decide +kernel)
  · exact (read now.regions 1 "page").trans (by decide +kernel)
  · exact (unread now.regions 3 "nowhere").2 (by decide +kernel)
  · exact reads free "count" (.bool true) (by decide +kernel) outer now .refl rfl
      (fun launched mem => nomatch mem) rfl

end Executor

end StepFlow
