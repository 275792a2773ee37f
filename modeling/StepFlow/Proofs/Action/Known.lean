import Mathlib.Data.List.Forall2
import StepFlow.Action.Known

/-!
# Flows without unknown steps

Normalising a flow leaves its own steps in their order. Those of unknown types are left out or
replaced one for one, as the policy says; every other step keeps its fields and its condition,
and the flows that it owns are normalised in turn. A normal form is clean: at no depth is
there a step of an unknown type or a flow without steps. Clean flows stay as they are, so
normalising once is enough.
-/

namespace StepFlow

/-- A step is in a flow: it is one of the flow's own steps, or is in a flow
that one of these owns. -/
inductive FlowOf.Holds (a : Action) : Flow → Prop
  | own {flow : Flow} (mem : a ∈ flow.steps) : Holds a flow
  | nested {flow inner : Flow} {owner : Action} {slot : String} (mem : owner ∈ flow.steps)
    (owned : (slot, some inner) ∈ owner.nested) (within : Holds a inner) : Holds a flow

/-- What is in a flow is in any flow with the steps of that flow among its own. -/
theorem FlowOf.Holds.mono {a : Action} {flow flow' : Flow} (h : flow.Holds a)
    (sub : flow.steps ⊆ flow'.steps) : flow'.Holds a := by
  cases h with
  | own mem => exact .own (sub mem)
  | nested mem owned within => exact .nested (sub mem) owned within

/-- A step with nothing in the slots for flows. -/
def Action.withoutFlows : Action → Action
  | .simple operation c => .simple operation c
  | .modal kind view _ c => .modal kind view none c
  | .request source _ _ c => .request source none none c

/-- The values of a function are given for the members that it has a value for. -/
theorem forall₂_filter_filterMap {α β : Type} {R : α → β → Prop} {f : α → Option β}
    {drops : α → Bool}
    (isNone : ∀ a, (f a).isNone = drops a) (related : ∀ a b, f a = some b → R a b) (l : List α) :
    List.Forall₂ R (l.filter fun a => !drops a) (l.filterMap f) := by
  induction l with
  | nil => exact .nil
  | cons a rest ih =>
    have ha := isNone a
    cases hf : f a with
    | none =>
      rw [hf, Option.isNone_none] at ha
      simpa only [List.filterMap_cons, hf, List.filter_cons, ← ha, Bool.not_true,
        Bool.false_eq_true, if_false] using ih
    | some b =>
      rw [hf, Option.isNone_some] at ha
      simpa only [List.filterMap_cons, hf, List.filter_cons, ← ha, Bool.not_false, if_true] using
        List.Forall₂.cons (related a b hf) ih

namespace KnownTypes

variable {known : KnownTypes} {a b : Action} {flow inner : Flow}

theorem slot_eq (known : KnownTypes) (nested : Option Flow) :
    known.slot nested = nested.bind known.flow? := by
  cases nested <;> rfl

theorem steps_eq_filterMap (known : KnownTypes) (actions : List Action) :
    known.steps actions = actions.filterMap known.action? := by
  induction actions with
  | nil => rfl
  | cons a rest ih =>
    rw [steps, ih, List.filterMap_cons]
    cases known.action? a <;> rfl

/-- There is a flow left if there is a step left. -/
theorem flow?_eq_some_iff :
    known.flow? flow = some inner ↔
    inner = ⟨known.steps flow.steps, flow.inkWell⟩ ∧ known.steps flow.steps ≠ [] := by
  rw [flow?]
  cases known.steps flow.steps with
  | nil => simp
  | cons first rest => simp [eq_comm]

theorem steps_of_flow? (h : known.flow? flow = some inner) :
    inner.steps = known.steps flow.steps := by
  rw [(flow?_eq_some_iff.1 h).1]

/-! ## What becomes of a step -/

/-- Whether a step is left out: its type is unknown, and such steps are dropped. -/
def leavesOut (known : KnownTypes) (a : Action) : Bool :=
  known.policy = .drop && !known.isKnown a.type

/-- What a step that is not left out turns into. -/
inductive TurnsInto (known : KnownTypes) : Action → Action → Prop
  /-- A step of a known type keeps all but the flows that it owns, each of which is normalised. -/
  | kept {a b : Action} (isKnown : known.isKnown a.type = true)
    (same : b.withoutFlows = a.withoutFlows)
    (flows : b.nested = a.nested.map fun owned => (owned.1, owned.2.bind (Flow.normalize known))) :
      TurnsInto known a b
  /-- A step of an unknown type becomes one that does nothing and keeps the tag. -/
  | replaced {tag : String} {fields : Object} {c : Condition}
    (unknown : known.isKnown (ActionType.ofHostTag tag) = false) :
      TurnsInto known (.simple (.custom tag fields) c) (.simple (.noop (some tag)) c)

theorem isNone_action? (a : Action) : (known.action? a).isNone = known.leavesOut a := by
  cases a with
  | simple op c =>
    rw [action?, Option.isNone_map]
    cases op with
    | custom tag fields =>
      show _ = (known.policy = .drop && !known.isKnown (ActionType.ofHostTag tag))
      rw [operation?]
      cases known.isKnown (ActionType.ofHostTag tag) <;> cases known.policy <;> rfl
    | _ => simp [operation?, leavesOut, Action.type, Operation.type, isKnown]
  | _ => simp [action?, leavesOut, Action.type, isKnown]

/-- An operation of a known type is kept. -/
theorem operation?_of_isKnown {op : Operation} (h : known.isKnown op.type = true) :
    known.operation? op = some op := by
  cases op with
  | custom tag fields => exact if_pos h
  | _ => rfl

theorem turnsInto_of_action? (h : known.action? a = some b) : known.TurnsInto a b := by
  cases a with
  | simple op c =>
    obtain ⟨op', hop, rfl⟩ := Option.map_eq_some_iff.1 h
    cases hknown : known.isKnown op.type with
    | true =>
      cases (operation?_of_isKnown hknown).symm.trans hop
      exact .kept hknown rfl rfl
    | false =>
      cases op with
      | custom tag fields =>
        have hunknown : ¬known.isKnown (ActionType.ofHostTag tag) = true :=
          Bool.eq_false_iff.1 hknown
        rw [operation?, if_neg hunknown] at hop
        split at hop
        · cases hop
        · cases hop
          exact .replaced hknown
      | _ => cases hknown
  | modal kind view onResult c =>
    cases h
    refine .kept rfl rfl ?_
    rw [slot_eq]
    rfl
  | request source onSuccess onError c =>
    cases h
    refine .kept rfl rfl ?_
    rw [slot_eq, slot_eq]
    rfl

/-- What becomes of a step is of a known type. -/
theorem TurnsInto.isKnown (h : known.TurnsInto a b) : known.isKnown b.type = true := by
  cases h with
  | kept isKnown same flows =>
    cases a <;> cases b <;> cases same <;> exact isKnown
  | replaced => rfl

/-- A flow that is owned by what becomes of a step is itself the normal form of a flow. -/
theorem TurnsInto.exists_of_owned {slot : String} (h : known.TurnsInto a b)
    (owned : (slot, some inner) ∈ b.nested) :
    ∃ flow, known.flow? flow = some inner := by
  cases h with
  | kept isKnown same flows =>
    rw [flows] at owned
    obtain ⟨⟨_, source⟩, -, heq⟩ := List.mem_map.1 owned
    obtain ⟨flow, -, hflow⟩ := Option.bind_eq_some_iff.1 (Prod.mk.inj heq).2
    exact ⟨flow, hflow⟩
  | replaced => cases owned

/-! ## Clean flows -/

/-- A flow with steps of known types only, without a flow that has no steps, itself or any in it. -/
structure Clean (known : KnownTypes) (flow : Flow) : Prop where
  isKnown : ∀ a, flow.Holds a → known.isKnown a.type = true
  nonempty : flow.steps ≠ []
  owned : ∀ a, flow.Holds a → ∀ slot inner, (slot, some inner) ∈ a.nested → inner.steps ≠ []

theorem Clean.of_owned {slot : String} (h : known.Clean flow) (mem : a ∈ flow.steps)
    (owned : (slot, some inner) ∈ a.nested) : known.Clean inner where
  isKnown b hb := h.isKnown b (.nested mem owned hb)
  nonempty := h.owned a (.own mem) slot inner owned
  owned b hb := h.owned b (.nested mem owned hb)

/-- A step of a normal form, at any depth, is what became of a step. -/
theorem exists_of_holds (h : inner.Holds b) (normal : known.flow? flow = some inner) :
    ∃ a, known.TurnsInto a b := by
  induction h generalizing flow with
  | own mem =>
    rw [steps_of_flow? normal, steps_eq_filterMap] at mem
    obtain ⟨a, -, ha⟩ := List.mem_filterMap.1 mem
    exact ⟨a, turnsInto_of_action? ha⟩
  | nested mem owned within ih =>
    rw [steps_of_flow? normal, steps_eq_filterMap] at mem
    obtain ⟨a, -, ha⟩ := List.mem_filterMap.1 mem
    obtain ⟨source, hsource⟩ := (turnsInto_of_action? ha).exists_of_owned owned
    exact ih hsource

/-- Every step in the normal form of a flow, at any depth, is of a known type. -/
theorem isKnown_of_holds (h : inner.Holds b) (normal : known.flow? flow = some inner) :
    known.isKnown b.type = true := by
  obtain ⟨a, ha⟩ := exists_of_holds h normal
  exact ha.isKnown

theorem nonempty_of_flow? (normal : known.flow? flow = some inner) : inner.steps ≠ [] := by
  rw [steps_of_flow? normal]
  exact (flow?_eq_some_iff.1 normal).2

theorem clean_of_flow? (normal : known.flow? flow = some inner) : known.Clean inner where
  isKnown b hb := isKnown_of_holds hb normal
  nonempty := nonempty_of_flow? normal
  owned b hb slot nested hnested := by
    obtain ⟨a, ha⟩ := exists_of_holds hb normal
    obtain ⟨source, hsource⟩ := ha.exists_of_owned hnested
    exact nonempty_of_flow? hsource

mutual

/-- A step of a known type that owns clean flows only stays as it is. -/
theorem action?_of_clean (known : KnownTypes) :
    ∀ a : Action, known.isKnown a.type = true →
      (∀ slot inner, (slot, some inner) ∈ a.nested → known.Clean inner) → known.action? a = some a
  | .simple op c, hknown, _ => by
    rw [action?, operation?_of_isKnown hknown]
    rfl
  | .modal kind view onResult c, _, clean => by
    have hresult := slot_of_clean known onResult fun inner h =>
      clean "onResult" inner (h ▸ List.mem_singleton_self _)
    rw [action?, hresult]
  | .request source onSuccess onError c, _, clean => by
    have hsuccess := slot_of_clean known onSuccess fun inner h =>
      clean "onSuccess" inner (h ▸ List.mem_cons_self)
    have herror := slot_of_clean known onError fun inner h =>
      clean "onError" inner (h ▸ List.mem_cons_of_mem _ (List.mem_singleton_self _))
    rw [action?, hsuccess, herror]

theorem slot_of_clean (known : KnownTypes) :
    ∀ owned : Option (FlowOf Action),
      (∀ inner, owned = some inner → known.Clean inner) → known.slot owned = owned
  | none, _ => rfl
  | some ⟨actions, inkWell⟩, clean => by
    have hclean := clean _ rfl
    have hsteps := steps_of_clean known actions fun a mem =>
      ⟨hclean.isKnown a (.own mem), fun slot inner owned => hclean.of_owned mem owned⟩
    rw [slot, flow?_eq_some_iff, hsteps]
    exact ⟨rfl, hclean.nonempty⟩

theorem steps_of_clean (known : KnownTypes) :
    ∀ actions : List Action, (∀ a ∈ actions, known.isKnown a.type = true ∧
      ∀ slot inner, (slot, some inner) ∈ a.nested → known.Clean inner) →
        known.steps actions = actions
  | [], _ => rfl
  | a :: rest, clean => by
    obtain ⟨hknown, howned⟩ := clean a List.mem_cons_self
    have hrest := steps_of_clean known rest fun b mem => clean b (List.mem_cons_of_mem _ mem)
    rw [steps, action?_of_clean known a hknown howned, hrest]

end

/-- A clean flow stays as it is. -/
theorem flow?_of_clean (h : known.Clean flow) : known.flow? flow = some flow := by
  have hslot := slot_of_clean known (some flow) fun inner heq => Option.some.inj heq ▸ h
  exact hslot

end KnownTypes

/-- Normalising gives no flow exactly if every step of the flow itself is left out. Otherwise the
steps that are not left out are there in their order, each turned into what becomes of it, the
result is clean at every depth, and normalising it again gives it back. -/
theorem Flow.normal_form_is_clean (known : KnownTypes) (flow : Flow) :
    (Flow.normalize known flow = none ↔ ∀ a ∈ flow.steps, known.leavesOut a = true) ∧
      ∀ normal, Flow.normalize known flow = some normal →
        (normal.inkWell = flow.inkWell ∧
          List.Forall₂ known.TurnsInto (flow.steps.filter fun a => !known.leavesOut a)
            normal.steps) ∧
        known.Clean normal ∧ Flow.normalize known normal = some normal := by
  constructor
  · have hnone : Flow.normalize known flow = none ↔ known.steps flow.steps = [] := by
      rw [Option.eq_none_iff_forall_ne_some]
      constructor
      · intro h
        by_contra hleft
        exact h _ (KnownTypes.flow?_eq_some_iff.2 ⟨rfl, hleft⟩)
      · intro h inner hinner
        exact (KnownTypes.flow?_eq_some_iff.1 hinner).2 h
    rw [hnone, KnownTypes.steps_eq_filterMap, List.filterMap_eq_nil_iff]
    simp only [← KnownTypes.isNone_action?, Option.isNone_iff_eq_none]
  · intro normal h
    have hclean := KnownTypes.clean_of_flow? h
    obtain ⟨rfl, -⟩ := KnownTypes.flow?_eq_some_iff.1 h
    refine ⟨⟨rfl, ?_⟩, hclean, KnownTypes.flow?_of_clean hclean⟩
    rw [KnownTypes.steps_eq_filterMap]
    exact forall₂_filter_filterMap KnownTypes.isNone_action?
      (fun _ _ => KnownTypes.turnsInto_of_action?) flow.steps

/-- Where unknown steps are dropped, a request loses one of its flows and a step of the other, and
the flow itself the step behind the request. -/
theorem Flow.normal_form_is_clean_request :
    let known : KnownTypes := ⟨.drop, []⟩
    let unknown : Action := .simple (.custom "vibrate" []) none
    let noop : Action := .simple (.noop none) none
    let source : DataSource := ⟨none, .literal "https://a", .null, .null⟩
    let flow : Flow :=
      ⟨[.request source (some ⟨[unknown, noop], true⟩) (some ⟨[unknown], false⟩) none,
        unknown], true⟩
    let normal : Flow := ⟨[.request source (some ⟨[noop], true⟩) none none], true⟩
    Flow.normalize known flow = some normal ∧
      List.Forall₂ known.TurnsInto (flow.steps.filter fun a => !known.leavesOut a) normal.steps ∧
      known.Clean normal ∧ Flow.normalize known normal = some normal := by
  intro known unknown noop source flow normal
  have h : Flow.normalize known flow = some normal := rfl
  obtain ⟨⟨-, hsteps⟩, hclean, hagain⟩ := (normal_form_is_clean known flow).2 normal h
  exact ⟨h, hsteps, hclean, hagain⟩

end StepFlow
