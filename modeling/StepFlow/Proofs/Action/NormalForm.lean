import StepFlow.Proofs.Action.Known
import StepFlow.Proofs.Action.RoundTrip

/-!
# Normal forms read back

What is left of a flow once it is freed of unknown steps is written, read and freed of unknown steps
again as itself. A step that stands for one of an unknown type is the reason that this is not just
reading back: it is written under the tag it was found with, read as a step for the host, and then
replaced once more. So a step is compared with what becomes of the step that is read back, and the
flows in its slots likewise.
-/

namespace StepFlow

namespace Descriptor

variable {known : KnownTypes} {o : Object}

/-! ## Single steps -/

/-- A step that stands for one of an unknown type is written as that one would be
without its fields. -/
theorem action_standIn_written {tag name : String} {c : Condition} (faithful : FaithfulOption c)
    (htag : ActionType.ofTag tag = .custom name) :
    action (Written.action (.simple (.noop (some tag)) c)) = .ok (.simple (.custom tag []) c) :=
  action_hostStep_written (o := []) List.Pairwise.nil faithful htag

/-- A step for the host, or what stands for it, is read back and becomes the same again. -/
theorem action_hostStep_normal {tag name : String} {a : Action} (ho : Object.Sorted o)
    (closed : (Value.object o).BlocksClose) (htag : ActionType.ofTag tag = .custom name)
    (kept : known.action? (.simple (.custom tag (hostFields o)) (condition o)) = some a) :
    ∃ b, action (Written.action a) = .ok b ∧ known.action? b = some a := by
  obtain ⟨op, hop, rfl⟩ := Option.map_eq_some_iff.1 kept
  rw [KnownTypes.operation?] at hop
  split at hop
  · cases hop
    exact ⟨_, action_hostStep_written ho (faithfulOption_condition closed) htag, kept⟩
  · next unknown =>
    split at hop
    · cases hop
    · next policy =>
      cases hop
      refine ⟨_, action_standIn_written (faithfulOption_condition closed) htag, ?_⟩
      rw [KnownTypes.action?, KnownTypes.operation?, if_neg unknown, policy]
      rfl

theorem action_operation_normal {type : BuiltIn} {read : Object → Except FieldError Operation}
    {op : Operation} {a : Action} (hr : reading type = .operation read)
    (closed : (Value.object o).BlocksClose) (h : read o = .ok op)
    (kept : known.action? (.simple op (condition o)) = some a) :
    ∃ b, action (Written.action a) = .ok b ∧ known.action? b = some a := by
  have hknown : known.isKnown op.type = true := by
    rw [(readsBack_of_reading hr h).1]
    rfl
  have same : known.action? (.simple op (condition o)) = some (.simple op (condition o)) := by
    rw [KnownTypes.action?, KnownTypes.operation?_of_isKnown hknown]
    rfl
  obtain rfl := Option.some.inj (same.symm.trans kept)
  exact ⟨_, action_operation_written hr closed h, same⟩

/-- A flow in a slot is settled if reading it back and freeing it of unknown
steps gives it again. -/
def Settled (known : KnownTypes) (nested : Option Flow) : Prop :=
  known.slot (reread nested) = nested

theorem settled_slot {nested : Option Flow}
    (back : ∀ f f', nested = some f → known.flow? f = some f' →
      (flow? (Written.flow f')).bind known.flow? = some f') :
    Settled known (known.slot nested) := by
  unfold Settled
  cases nested with
  | none => rfl
  | some f =>
    rw [KnownTypes.slot_eq, KnownTypes.slot_eq, Option.bind_some]
    cases kept : known.flow? f with
    | none => rfl
    | some f' => exact back f f' rfl kept

/-- What is left of a flow is settled if its steps are read back and all of them are left again. -/
theorem flow_settled {f f' : Flow} (kept : known.flow? f = some f')
    (back : known.steps (steps (Written.steps (known.steps f.steps))) = known.steps f.steps) :
    (flow? (Written.flow f')).bind known.flow? = some f' := by
  rw [KnownTypes.flow?] at kept
  split at kept
  · cases kept
  · next first rest left =>
    cases kept
    rw [left] at back
    rw [flow?_written]
    cases again : steps (Written.steps (first :: rest)) with
    | nil =>
      rw [again] at back
      cases back
    | cons head tail =>
      rw [again] at back
      dsimp only
      rw [Option.bind_some, KnownTypes.flow?, back]

theorem action_modal_normal {kind : ModalKind} {view : ModalView}
    {onResult : Option Flow} {a : Action}
    (closed : (Value.object o).BlocksClose) (h : modalView o = .ok view)
    (settled : Settled known (known.slot onResult))
    (kept : known.action? (.modal kind view onResult (condition o)) = some a) :
    ∃ b, action (Written.action a) = .ok b ∧ known.action? b = some a := by
  cases kept
  refine ⟨_, action_modal_written kind _ closed h, ?_⟩
  rw [KnownTypes.action?, settled]

theorem action_request_normal {source : DataSource} {onSuccess onError : Option Flow} {a : Action}
    (closed : (Value.object o).BlocksClose) (h : requestSource o = .ok source)
    (success : Settled known (known.slot onSuccess)) (failure : Settled known (known.slot onError))
    (kept : known.action? (.request source onSuccess onError (condition o)) = some a) :
    ∃ b, action (Written.action a) = .ok b ∧ known.action? b = some a := by
  cases kept
  refine ⟨_, action_request_written _ _ closed h, ?_⟩
  rw [KnownTypes.action?, success, failure]

/-! ## Steps and flows -/

mutual

/-- What becomes of a step that was read is read back as a step of which the same becomes. -/
theorem action_normal (known : KnownTypes) :
    (v : Value) → v.Canonical → v.BlocksClose →
    ∀ {a a' : Action}, action v = .ok a → known.action? a = some a' →
      ∃ b, action (Written.action a') = .ok b ∧ known.action? b = some a'
  | .object o, ⟨sorted, inside⟩, closed, a, a', h, kept => by
    rw [action] at h
    split at h
    · next tag htag =>
      split at h
      · next name hname =>
        cases h
        exact action_hostStep_normal sorted closed hname kept
      · next type htype =>
        have h := mapError_eq_ok.1 h
        split at h
        · next read hread =>
          obtain ⟨op, hop, rfl⟩ := map_eq_ok.1 h
          exact action_operation_normal hread closed hop kept
        · next kind _ =>
          obtain ⟨view, hview, rfl⟩ := map_eq_ok.1 h
          exact action_modal_normal closed hview (slot_normal known "onResult" o inside closed) kept
        · obtain ⟨source, hsource, rfl⟩ := map_eq_ok.1 h
          exact action_request_normal closed hsource (slot_normal known "onSuccess" o inside closed)
            (slot_normal known "onError" o inside closed) kept
    · cases h
  | .null, _, _, _, _, h, _ | .bool _, _, _, _, _, h, _ | .number _, _, _, _, _, h, _
  | .string _, _, _, _, _, h, _ | .array _, _, _, _, _, h, _ => by cases h

/-- The flow in a slot that was read, freed of unknown steps, is settled. -/
theorem slot_normal (known : KnownTypes) (key : String) :
    (entries : Object) → Value.CanonicalEntries entries → (Value.object entries).BlocksClose →
      Settled known (known.slot (slot key entries))
  | [], _, _ => rfl
  | (k, v) :: rest, inside, closed => by
    obtain ⟨first, others⟩ := Value.blocksClose_entries.1 closed
    rw [slot]
    split
    · apply settled_slot
      intro f f' h kept
      exact flow_normal known v inside.1 first h kept
    · exact slot_normal known key rest inside.2 others

/-- What is left of a flow that was read is read back, and all of it is left again. -/
theorem flow_normal (known : KnownTypes) :
    (v : Value) → v.Canonical → v.BlocksClose →
    ∀ {f f' : Flow}, flow? v = some f → known.flow? f = some f' →
      (flow? (Written.flow f')).bind known.flow? = some f'
  | .array items, canonical, closed, f, f', h, kept => by
    have back := steps_normal known items canonical closed
    rw [flow?] at h
    split at h
    · cases h
    · next hs =>
      cases h
      rw [hs] at back
      exact flow_settled kept back
  | .object o, canonical, closed, f, f', h, kept => by
    have back := stepsUnder_normal known o canonical.2 closed
    rw [flow?] at h
    split at h
    · cases h
    · next hs =>
      cases h
      rw [hs] at back
      exact flow_settled kept back
  | .null, _, _, _, _, h, _ | .bool _, _, _, _, _, h, _ | .number _, _, _, _, _, h, _
  | .string _, _, _, _, _, h, _ => by cases h

theorem stepsUnder_normal (known : KnownTypes) :
    (entries : Object) → Value.CanonicalEntries entries → (Value.object entries).BlocksClose →
      known.steps (steps (Written.steps (known.steps (stepsUnder entries)))) =
        known.steps (stepsUnder entries)
  | [], _, _ => rfl
  | (k, v) :: rest, inside, closed => by
    obtain ⟨first, others⟩ := Value.blocksClose_entries.1 closed
    rw [stepsUnder.eq_def]
    dsimp only
    split
    · split
      · next items => exact steps_normal known items inside.1 first
      · rfl
    · exact stepsUnder_normal known rest inside.2 others

/-- The steps that are left of a list are read back, and all of them are left again. -/
theorem steps_normal (known : KnownTypes) :
    (items : List Value) → Value.CanonicalItems items → (Value.array items).BlocksClose →
      known.steps (steps (Written.steps (known.steps (steps items)))) = known.steps (steps items)
  | [], _, _ => rfl
  | v :: rest, inside, closed => by
    obtain ⟨firstClosed, othersClosed⟩ := Value.blocksClose_items.1 closed
    have others := steps_normal known rest inside.2 othersClosed
    rw [steps]
    cases read : action v with
    | error e => exact others
    | ok a =>
      simp only [KnownTypes.steps]
      cases kept : known.action? a with
      | none => exact others
      | some a' =>
        obtain ⟨b, back, again⟩ := action_normal known v inside.1 firstClosed read kept
        simp only [Written.steps, steps, back, KnownTypes.steps, again, others]

end

end Descriptor

end StepFlow
