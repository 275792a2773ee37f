import Mathlib.Data.List.Nodup
import StepFlow.Proofs.Run.Waits
import StepFlow.World

/-!
# What a run puts on record

The events, the identifiers and the notes that processors write down are the record of a run.
`Recorded` says what was added to it between two worlds, where a processor that is handed a
step under some identifier writes down the notes `m` of that identifier. `Noted` says the
same of the work of a single processor, which publishes nothing. Both compose, and the
passing of time adds nothing.

`Publishes` is the contract of a task in these terms. It speaks of the events when the task ends and
also of those up to each wait, so that it says something about a task that is cut off, too.
-/

namespace StepFlow

/-- The identifier that an event is the first to mention. -/
def Event.announced? : Event → Option String
  | .flowStarted id _ => some id
  | .actionSkipped step | .actionStarted step => some step.actionId
  | _ => none

/-- The identifier of the step that is handed to its processor. -/
def Event.started? : Event → Option String
  | .actionStarted step => some step.actionId
  | _ => none

namespace World

/-- The events, the earliest first. -/
def published (w : World) : List Event := (w.events.map Prod.snd).reverse

/-- The plain texts in the journal, the earliest first. -/
def notes (w : World) : List String := (w.journal.filterMap Value.string?).reverse

def note (text : String) (w : World) : World := { w with journal := .string text :: w.journal }

/-- The identifier that is given out after so many others. -/
def idText (issued : Nat) : String := "id-" ++ toString (issued + 1)

theorem idText_injective : Function.Injective idText := by
  intro m n h
  have hrepr : Nat.repr (m + 1) = Nat.repr (n + 1) := String.append_right_inj "id-" |>.1 h
  have hdigits : Nat.toDigits 10 (m + 1) = Nat.toDigits 10 (n + 1) := by
    rw [← Nat.toList_repr, ← Nat.toList_repr, hrepr]
  -- the digits are read back as the number
  have hsucc : m + 1 = n + 1 := by
    rw [← Nat.ofDigitChars_ten_toDigits (n := m + 1), hdigits, Nat.ofDigitChars_ten_toDigits]
  omega

/-- A processor worked from one world to another: it published nothing, took no identifier, and
wrote down these notes. -/
structure Noted (w w' : World) (notes : List String) : Prop where
  published : w'.published = w.published
  issued : w'.issued = w.issued
  notes : w'.notes = w.notes ++ notes

namespace Noted

variable {w w' w'' : World} {l l' : List String}

/-- Work that the record of the run does not show. -/
theorem unseen (hp : w'.published = w.published) (hi : w'.issued = w.issued)
    (hn : w'.notes = w.notes) : Noted w w' [] :=
  ⟨hp, hi, hn.trans (List.append_nil _).symm⟩

theorem refl (w : World) : Noted w w [] := unseen rfl rfl rfl

theorem trans (h : Noted w w' l) (h' : Noted w' w'' l') : Noted w w'' (l ++ l') where
  published := h'.published.trans h.published
  issued := h'.issued.trans h.issued
  notes := by rw [h'.notes, h.notes, List.append_assoc]

theorem note (text : String) (w : World) : Noted w (w.note text) [text] where
  published := rfl
  issued := rfl
  notes := List.reverse_cons

theorem pass (ms : Nat) (w : World) : Noted w (w.pass ms) [] := unseen rfl rfl rfl

end Noted

/-- A run went from one world to another: it published these events, announced the identifiers that
were given out in their order, and had the steps noted that it started. -/
structure Recorded (m : String → List String) (w w' : World) (events : List Event) : Prop where
  published : w'.published = w.published ++ events
  issued : w'.issued = w.issued + (events.filterMap Event.announced?).length
  announced : events.filterMap Event.announced? =
    (List.range' w.issued (events.filterMap Event.announced?).length).map idText
  notes : w'.notes = w.notes ++ (events.filterMap Event.started?).flatMap m

namespace Recorded

variable {m : String → List String} {w w' w'' : World} {events events' : List Event}

theorem refl (m : String → List String) (w : World) : Recorded m w w [] :=
  ⟨(List.append_nil _).symm, rfl, rfl, (List.append_nil _).symm⟩

theorem trans (h : Recorded m w w' events) (h' : Recorded m w' w'' events') :
    Recorded m w w'' (events ++ events') where
  published := by rw [h'.published, h.published, List.append_assoc]
  issued := by
    rw [h'.issued, h.issued, List.filterMap_append, List.length_append, Nat.add_assoc]
  announced := by
    have hrest := h'.announced
    rw [h.issued] at hrest
    rw [List.filterMap_append, List.length_append, ← List.range'_append_1, List.map_append,
      ← h.announced, ← hrest]
  notes := by
    rw [h'.notes, h.notes, List.filterMap_append, List.flatMap_append, List.append_assoc]

theorem of_noted (h : Noted w w' []) : Recorded m w w' [] where
  published := h.published.trans (List.append_nil _).symm
  issued := h.issued
  announced := rfl
  notes := h.notes

/-- Work that needs no notes may follow. -/
theorem noted (h : Recorded m w w' events) (h' : Noted w' w'' []) : Recorded m w w'' events := by
  have hboth := h.trans (of_noted h')
  rwa [List.append_nil] at hboth

/-- An execution starts. -/
theorem flowStarted (m : String → List String) (w : World) (steps : Nat) :
    Recorded m w (w.freshId.2.emit (.flowStarted w.freshId.1 steps))
      [.flowStarted w.freshId.1 steps] :=
  ⟨List.reverse_cons, rfl, rfl, (List.append_nil _).symm⟩

/-- A step is skipped. -/
theorem actionSkipped (m : String → List String) (w : World) {step : StepRef}
    (hstep : step.actionId = w.freshId.1) :
    Recorded m w (w.freshId.2.emit (.actionSkipped step)) [.actionSkipped step] :=
  ⟨List.reverse_cons, rfl, congrArg (fun id => [id]) hstep, (List.append_nil _).symm⟩

/-- A step starts, and its processor makes the notes that it owes. -/
theorem actionStarted {step : StepRef} (hstep : step.actionId = w.freshId.1)
    (h : Noted (w.freshId.2.emit (.actionStarted step)) w' (m step.actionId)) :
    Recorded m w w' [.actionStarted step] where
  published := h.published.trans List.reverse_cons
  issued := h.issued
  announced := congrArg (fun id => [id]) hstep
  notes := h.notes.trans (congrArg (w.notes ++ ·) (List.append_nil _).symm)

/-- An event that announces and starts nothing. -/
theorem emit (m : String → List String) (w : World) {e : Event} (ha : e.announced? = none)
    (hs : e.started? = none) : Recorded m w (w.emit e) [e] where
  published := List.reverse_cons
  issued := by simp [ha, World.emit]
  announced := by simp [ha]
  notes := by simp [hs, World.emit, World.notes]

/-- No identifier is announced twice. -/
theorem announced_nodup (h : Recorded m w w' events) :
    (events.filterMap Event.announced?).Nodup := by
  rw [h.announced]
  exact (List.nodup_range' 1).map idText_injective

end Recorded

end World

namespace Task

/-- From `base`, where the events `before` were published, the world is reached with a first part of
some events that go with a result. -/
def Underway {α : Type} (m : String → List String) (base : World) (before : List Event)
    (G : List Event → α → Prop) (w : World) : Prop :=
  ∃ part full a, part <+: full ∧ G full a ∧ World.Recorded m base w (before ++ part)

/-- A task, run from a world that is reached from `base` with the events `before` published,
leads to further events and a result that go together. Each time that it waits it is
underway to such events. -/
def Publishes {α : Type} (m : String → List String) (base : World) (before : List Event)
    (G : List Event → α → Prop) (t : Task World α) (w : World) : Prop :=
  (∃ events, G events (t.run World.pass w).1 ∧
    World.Recorded m base (t.run World.pass w).2 (before ++ events)) ∧
  t.AtWaits World.pass (Underway m base before G) w

namespace Publishes

variable {α β : Type} {m : String → List String} {base w : World} {before : List Event}
variable {G G' : List Event → α → Prop} {H : List Event → β → Prop} {t : Task World α}

/-! What takes no time is passed over. -/

theorem modify_iff {change : World → World} {f : Unit → Task World β} :
    Publishes m base before H ((modify change).bind f) w ↔
      Publishes m base before H (f ()) (change w) := Iff.rfl

theorem read_iff {look : World → α} {f : α → Task World β} :
    Publishes m base before H ((read look).bind f) w ↔
      Publishes m base before H (f (look w)) w := Iff.rfl

theorem modifyGet_iff {change : World → α × World} {f : α → Task World β} :
    Publishes m base before H ((modifyGet change).bind f) w ↔
      Publishes m base before H (f (change w).1) (change w).2 := Iff.rfl

theorem pure {events : List Event} {a : α} (hw : World.Recorded m base w (before ++ events))
    (hG : G events a) : Publishes m base before G (pure a) w :=
  ⟨⟨events, hG, hw⟩, trivial⟩

theorem mono (h : Publishes m base before G t w) (hG : ∀ events a, G events a → G' events a) :
    Publishes m base before G' t w := by
  obtain ⟨⟨events, hg, hw⟩, hwaits⟩ := h
  refine ⟨⟨events, hG _ _ hg, hw⟩, hwaits.mono ?_⟩
  rintro w' ⟨part, full, a, hpart, hfull, hrec⟩
  exact ⟨part, full, a, hpart, hG _ _ hfull, hrec⟩

/-- What a task does from a world on is added to what led to that world. -/
theorem rebase (hw : World.Recorded m base w before) (h : Publishes m w [] G t w) :
    Publishes m base before G t w := by
  obtain ⟨⟨events, hg, hrec⟩, hwaits⟩ := h
  refine ⟨⟨events, hg, hw.trans hrec⟩, hwaits.mono ?_⟩
  rintro w' ⟨part, full, a, hpart, hfull, hrec'⟩
  exact ⟨part, full, a, hpart, hfull, hw.trans hrec'⟩

/-- What follows on a task is spoken of from the world that the task leaves. -/
theorem bind {f : α → Task World β} (h : Publishes m base before G t w)
    (hf : ∀ events a w', G events a →
      Publishes m w' [] (fun more => H (events ++ more)) (f a) w') :
    Publishes m base before H (t.bind f) w := by
  obtain ⟨⟨events, hg, hw⟩, hwaits⟩ := h
  obtain ⟨⟨more, hH, hmore⟩, hwaits'⟩ := hf events _ (t.run World.pass w).2 hg
  refine ⟨⟨events ++ more, ?_, ?_⟩, atWaits_bind.2 ⟨hwaits.mono ?_, hwaits'.mono ?_⟩⟩
  · rw [run_bind]
    exact hH
  · rw [run_bind, ← List.append_assoc]
    exact hw.trans hmore
  · -- what the first part is underway to is completed by what could follow on it
    rintro w' ⟨part, full, a, hpart, hfull, hrec⟩
    obtain ⟨⟨rest, hrest, -⟩, -⟩ := hf full a w' hfull
    exact ⟨part, full ++ rest, _, hpart.trans (List.prefix_append _ _), hrest, hrec⟩
  · rintro w' ⟨part, full, b, hpart, hfull, hrec⟩
    refine ⟨events ++ part, events ++ full, b, ?_, hfull, ?_⟩
    · exact (List.prefix_append_right_inj events).2 hpart
    · rw [← List.append_assoc]
      exact hw.trans hrec

theorem mapResult {f : α → β} (h : Publishes m base before G t w)
    (hf : ∀ events a, G events a → H events (f a)) :
    Publishes m base before H (t.mapResult f) w := by
  obtain ⟨⟨events, hg, hw⟩, hwaits⟩ := h
  refine ⟨⟨events, ?_, ?_⟩, atWaits_mapResult.2 (hwaits.mono ?_)⟩
  · rw [run_mapResult]
    exact hf _ _ hg
  · rw [run_mapResult]
    exact hw
  · rintro w' ⟨part, full, a, hpart, hfull, hrec⟩
    exact ⟨part, full, f a, hpart, hf _ _ hfull, hrec⟩

/-- The first events can be spoken of as part of what is still to come. -/
theorem after (first : List Event)
    (h : Publishes m base (before ++ first) (fun events a => G (first ++ events) a) t w) :
    Publishes m base before G t w := by
  obtain ⟨⟨events, hg, hw⟩, hwaits⟩ := h
  refine ⟨⟨first ++ events, hg, ?_⟩, hwaits.mono ?_⟩
  · rw [← List.append_assoc]
    exact hw
  · rintro w' ⟨part, full, a, hpart, hfull, hrec⟩
    refine ⟨first ++ part, first ++ full, a, ?_, hfull, ?_⟩
    · exact (List.prefix_append_right_inj first).2 hpart
    · rw [← List.append_assoc]
      exact hrec

/-- Within a time limit a task publishes all its events, or a first part of
them and has no result. -/
theorem limit (h : Publishes m base before G t w) (ms : Nat) :
    Publishes m base before
      (fun events r => (∃ a, r = some a ∧ G events a) ∨
        r = none ∧ ∃ full a, events <+: full ∧ G full a) (t.limit ms) w := by
  obtain ⟨⟨events, hg, hw⟩, hwaits⟩ := h
  refine ⟨?_, (hwaits.limit ms).mono ?_⟩
  · rcases hwaits.run_limit ms with hrun | ⟨w', rest, ⟨part, full, a, hpart, hfull, hrec⟩, hrun⟩
    · rw [hrun]
      exact ⟨events, .inl ⟨_, rfl, hg⟩, hw⟩
    · rw [hrun]
      exact ⟨part, .inr ⟨rfl, full, a, hpart, hfull⟩, hrec.noted (World.Noted.pass rest w')⟩
  · rintro w' ⟨part, full, a, hpart, hfull, hrec⟩
    exact ⟨part, full, some a, hpart, .inl ⟨a, rfl, hfull⟩, hrec⟩

end Publishes

end Task

end StepFlow
