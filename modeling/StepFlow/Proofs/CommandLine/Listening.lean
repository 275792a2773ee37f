import StepFlow.CommandLine.Session
import StepFlow.Proofs.Bus.Draining
import StepFlow.Proofs.Outcome
import StepFlow.Proofs.Run.Course

/-!
# Listening to a run

The observers of the channels that a run shows are there before the flow starts, and are read when
it is over. What happens to the bus in between is told by the course of the run: the executed steps
send their messages, one after another. So for each channel the last messages are shown, as many as
a queue has room for; earlier ones are lost.
-/

namespace StepFlow.CommandLine

variable {files : Files} {flow : String} {options : RunOptions} {reading : Reading} {s : Session}

theorem of_executor {ex : Executor} (h : files.executor reading = .ok ex) :
    ex.registry = Registry.builtIn := by
  obtain ⟨config, -, made⟩ := bind_eq_ok.1 h
  exact (Executor.of_make (mapError_eq_ok.1 made)).1

/-- When a run is prepared, the channels are observed, and nothing has happened yet. -/
structure Prepared (options : RunOptions) (s : Session) : Prop where
  builtIn : s.executor.registry = Registry.builtIn
  options_eq : s.options = options
  observers : s.observers =
    ((Bus.ofCapacity s.executor.config.busCapacity).observeAll options.listen).1
  bus : s.world.bus = ((Bus.ofCapacity s.executor.config.busCapacity).observeAll options.listen).2
  events : s.world.events = []

theorem of_prepare (h : prepare files flow options reading = .ok s) : Prepared options s := by
  obtain ⟨ex, made, h⟩ := bind_eq_ok.1 h
  obtain ⟨⟨document, files⟩, -, h⟩ := bind_eq_ok.1 h
  obtain ⟨⟨bound, files⟩, -, h⟩ := bind_eq_ok.1 h
  obtain ⟨⟨values, files⟩, -, h⟩ := bind_eq_ok.1 h
  obtain ⟨⟨appValues, files⟩, -, h⟩ := bind_eq_ok.1 h
  cases h
  exact ⟨of_executor made, rfl, rfl, rfl, rfl⟩

theorem run_eq (h : prepare files flow options reading = .ok s) :
    run files flow options reading = .ok (s.report (s.task.run World.pass s.world).2) := by
  rw [run, h]
  rfl

namespace Session

/-- A run that is followed from its start on. -/
abbrev Course (s : Session) : World → List Executed → World → Prop :=
  s.executor.Course ⟨s.host, some s.region, s.world.freshId.1⟩
    (Executor.topLevel s.host s.flow s.caller (some s.region) s.world)

/-- How many messages of a channel are kept until they are read. -/
def room (s : Session) : Nat := Broadcast.roomFor s.executor.config.busCapacity

/-- A prepared run gets from its start to its end by executing steps. -/
theorem exists_course (prepared : Prepared options s) :
    ∃ executed, s.Course s.world executed (s.task.run World.pass s.world).2 :=
  (Executor.leading_execute (Executor.aloofProcessors_builtIn prepared.builtIn) s.host
    s.flow s.caller
    (some s.region) s.world).related (Task.start_end_sublist s.task s.world s.world)

theorem startedSteps_of_course (prepared : Prepared options s)
    {executed : List Executed} {w : World}
    (course : s.Course s.world executed w) : w.startedSteps = executed.map Executed.name := by
  have none : s.world.startedSteps = [] := by
    rw [World.startedSteps, World.published, prepared.events]
    rfl
  rw [course.startedSteps, none, List.nil_append]

/-- What the observers find after a run, given the steps that were executed. -/
theorem drained_of_course (prepared : Prepared options s) {executed : List Executed} {w : World}
    (course : s.Course s.world executed w) :
    (w.bus.drainAll s.observers).1 = options.listen.map fun name =>
      ((executed.filterMap Executed.posted?).filter fun m => m.name = name).rtake s.room := by
  rw [course.bus, prepared.bus, prepared.observers]
  exact Bus.drainAll_sent s.executor.config.busCapacity options.listen _

end Session

/-- A run that can be prepared is a course of executed steps: all that are started, nested ones
included. What it shows are the effects; then, for each channel that is listened to, the messages
that were sent on it, in the order of the steps that sent them; then the state, if this is asked
for. Of each channel the last messages are shown, as many as there is room for, which is no less
than the settings want: they are all shown if and only if they fit. -/
theorem listened_messages_shown (prepared : prepare files flow options reading = .ok s) :
    let ended := (s.task.run World.pass s.world).2
    ∃ executed, s.Course s.world executed ended ∧ ended.startedSteps = executed.map Executed.name ∧
      let sent := fun name => (executed.filterMap Executed.posted?).filter fun m => m.name = name
      let shown := fun name => (sent name).rtake s.room
      (∃ report, run files flow options reading = .ok report ∧
        report.lines = ended.performed.reverse.map .effect ++
          ((options.listen.flatMap shown).map .message ++
            if options.dumpState then [.state options.namespaceName (ended.values s.region)]
            else [])) ∧
      s.executor.config.busCapacity ≤ s.room ∧
      ∀ name ∈ options.listen, shown name = sent name ↔ (sent name).length ≤ s.room := by
  intro ended
  have ready := of_prepare prepared
  obtain ⟨executed, course⟩ := Session.exists_course ready
  refine ⟨executed, course, Session.startedSteps_of_course ready course, ?_⟩
  intro sent shown
  refine ⟨⟨_, run_eq prepared, ?_⟩, Broadcast.le_roomFor _, fun name _ => Broadcast.rtake_eq_self⟩
  have drained := Session.drained_of_course ready course
  simp only [Session.report, Session.closing, drained, ready.options_eq, List.flatMap_def]
  rfl

/-- Of two messages on a channel, one is sent inside a dialog. -/
theorem listened_messages_shown_dialog :
    let text := "[\x7b\"type\":\"showDialog\",\"viewId\":\"v\"," ++
      "\"onResult\":[\x7b\"type\":\"postMessage\",\"name\":\"a\",\"payload\":1\x7d]\x7d," ++
      "\x7b\"type\":\"postMessage\",\"name\":\"b\"\x7d," ++
      "\x7b\"type\":\"postMessage\",\"name\":\"a\",\"payload\":2\x7d]"
    let files : Files :=
      ⟨fun path => if path = "c.yaml" then some "bus_capacity: 2\n" else some text, ""⟩
    let options : RunOptions := ⟨none, none, "page", none, ["b", "a"], false, false, []⟩
    let reading : Reading := ⟨some "c.yaml", none⟩
    let message (name : String) (payload : Value) : Message := ⟨name, payload, some "id-1"⟩
    let sentOn (executed : List Executed) (name : String) : List Message :=
      (executed.filterMap Executed.posted?).filter fun m => m.name = name
    ∃ s executed, prepare files "flow.json" options reading = .ok s ∧ s.room = 2 ∧
      s.Course s.world executed (s.task.run World.pass s.world).2 ∧
      executed.map Executed.name =
        [⟨"id-1", "id-2", "showDialog", 0⟩, ⟨"id-1", "id-3", "postMessage", 0⟩,
        ⟨"id-1", "id-4", "postMessage", 1⟩, ⟨"id-1", "id-5", "postMessage", 2⟩] ∧
      (options.listen.flatMap fun name => (sentOn executed name).rtake s.room) =
        [message "b" .null, message "a" (.ofNat 1), message "a" (.ofNat 2)] := by
  intro text files options reading message sentOn
  -- reading the flow is what takes long, so all that is to be known of the run is computed at once
  have happened : (prepare files "flow.json" options reading).map (fun s =>
        let ended := (s.task.run World.pass s.world).2
        (s.room, ended.startedSteps, ended.performed, s.report ended)) =
      .ok (2, [⟨"id-1", "id-2", "showDialog", 0⟩, ⟨"id-1", "id-3", "postMessage", 0⟩,
          ⟨"id-1", "id-4", "postMessage", 1⟩, ⟨"id-1", "id-5", "postMessage", 2⟩],
        [.showModal .dialog "v" .null true],
        ⟨[.effect (.showModal .dialog "v" .null true), .message (message "b" .null),
          .message (message "a" (.ofNat 1)), .message (message "a" (.ofNat 2))], []⟩) := by
    decide +kernel
  obtain ⟨s, prepared, same⟩ := map_eq_ok.1 happened
  obtain ⟨room, started, performed, reported⟩ : _ ∧ _ ∧ _ ∧ _ := by
    simpa only [Prod.mk.injEq] using same
  obtain ⟨executed, course, names, ⟨report, ran, lines⟩, -⟩ := listened_messages_shown prepared
  refine ⟨s, executed, prepared, room, course, names.symm.trans started, ?_⟩
  rw [run_eq prepared, reported] at ran
  cases ran
  rw [performed] at lines
  have shown := (List.append_right_inj _).1 lines.symm
  exact List.map_injective_iff.2 (fun _ _ => Line.message.inj)
    ((List.append_nil _).symm.trans shown)

/-- Two messages are sent on a channel that keeps one: the first is not shown. -/
theorem listened_message_lost :
    let text := "[\x7b\"type\":\"postMessage\",\"name\":\"a\",\"payload\":false\x7d," ++
      "\x7b\"type\":\"postMessage\",\"name\":\"a\",\"payload\":true\x7d]"
    let files : Files :=
      ⟨fun path => if path = "c.yaml" then some "bus_capacity: 1\n" else some text, ""⟩
    let options : RunOptions := ⟨none, none, "page", none, ["a"], false, false, []⟩
    let reading : Reading := ⟨some "c.yaml", none⟩
    let message (payload : Bool) : Message := ⟨"a", .bool payload, some "id-1"⟩
    ∃ s executed, prepare files "flow.json" options reading = .ok s ∧
      s.Course s.world executed (s.task.run World.pass s.world).2 ∧
      executed.filterMap Executed.posted? = [message false, message true] ∧
      run files "flow.json" options reading = .ok ⟨[.message (message true)], []⟩ := by
  intro text files options reading message
  let post (payload : Bool) : Action := .simple (.postMessage (.literal "a") (.bool payload)) none
  have happened : (prepare files "flow.json" options reading).map (fun s =>
        let ended := (s.task.run World.pass s.world).2
        (s.flow, ended.startedSteps, s.report ended)) =
      .ok (⟨[post false, post true], false⟩,
        [⟨"id-1", "id-2", "postMessage", 0⟩, ⟨"id-1", "id-3", "postMessage", 1⟩],
        ⟨[.message (message true)], []⟩) := by
    decide +kernel
  obtain ⟨s, prepared, same⟩ := map_eq_ok.1 happened
  obtain ⟨flow, started, reported⟩ : _ ∧ _ ∧ _ := by simpa only [Prod.mk.injEq] using same
  have ready := of_prepare prepared
  obtain ⟨executed, course⟩ := Session.exists_course ready
  have names := Session.startedSteps_of_course ready course
  rw [started] at names
  obtain ⟨e, e', rfl⟩ : ∃ e e', executed = [e, e'] := List.length_eq_two.1 (by
    rw [← List.length_map Executed.name, ← names]
    rfl)
  obtain ⟨name, name'⟩ : e.name = ⟨"id-1", "id-2", "postMessage", 0⟩ ∧
      e'.name = ⟨"id-1", "id-3", "postMessage", 1⟩ := by simpa using names.symm
  have flat : ∀ a ∈ s.flow.steps, ∀ slot, a.flowIn slot = none := by
    rw [flow]
    simp [post, Action.flowIn]
  have posted : ∀ step ∈ [e, e'], step.name.executionId = "id-1" → ∀ payload,
      [post false, post true][step.name.index]? = some (post payload) →
        step.posted? = some (message payload) := by
    intro step mem execution payload place
    have found := (course.executes mem).getElem? flat
    rw [Executor.topLevel, flow] at found
    have same : post payload = step.action := Option.some.inj (place.symm.trans found)
    rw [Executed.posted?, ← same]
    exact congrArg (fun id => some (Message.mk "a" (.bool payload) (some id))) execution
  have first := posted e (by simp) (by rw [name]) false (by rw [name]; rfl)
  have second := posted e' (by simp) (by rw [name']) true (by rw [name']; rfl)
  exact ⟨s, [e, e'], prepared, course, by simp [first, second], reported ▸ run_eq prepared⟩

end StepFlow.CommandLine
