import Pouch.Device.SessionEvents
import Pouch.Shared.Mailbox

set_option autoImplicit false

/-!
# Events on their way to the application

`pouch_event_emit` puts an event into a queue and submits the work item that hands the queue to the handlers. The
other parties run while the transport is in there. What `pouch_uplink_start` does after it, to submit the work on
blocks that wait, uses none of the event queue and is taken with the step that emits.
-/

namespace Pouch

-- `pouch_event_q` and `event_work`. A handler is given by its place in the section.
abbrev EventQueue := Mailbox.State PouchEvent Nat

-- `k_msgq_put`, whose result is not looked at, and `k_work_submit_to_queue`.
def pouchEventEmit (event : PouchEvent) : List (Mailbox.Op PouchEvent) := [.put event, .notify]

/-- The library with its event queue. `emitting` is what the transport has still to do in `pouch_event_emit`. -/
structure EventDevice (Key : Type) where
  device : Device Key
  events : EventQueue
  emitting : List (Mailbox.Op PouchEvent)

def EventDevice.boot (Key : Type) (cfg : Config) : EventDevice Key := ⟨.boot Key cfg, .empty, []⟩

inductive EventDeviceOp (Key : Type) where
  | device (op : DeviceOp Key)
  | emit
  -- The work queue calls `dispatch_events`, which takes one event after the other.
  | dispatchBegin
  | dispatchTurn

inductive EventReport where
  | device (event : Event)
  | events (event : Mailbox.Event PouchEvent Nat)

def EventReport.device? : EventReport → Option Event
  | .device event => some event
  | .events _ => none

def EventReport.events? : EventReport → Option (Mailbox.Event PouchEvent Nat)
  | .device _ => none
  | .events event => some event

def deviceLog (log : List EventReport) : List Event := log.filterMap EventReport.device?

def eventLog (log : List EventReport) : List (Mailbox.Event PouchEvent Nat) := log.filterMap EventReport.events?

def Party.emits : Party → Bool
  | .start | .read | .finish => true
  | _ => false

section Model

variable {Key : Type} (cfg : Config) (depth handlers : Nat)

-- `depth` is CONFIG_POUCH_EVENT_QUEUE_DEPTH.
def eventQueueStep (state : EventDevice Key) (op : Mailbox.Op PouchEvent) : EventDevice Key × List EventReport :=
  let (events, reported) := Mailbox.step depth (List.range handlers) state.events op
  ({ state with events := events }, reported.map .events)

def EventDevice.step (state : EventDevice Key) : EventDeviceOp Key → EventDevice Key × List EventReport
  | .device op =>
    if op.party.emits = true ∧ state.emitting ≠ [] then
      (state, [])
    else
      let (device, reported) := state.device.step cfg op
      ({ state with
          device := device
          emitting := state.emitting ++ (emissions reported).flatMap pouchEventEmit },
        reported.map .device)
  | .emit =>
    match state.emitting with
    | [] => (state, [])
    | op :: rest => eventQueueStep depth handlers { state with emitting := rest } op
  | .dispatchBegin => eventQueueStep depth handlers state .begin
  | .dispatchTurn => eventQueueStep depth handlers state .turn

end Model

section Logs

variable (first second : List EventReport)

@[simp] theorem deviceLog_append : deviceLog (first ++ second) = deviceLog first ++ deviceLog second :=
  List.filterMap_append

@[simp] theorem eventLog_append : eventLog (first ++ second) = eventLog first ++ eventLog second :=
  List.filterMap_append

@[simp] theorem deviceLog_device (log : List Event) : deviceLog (log.map .device) = log := by
  simp [deviceLog, List.filterMap_map, Function.comp_def, EventReport.device?]

@[simp] theorem deviceLog_events (log : List (Mailbox.Event PouchEvent Nat)) : deviceLog (log.map .events) = [] := by
  simp [deviceLog, EventReport.device?]

@[simp] theorem eventLog_device (log : List Event) : eventLog (log.map .device) = [] := by
  simp [eventLog, EventReport.events?]

@[simp] theorem eventLog_events (log : List (Mailbox.Event PouchEvent Nat)) : eventLog (log.map .events) = log := by
  simp [eventLog, List.filterMap_map, Function.comp_def, EventReport.events?]

end Logs

def unput (emitting : List (Mailbox.Op PouchEvent)) : List PouchEvent :=
  emitting.filterMap fun op =>
    match op with
    | .put event => some event
    | _ => none

@[simp] theorem unput_append (first second : List (Mailbox.Op PouchEvent)) :
    unput (first ++ second) = unput first ++ unput second :=
  List.filterMap_append

@[simp] theorem unput_emissions (events : List PouchEvent) : unput (events.flatMap pouchEventEmit) = events := by
  induction events with
  | nil => rfl
  | cons event rest ih => simpa [pouchEventEmit, unput] using ih

section Flow

variable {Key : Type} {cfg : Config} {depth handlers : Nat}

structure EventFlow (cfg : Config) (depth handlers : Nat) (state : EventDevice Key) (log : List EventReport) :
    Prop where
  formed : state.device.Formed cfg
  paired : EventsPaired state.device (emissions (deviceLog log))
  queued : Mailbox.Sound depth (List.range handlers) state.events (eventLog log)
  flow : emissions (deviceLog log) = Mailbox.offered (eventLog log) ++ unput state.emitting

theorem EventFlow.queueStep {state : EventDevice Key} {log : List EventReport}
    (flow : EventFlow cfg depth handlers state log) (op : Mailbox.Op PouchEvent) (emitting : List (Mailbox.Op PouchEvent))
    (put : Mailbox.offered (Mailbox.step depth (List.range handlers) state.events op).2 ++ unput emitting =
      unput state.emitting) :
    EventFlow cfg depth handlers (eventQueueStep depth handlers { state with emitting := emitting } op).1
      (log ++ (eventQueueStep depth handlers { state with emitting := emitting } op).2) := by
  refine ⟨flow.formed, ?_, ?_, ?_⟩
  · simpa [eventQueueStep] using flow.paired
  · simpa [eventQueueStep] using flow.queued.step op
  · simp only [eventQueueStep, deviceLog_append, deviceLog_events, List.append_nil, eventLog_append, eventLog_events,
      Mailbox.offered_append, List.append_assoc, put]
    exact flow.flow

theorem offered_step (depth handlers : Nat) (events : EventQueue) (op : Mailbox.Op PouchEvent) :
    Mailbox.offered (Mailbox.step depth (List.range handlers) events op).2 = unput [op] := by
  cases op with
  | put event =>
    simp only [Mailbox.step]
    split_ifs <;> rfl
  | notify =>
    simp only [Mailbox.step]
    split_ifs <;> rfl
  | begin =>
    simp only [Mailbox.step]
    split_ifs <;> rfl
  | turn =>
    obtain ⟨queue, notifying, pending, worker⟩ := events
    simp only [Mailbox.step, Mailbox.turn]
    cases worker with
    | none => rfl
    | some calls =>
      cases calls with
      | cons call rest => rfl
      | nil => cases queue <;> rfl

theorem EventFlow.step {state : EventDevice Key} {log : List EventReport}
    (flow : EventFlow cfg depth handlers state log) (op : EventDeviceOp Key) :
    EventFlow cfg depth handlers (state.step cfg depth handlers op).1
      (log ++ (state.step cfg depth handlers op).2) := by
  cases op with
  | device op =>
    simp only [EventDevice.step]
    split_ifs with inside
    · simpa using flow
    · refine ⟨(Device.step_traced cfg).formed state.device op flow.formed, ?_, ?_, ?_⟩
      · simpa using eventsPaired_step cfg state.device op flow.formed (deviceLog log) flow.paired
      · simpa using flow.queued
      · simp [flow.flow]
  | emit =>
    simp only [EventDevice.step]
    cases emitting : state.emitting with
    | nil => simpa using flow
    | cons op rest =>
      apply flow.queueStep
      rw [offered_step, emitting]
      exact (unput_append [op] rest).symm
  | dispatchBegin => exact flow.queueStep .begin state.emitting (by rw [offered_step]; rfl)
  | dispatchTurn => exact flow.queueStep .turn state.emitting (by rw [offered_step]; rfl)

theorem run_eventFlow (cfg : Config) (depth handlers : Nat) (ops : List (EventDeviceOp Key)) :
    let reached := History.run (EventDevice.step cfg depth handlers) ⟨.boot Key cfg, []⟩ ops
    EventFlow cfg depth handlers reached.state reached.log := by
  apply History.run_invariant (EventDevice.step cfg depth handlers) (fun _ _ => True)
    (fun reached => EventFlow cfg depth handlers reached.state reached.log)
  · refine ⟨Device.boot_formed cfg, ?_, .empty, rfl⟩
    exact ⟨trivial, by simp [EventDevice.boot, Device.boot, deviceLog, emissions],
      by simp [EventDevice.boot, Device.boot]⟩
  · exact History.meets_of_forall _ _ _ _ fun _ _ _ => trivial
  · exact fun reached op _ flow => flow.step op

end Flow

theorem Alternating.of_prefix {first : PouchEvent} {some' all : List PouchEvent} (alternating : Alternating first all)
    (before : some' <+: all) : Alternating first some' := by
  induction some' generalizing first all with
  | nil => trivial
  | cons event rest ih =>
    obtain ⟨others, rfl⟩ := before
    exact ⟨alternating.1, ih alternating.2 (List.prefix_append rest others)⟩

/-- What a handler is told of, whatever the parties do: a part of the emitted events, in order. If no event found the
queue full, starts and ends alternate for it; and when the queue is at rest and the transport in no call, a session is
active exactly if the last it was told of is a start. -/
theorem handlers_follow_sessions {Key : Type} (cfg : Config) (depth handlers : Nat) (ops : List (EventDeviceOp Key))
    (handler : Nat) (registered : handler < handlers) :
    let reached := History.run (EventDevice.step cfg depth handlers) ⟨.boot Key cfg, []⟩ ops
    let seen := Mailbox.received handler (eventLog reached.log)
    seen.Sublist (emissions (deviceLog reached.log)) ∧
      (Mailbox.lost (eventLog reached.log) = [] → Alternating .sessionStart seen ∧
        (Mailbox.AtRest reached.state.events → reached.state.emitting = [] → reached.state.device.starting = none →
          (reached.state.device.uplink.sessionActive = true ↔ seen.getLast? = some .sessionStart))) := by
  intro reached seen
  have flow : EventFlow cfg depth handlers reached.state reached.log := run_eventFlow cfg depth handlers ops
  have member : handler ∈ List.range handlers := List.mem_range.mpr registered
  have inOrder : seen <+: Mailbox.accepted (eventLog reached.log) :=
    flow.queued.received_prefix handler List.nodup_range member
  have offered : (Mailbox.offered (eventLog reached.log)) <+: emissions (deviceLog reached.log) := by
    rw [flow.flow]
    exact List.prefix_append _ _
  refine ⟨inOrder.sublist.trans ((Mailbox.accepted_sublist _).trans offered.sublist), ?_⟩
  intro kept
  have all := Mailbox.accepted_eq_offered _ kept
  refine ⟨flow.paired.alternating.of_prefix (inOrder.trans (by rw [all]; exact offered)), ?_⟩
  intro rest emitted outside
  have everything : seen = emissions (deviceLog reached.log) := by
    have whole := flow.flow
    rw [emitted] at whole
    simp only [unput, List.filterMap_nil, List.append_nil] at whole
    rw [whole, ← all]
    exact flow.queued.received_atRest rest handler List.nodup_range member
  rw [everything]
  exact flow.paired.idle outside

-- A session that is read to its end, with two handlers; the second emission meets the worker between two deliveries.
def eventOps : List (EventDeviceOp Unit) :=
  (startedOps ++ [.closeCall, .closeReturn none, workerRun]).map .device ++
    [.emit, .emit, .dispatchBegin, .dispatchTurn, .dispatchTurn, .device (.fill 8), .emit, .dispatchTurn, .emit,
      .dispatchTurn, .dispatchTurn, .dispatchTurn, .dispatchTurn, .dispatchBegin, .dispatchTurn]

def eventRun : History (EventDevice Unit) EventReport :=
  History.run (EventDevice.step (defaultConfig .none) 4 2) ⟨.boot Unit (defaultConfig .none), []⟩ eventOps

theorem handlers_follow_sessions_sample :
    Mailbox.received 1 (eventLog eventRun.log) = [.sessionStart, .sessionEnd] ∧
      (Mailbox.received 1 (eventLog eventRun.log)).Sublist (emissions (deviceLog eventRun.log)) ∧
      Alternating .sessionStart (Mailbox.received 1 (eventLog eventRun.log)) := by
  have follows := handlers_follow_sessions (defaultConfig .none) 4 2 eventOps 1 (by decide)
  exact ⟨by decide +kernel, follows.1, (follows.2 (by decide +kernel)).1⟩

section Progress

variable {Key : Type} {cfg : Config} {depth handlers : Nat}

def EventDevice.Emitting (state : EventDevice Key) : Prop :=
  ∃ events : List PouchEvent,
    (state.emitting = events.flatMap pouchEventEmit ∧ state.events.notifying = 0) ∨
      (state.emitting = .notify :: events.flatMap pouchEventEmit ∧ state.events.notifying = 1)

theorem worker_notifying (op : Mailbox.Op PouchEvent) (worker : op.isWorker = true) (events : EventQueue) :
    (Mailbox.step depth (List.range handlers) events op).1.notifying = events.notifying := by
  obtain ⟨queue, notifying, pending, running⟩ := events
  cases op with
  | put event => simp [Mailbox.Op.isWorker] at worker
  | notify => simp [Mailbox.Op.isWorker] at worker
  | begin =>
    simp only [Mailbox.step]
    split_ifs <;> rfl
  | turn =>
    simp only [Mailbox.step, Mailbox.turn]
    cases running with
    | none => rfl
    | some calls =>
      cases calls with
      | cons call rest => rfl
      | nil => cases queue <;> rfl

theorem put_notifying (event : PouchEvent) (events : EventQueue) :
    (Mailbox.step depth (List.range handlers) events (.put event)).1.notifying = events.notifying + 1 := by
  simp only [Mailbox.step]
  split_ifs <;> rfl

theorem Emitting.step {state : EventDevice Key} (emitting : state.Emitting) (op : EventDeviceOp Key) :
    (state.step cfg depth handlers op).1.Emitting := by
  obtain ⟨events, here⟩ := emitting
  cases op with
  | device op =>
    simp only [EventDevice.step]
    split_ifs with inside
    · exact ⟨events, here⟩
    · refine ⟨events ++ emissions (state.device.step cfg op).2, here.imp ?_ ?_⟩
      · rintro ⟨same, none'⟩
        exact ⟨by simp [same], none'⟩
      · rintro ⟨same, one⟩
        exact ⟨by simp [same], one⟩
  | emit =>
    simp only [EventDevice.step]
    rcases here with ⟨same, none'⟩ | ⟨same, one⟩
    · cases events with
      | nil =>
        simp only [List.flatMap_nil] at same
        simp only [same]
        exact ⟨[], .inl ⟨same, none'⟩⟩
      | cons event rest =>
        have head : state.emitting = .put event :: .notify :: rest.flatMap pouchEventEmit := same
        simp only [head, eventQueueStep]
        exact ⟨rest, .inr ⟨rfl, by rw [put_notifying, none']⟩⟩
    · simp only [same, eventQueueStep]
      exact ⟨events, .inl ⟨rfl, by simp [Mailbox.step, one]⟩⟩
  | dispatchBegin => exact ⟨events, by simpa only [EventDevice.step, eventQueueStep, worker_notifying .begin rfl] using here⟩
  | dispatchTurn => exact ⟨events, by simpa only [EventDevice.step, eventQueueStep, worker_notifying .turn rfl] using here⟩

def EventDeviceOp.isDevice : EventDeviceOp Key → Bool
  | .device _ => true
  | _ => false

variable (cfg depth handlers)

theorem emission_ends (history : History (EventDevice Key) EventReport) :
    ∃ count, (History.run (EventDevice.step cfg depth handlers) history (List.replicate count .emit)).state.emitting =
        [] := by
  generalize left : history.state.emitting = emitting
  induction emitting generalizing history with
  | nil => exact ⟨0, left⟩
  | cons op rest ih =>
    have next : (history.record (EventDevice.step cfg depth handlers) .emit).state.emitting = rest := by
      simp only [History.record, EventDevice.step, left, eventQueueStep]
    obtain ⟨count, done⟩ := ih _ next
    exact ⟨count + 1, by rwa [List.replicate_succ, History.run_cons]⟩

theorem run_dispatch (ops : List (Mailbox.Op PouchEvent)) (worker : ∀ op ∈ ops, op.isWorker = true)
    (history : History (EventDevice Key) EventReport) :
    ∃ steps : List (EventDeviceOp Key), (∀ op ∈ steps, op.isDevice = false) ∧
      let reached := History.run (EventDevice.step cfg depth handlers) history steps
      reached.state.emitting = history.state.emitting ∧
      (⟨reached.state.events, eventLog reached.log⟩ : History EventQueue (Mailbox.Event PouchEvent Nat)) =
        History.run (Mailbox.step depth (List.range handlers)) ⟨history.state.events, eventLog history.log⟩ ops := by
  induction ops generalizing history with
  | nil => exact ⟨[], by simp, rfl, rfl⟩
  | cons op rest ih =>
    simp only [List.mem_cons, forall_eq_or_imp] at worker
    obtain ⟨first, quiet, taken⟩ : ∃ first : EventDeviceOp Key, first.isDevice = false ∧
        history.state.step cfg depth handlers first = eventQueueStep depth handlers history.state op := by
      cases op with
      | put event => simp [Mailbox.Op.isWorker] at worker
      | notify => simp [Mailbox.Op.isWorker] at worker
      | begin => exact ⟨.dispatchBegin, rfl, rfl⟩
      | turn => exact ⟨.dispatchTurn, rfl, rfl⟩
    obtain ⟨steps, others, emitting, reached⟩ :=
      ih worker.2 (history.record (EventDevice.step cfg depth handlers) first)
    refine ⟨first :: steps, ?_, ?_, ?_⟩
    · simpa [quiet] using others
    · rw [History.run_cons, emitting]
      simp only [History.record, taken, eventQueueStep]
    · rw [History.run_cons, reached, History.run_cons]
      simp [History.record, taken, eventQueueStep]

end Progress

/-- No accepted event is stuck: from every state that is reached, the end of the emission and runs of the work queue
are enough for every handler to be given all of them. -/
theorem events_reach_handlers {Key : Type} (cfg : Config) (depth handlers : Nat) (ops : List (EventDeviceOp Key)) :
    ∃ steps : List (EventDeviceOp Key), (∀ op ∈ steps, op.isDevice = false) ∧
      let reached := History.run (EventDevice.step cfg depth handlers) ⟨.boot Key cfg, []⟩ (ops ++ steps)
      reached.state.emitting = [] ∧ Mailbox.AtRest reached.state.events ∧
        ∀ handler < handlers, Mailbox.received handler (eventLog reached.log) =
          Mailbox.accepted (eventLog reached.log) := by
  let boot : History (EventDevice Key) EventReport := ⟨.boot Key cfg, []⟩
  obtain ⟨count, emitted⟩ := emission_ends cfg depth handlers (History.run (EventDevice.step cfg depth handlers) boot ops)
  have emitting : (History.run (EventDevice.step cfg depth handlers) boot
      (ops ++ List.replicate count .emit)).state.Emitting := by
    apply History.run_invariant (EventDevice.step cfg depth handlers) (fun _ _ => True)
      (fun reached => reached.state.Emitting)
    · exact ⟨[], .inl ⟨rfl, rfl⟩⟩
    · exact History.meets_of_forall _ _ _ _ fun _ _ _ => trivial
    · exact fun reached op _ holds => Emitting.step holds op
  rw [← History.run_append] at emitted
  have notified : (History.run (EventDevice.step cfg depth handlers) boot
      (ops ++ List.replicate count .emit)).state.events.notifying = 0 := by
    obtain ⟨events, ⟨_, none'⟩ | ⟨same, _⟩⟩ := emitting
    · exact none'
    · simp [emitted] at same
  obtain ⟨worker, steps, rest⟩ := Mailbox.comes_to_rest depth (List.range handlers)
    ⟨_, eventLog (History.run (EventDevice.step cfg depth handlers) boot (ops ++ List.replicate count .emit)).log⟩
    notified
  obtain ⟨dispatch, quiet, still, reached⟩ := run_dispatch cfg depth handlers worker steps
    (History.run (EventDevice.step cfg depth handlers) boot (ops ++ List.replicate count .emit))
  rw [← History.run_append, List.append_assoc] at still reached
  have atRest : Mailbox.AtRest (History.run (EventDevice.step cfg depth handlers) boot
      (ops ++ (List.replicate count .emit ++ dispatch))).state.events := by
    rw [← reached] at rest
    exact rest
  refine ⟨List.replicate count .emit ++ dispatch, ?_, still.trans emitted, atRest, ?_⟩
  · intro op member
    rcases List.mem_append.mp member with first | second
    · rw [(List.mem_replicate.mp first).2]
      rfl
    · exact quiet op second
  · intro handler registered
    exact (run_eventFlow cfg depth handlers _).queued.received_atRest atRest handler List.nodup_range
      (List.mem_range.mpr registered)

section Room

variable {Key : Type} {cfg : Config} {depth : Nat} (handlers : Nat)

structure Unlost (state : EventDevice Key) (log : List EventReport) : Prop where
  flow : emissions (deviceLog log) = Mailbox.offered (eventLog log) ++ unput state.emitting
  held : state.events.queue.length ≤ (Mailbox.offered (eventLog log)).length
  kept : Mailbox.lost (eventLog log) = []

theorem unput_singleton (op : Mailbox.Op PouchEvent) : (unput [op]).length = if op.isPut then 1 else 0 := by
  cases op <;> rfl

theorem Unlost.queueStep {state : EventDevice Key} {log : List EventReport} (unlost : Unlost state log)
    (op : Mailbox.Op PouchEvent) (emitting : List (Mailbox.Op PouchEvent))
    (put : unput [op] ++ unput emitting = unput state.emitting)
    (few : (emissions (deviceLog log)).length ≤ depth) :
    Unlost (eventQueueStep depth handlers { state with emitting := emitting } op).1
      (log ++ (eventQueueStep depth handlers { state with emitting := emitting } op).2) := by
  have counted := congrArg List.length unlost.flow
  have one := congrArg List.length put
  simp only [List.length_append, unput_singleton] at counted one
  have room : op.isPut = true → state.events.queue.length < depth := by
    intro isPut
    have held := unlost.held
    simp only [isPut, if_true] at one
    omega
  obtain ⟨kept, grown⟩ := Mailbox.step_room depth (List.range handlers) state.events op room
  refine ⟨?_, ?_, ?_⟩
  · simp only [eventQueueStep, deviceLog_append, deviceLog_events, List.append_nil, eventLog_append, eventLog_events,
      Mailbox.offered_append, offered_step, List.append_assoc, put]
    exact unlost.flow
  · have held := unlost.held
    simp only [eventQueueStep, eventLog_append, eventLog_events, Mailbox.offered_append, offered_step,
      List.length_append, unput_singleton]
    omega
  · simp [eventQueueStep, unlost.kept, kept]

theorem Unlost.step {state : EventDevice Key} {log : List EventReport} (unlost : Unlost state log)
    (op : EventDeviceOp Key) (few : (emissions (deviceLog log)).length ≤ depth) :
    Unlost (state.step cfg depth handlers op).1 (log ++ (state.step cfg depth handlers op).2) := by
  cases op with
  | device op =>
    simp only [EventDevice.step]
    split_ifs with inside
    · simpa using unlost
    · exact ⟨by simp [unlost.flow], by simpa using unlost.held, by simpa using unlost.kept⟩
  | emit =>
    simp only [EventDevice.step]
    cases emitting : state.emitting with
    | nil => simpa using unlost
    | cons op rest => exact unlost.queueStep handlers op rest (by rw [emitting]; exact (unput_append [op] rest).symm) few
  | dispatchBegin => exact unlost.queueStep handlers .begin state.emitting rfl few
  | dispatchTurn => exact unlost.queueStep handlers .turn state.emitting rfl few

theorem Unlost.run {history : History (EventDevice Key) EventReport} (unlost : Unlost history.state history.log)
    (ops : List (EventDeviceOp Key))
    (few : (emissions (deviceLog (History.run (EventDevice.step cfg depth handlers) history ops).log)).length ≤ depth) :
    Mailbox.lost (eventLog (History.run (EventDevice.step cfg depth handlers) history ops).log) = [] := by
  induction ops generalizing history with
  | nil => exact unlost.kept
  | cons op rest ih =>
    rw [History.run_cons] at few ⊢
    apply ih _ few
    apply unlost.step handlers
    -- What was emitted before is a part of what is emitted in the whole run.
    obtain ⟨more, whole⟩ := History.log_prefix (EventDevice.step cfg depth handlers) history (op :: rest)
    rw [History.run_cons] at whole
    rw [← whole] at few
    simp only [deviceLog_append, emissions_append, List.length_append] at few
    omega

end Room

/-- From a state with nothing in the queue and the transport in no emission on, no event is lost as long as the queue
has room for all that are emitted, whenever the work queue runs. -/
theorem no_event_lost {Key : Type} (cfg : Config) (depth handlers : Nat) (state : EventDevice Key)
    (empty : state.events.queue = []) (outside : state.emitting = []) (ops : List (EventDeviceOp Key))
    (few : (emissions (deviceLog (History.run (EventDevice.step cfg depth handlers) ⟨state, []⟩ ops).log)).length ≤
      depth) :
    Mailbox.lost (eventLog (History.run (EventDevice.step cfg depth handlers) ⟨state, []⟩ ops).log) = [] :=
  Unlost.run handlers ⟨by rw [outside]; rfl, by rw [empty]; exact Nat.zero_le _, rfl⟩ ops few

theorem no_event_lost_sample : Mailbox.lost (eventLog eventRun.log) = [] :=
  no_event_lost (defaultConfig .none) 4 2 (.boot Unit (defaultConfig .none)) rfl rfl eventOps (by decide +kernel)

end Pouch
