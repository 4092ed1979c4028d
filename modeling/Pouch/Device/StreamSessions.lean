import Pouch.Device.UplinkFifo
import Pouch.StreamDelivery

set_option autoImplicit false

namespace Pouch

variable {Key : Type}

def Event.sentFor : Event → Option (Owner × Nat)
  | .processed block _ _ _ sessionId => some (block.owner, sessionId)
  | _ => none

def OpenedIn (log : List Event) (handle session : Nat) : Prop :=
  ∃ stream, .streamOpened handle stream ∈ log ∧ stream.sessionId = session

theorem OpenedIn.later {log : List Event} {handle session : Nat} (opened : OpenedIn log handle session)
    (more : List Event) : OpenedIn (log ++ more) handle session := by
  obtain ⟨stream, member, same⟩ := opened
  exact ⟨stream, List.mem_append_left more member, same⟩

/-- Every stream block that goes into a pouch is of a stream that was opened in the session of that
pouch. -/
def StreamsOfSession (log : List Event) : Prop :=
  ∀ block header sent starting sessionId, .processed block header sent starting sessionId ∈ log →
    ∀ handle session, block.owner = .stream handle session →
      session = sessionId ∧ OpenedIn log handle session

def BelongsTo (log : List Event) (sessionId : Nat) (block : Buf) : Prop :=
  ∀ handle session, block.owner = .stream handle session → session = sessionId ∧ OpenedIn log handle session

theorem BelongsTo.later {log : List Event} {sessionId : Nat} {block : Buf}
    (belongs : BelongsTo log sessionId block) (more : List Event) : BelongsTo (log ++ more) sessionId block := by
  intro handle session owner
  obtain ⟨same, opened⟩ := belongs handle session owner
  exact ⟨same, opened.later more⟩

structure Device.Owned (device : Device Key) : Prop where
  entries : ∀ block, device.entryBlock = some block → block.owner = .entries
  streams : ∀ handle stream, device.streams handle = some stream →
    stream.buf.owner = .stream handle stream.sessionId ∧ stream.Unfinished
  bound : ∀ handle stream, device.streams handle = some stream → handle < device.nextHandle

structure SessionOwned (device : Device Key) (log : List Event) : Prop where
  owned : device.Owned
  opened : ∀ handle stream, device.streams handle = some stream → OpenedIn log handle stream.sessionId
  waiting : ∀ block ∈ device.uplink.queue, BelongsTo log device.uplink.id block
  processed : StreamsOfSession log

section Step

variable {device next : Device Key} {log : List Event} {event : Event}

theorem StreamsOfSession.later (sessions : StreamsOfSession log)
    (new : ∀ block header sent starting sessionId,
      event = .processed block header sent starting sessionId → BelongsTo log sessionId block) :
    StreamsOfSession (log ++ [event]) := by
  intro block header sent starting sessionId member
  rw [List.mem_append, List.mem_singleton] at member
  rcases member with old | isNew
  · exact BelongsTo.later (sessions block header sent starting sessionId old) [event]
  · exact BelongsTo.later (new block header sent starting sessionId isNew.symm) [event]

theorem StreamsOfSession.other (sessions : StreamsOfSession log) (silent : event.sentFor = none) :
    StreamsOfSession (log ++ [event]) := by
  apply sessions.later
  rintro block header sent starting sessionId rfl
  simp [Event.sentFor] at silent

theorem SmallStep.owned (small : SmallStep device event next) (owned : device.Owned) : next.Owned := by
  refine ⟨?_, ?_, small.streams_bound owned.bound⟩
  · cases small with
    | entryOpened block closed id owner header =>
      rintro opened ⟨⟩
      exact owner
    | entryAccepted opened block entry held id owner contents =>
      rintro other ⟨⟩
      exact owner.trans (owned.entries opened held)
    | entryPassed => exact nofun
    | _ => exact owned.entries
  · cases small with
    | streamOpened stream streamId id session owner unfinished =>
      refine forall_update owned.streams _ _ ?_
      rintro other ⟨⟩
      exact ⟨owner, unfinished⟩
    | streamWrote handle old stream held id owner session unfinished =>
      refine forall_update owned.streams _ _ ?_
      rintro other ⟨⟩
      obtain ⟨before, wasUnfinished⟩ := owned.streams handle old held
      exact ⟨by rw [owner, session, before], unfinished wasUnfinished⟩
    | streamPassed handle old stream block held valid id owner fresh session freshOwner unfinished =>
      refine forall_update owned.streams _ _ ?_
      rintro other ⟨⟩
      exact ⟨freshOwner, (unfinished (owned.streams handle old held).2).1⟩
    | streamClosed => exact forall_update owned.streams _ _ nofun
    | streamDiscarded => exact forall_update owned.streams _ _ nofun
    | _ => exact owned.streams

theorem SessionOwned.block_belongs (session : SessionOwned device log) {handle : Nat} {stream : UplinkStream}
    {block : Buf} (held : device.streams handle = some stream) (valid : stream.sessionId = device.uplink.id)
    (owner : block.owner = stream.buf.owner) : BelongsTo log device.uplink.id block := by
  intro other number isOwner
  rw [owner, (session.owned.streams handle stream held).1] at isOwner
  cases isOwner
  exact ⟨valid, session.opened handle stream held⟩

theorem SessionOwned.enqueue (session : SessionOwned device log) (event : Event) (block : Buf)
    (belongs : BelongsTo log device.uplink.id block) :
    ∀ waiting ∈ (uplinkEnqueue device.uplink block).queue,
      BelongsTo (log ++ [event]) device.uplink.id waiting := by
  intro waiting member
  simp only [uplinkEnqueue, List.mem_append, List.mem_singleton] at member
  rcases member with old | rfl
  · exact (session.waiting waiting old).later [event]
  · exact belongs.later [event]

theorem SessionOwned.opened_step (session : SessionOwned device log) (small : SmallStep device event next) :
    ∀ handle stream, next.streams handle = some stream → OpenedIn (log ++ [event]) handle stream.sessionId := by
  have opened : ∀ handle stream, device.streams handle = some stream →
      OpenedIn (log ++ [event]) handle stream.sessionId :=
    fun handle stream held => (session.opened handle stream held).later [event]
  cases small with
  | streamOpened stream streamId id =>
    refine forall_update opened _ _ ?_
    rintro other ⟨⟩
    exact ⟨stream, by simp, rfl⟩
  | streamWrote handle old stream held id owner same =>
    refine forall_update opened _ _ ?_
    rintro other ⟨⟩
    rw [same]
    exact opened handle old held
  | streamPassed handle old stream block held valid id owner fresh same =>
    refine forall_update opened _ _ ?_
    rintro other ⟨⟩
    rw [same]
    exact opened handle old held
  | streamClosed => exact forall_update opened _ _ nofun
  | streamDiscarded => exact forall_update opened _ _ nofun
  | _ => exact opened

theorem SessionOwned.waiting_step (session : SessionOwned device log) (small : SmallStep device event next)
    (emptied : ∀ reader transport waiting, event = .finished reader transport waiting →
      ∀ block ∈ waiting, block.isStream = false) :
    ∀ block ∈ next.uplink.queue, BelongsTo (log ++ [event]) next.uplink.id block := by
  have waiting : ∀ block ∈ device.uplink.queue, BelongsTo (log ++ [event]) device.uplink.id block :=
    fun block member => (session.waiting block member).later [event]
  cases small with
  | entryPassed opened block held id owner contents =>
    refine session.enqueue _ block fun handle number isOwner => ?_
    simp [owner, session.owned.entries opened held] at isOwner
  | streamPassed handle old stream block held valid id owner =>
    exact session.enqueue _ block (session.block_belongs held valid owner)
  | streamClosed handle stream block held valid id owner =>
    exact session.enqueue _ block (session.block_belongs held valid owner)
  | enqueued block id owner =>
    refine session.enqueue _ block fun handle number isOwner => ?_
    simp [owner] at isOwner
  | processed block sent rest crypto pool active opened queue =>
    exact fun other member => waiting other (by rw [queue]; exact List.mem_cons_of_mem block member)
  | dropped block rest crypto pool active opened queue =>
    exact fun other member => waiting other (by rw [queue]; exact List.mem_cons_of_mem block member)
  | finished pool idle exchange =>
    -- The session counts on: only blocks of no stream may stay in the queue.
    intro block member handle number owner
    have none' := emptied _ _ _ rfl block member
    simp [Buf.isStream, owner] at none'
  | _ => exact waiting

theorem SessionOwned.step (small : SmallStep device event next)
    (emptied : ∀ reader transport waiting, event = .finished reader transport waiting →
      ∀ block ∈ waiting, block.isStream = false)
    (session : SessionOwned device log) : SessionOwned next (log ++ [event]) := by
  refine ⟨small.owned session.owned, session.opened_step small, session.waiting_step small emptied, ?_⟩
  cases small with
  | processed block sent rest crypto pool active opened queue =>
    refine session.processed.later ?_
    rintro _ _ _ _ _ ⟨⟩
    exact session.waiting block (by rw [queue]; exact List.mem_cons_self)
  | downlink _ pool crypto downlink on build exchange =>
    refine session.processed.other ?_
    rcases Event.of_downlink on with ⟨_, rfl⟩ | rfl | ⟨_, _, rfl⟩ | ⟨_, rfl⟩ <;> rfl
  | _ => exact session.processed.other rfl

end Step

/-- `pouch_uplink_finish` finds no block of a stream in the processing queue. -/
def FinishesSettled (history : History (Device Key) Event) : DeviceOp Key → Prop
  | .finish => history.state.starting = none → ∀ block ∈ history.state.uplink.queue, block.isStream = false
  | _ => True

theorem finish_reports (cfg : Config) (device : Device Key) (op : DeviceOp Key) (formed : device.Formed cfg)
    {reader : Option Outgoing} {transport : List Outgoing} {waiting : List Buf}
    (member : .finished reader transport waiting ∈ (device.step cfg op).2) :
    op = .finish ∧ device.starting = none ∧ reader = device.uplink.reader ∧ transport = device.uplink.transport ∧
      waiting = device.uplink.queue := by
  have party : Party.finish = op.party := by
    simpa [Event.party] using Event.party_of_reportedBy ((Device.step_call cfg device op formed).parties _ member)
  cases op with
  | finish =>
    simp only [Device.step, Device.inTransport] at member
    split_ifs at member with busy
    · simp at member
    · refine ⟨rfl, by simpa using busy, ?_⟩
      simp only [pouchUplinkFinish] at member
      split_ifs at member <;> simpa using member
  | _ => simp [DeviceOp.party] at party

/-- In a run in which no block of a stream waits in the processing queue at the end of a session,
every stream block is sent in the session that its stream was opened in. -/
theorem streams_stay_in_session (cfg : Config) (ops : List (DeviceOp Key))
    (settled : History.Meets (Device.step cfg) FinishesSettled ⟨.boot Key cfg, []⟩ ops) :
    StreamsOfSession (History.run (Device.step cfg) ⟨.boot Key cfg, []⟩ ops).log := by
  have owned := (Device.step_traced cfg).run_invariant FinishesSettled
    (fun event => ∀ reader transport waiting, event = .finished reader transport waiting →
      ∀ block ∈ waiting, block.isStream = false) SessionOwned ⟨.boot Key cfg, []⟩ ops
    (Device.boot_formed cfg) ⟨⟨nofun, nofun, nofun⟩, nofun, nofun, nofun⟩ settled ?_ ?_
  · exact owned.processed
  · rintro reached op formed met _ member reader transport waiting rfl
    obtain ⟨rfl, idle, rfl, rfl, rfl⟩ := finish_reports cfg reached.state op formed member
    exact met idle
  · exact fun _ _ _ _ small emptied owned => owned.step small emptied

def streamOps : List (DeviceOp Unit) :=
  [.streamOpen samplePath 42 true (some fun _ => 0), .streamWrite 0 [1] fun _ => none, .streamClose 0]

theorem streams_stay_in_session_sample :
    History.Meets (Device.step (defaultConfig .none)) FinishesSettled ⟨.boot Unit (defaultConfig .none), []⟩
        (startedOps ++ streamOps ++ [workerRun, .finish]) ∧
      StreamsOfSession (deviceRun (startedOps ++ streamOps ++ [workerRun, .finish])).log := by
  have settled : History.Meets (Device.step (defaultConfig .none)) FinishesSettled
      ⟨.boot Unit (defaultConfig .none), []⟩ (startedOps ++ streamOps ++ [workerRun, .finish]) := by
    refine ⟨trivial, trivial, trivial, trivial, trivial, trivial, trivial, trivial, ?_, trivial⟩
    intro _ block member
    change block ∈ (deviceRun (startedOps ++ streamOps ++ [workerRun])).state.uplink.queue at member
    have emptied : (deviceRun (startedOps ++ streamOps ++ [workerRun])).state.uplink.queue.isEmpty = true := by
      decide +kernel
    rw [List.isEmpty_iff.mp emptied] at member
    simp at member
  exact ⟨settled, streams_stay_in_session (defaultConfig .none) _ settled⟩

/-- A block that still waits when a session is finished goes into the pouch of the next one. -/
theorem stream_block_leaks :
    ¬ StreamsOfSession (deviceRun (streamOps ++ startedOps ++ [.finish] ++ startedOps ++ [workerRun])).log := by
  intro sessions
  have sent : (.stream 0 0, 1) ∈ (deviceRun (streamOps ++ startedOps ++ [.finish] ++ startedOps ++
      [workerRun])).log.filterMap Event.sentFor := by
    decide +kernel
  obtain ⟨event, member, isSent⟩ := List.mem_filterMap.mp sent
  cases event with
  | processed block header sent starting sessionId =>
    simp only [Event.sentFor, Option.some.injEq, Prod.mk.injEq] at isSent
    have wrong := (sessions _ _ _ _ _ member 0 0 isSent.1).1
    omega
  | _ => simp [Event.sentFor] at isSent

end Pouch
