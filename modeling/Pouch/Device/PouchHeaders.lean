import Pouch.Device.StreamSessions

set_option autoImplicit false

namespace Pouch

variable {Key : Type}

def Event.transports : Event → List Outgoing
  | .processed block header sent _ _ => header.toList.map .header ++ [.block block sent]
  | _ => []

theorem Event.transports_downlink {event : Event} (on : event.party = .downlink) : event.transports = [] := by
  rcases Event.of_downlink on with ⟨_, rfl⟩ | rfl | ⟨_, _, rfl⟩ | ⟨_, rfl⟩ <;> rfl

def Event.activates : Event → Bool
  | .activated => true
  | _ => false

theorem Event.activates_downlink {event : Event} (on : event.party = .downlink) : event.activates = false := by
  rcases Event.of_downlink on with ⟨_, rfl⟩ | rfl | ⟨_, _, rfl⟩ | ⟨_, rfl⟩ <;> rfl

def sessionLog (log : List Event) : List Event := History.since Event.activates log

/-- What a session has put on the transport queue: nothing, or its own header and blocks after that. -/
def HeaderThenBlocks (session : List Event) : Prop :=
  session.flatMap Event.transports = [] ∨
    ∃ header overwritten blocks, session.flatMap Event.transports = .header header :: blocks ∧
      .headerCreated header overwritten ∈ session ∧ ∀ packet ∈ blocks, packet.sent?.isSome

structure HeaderFirst (device : Device Key) (log : List Event) : Prop where
  pouch : HeaderThenBlocks (sessionLog log)
  unstarted : device.starting.isSome → (sessionLog log).flatMap Event.transports = []
  created : device.starting = none → device.uplink.sessionActive = true →
    (sessionLog log).flatMap Event.transports = [] →
      ∃ header overwritten, device.uplink.header = some header ∧
        .headerCreated header overwritten ∈ sessionLog log
  sent : device.starting = none → device.uplink.sessionActive = true →
    (sessionLog log).flatMap Event.transports ≠ [] → device.uplink.header = none
  kept : ∀ block, .dropped block true ∉ log

-- A block that was taken from the processing queue: whether `pouch_uplink_start` was under way.
def Event.takenDuring : Event → Option Bool
  | .processed _ _ _ starting _ | .dropped _ starting => some starting
  | _ => none

section Step

variable {device next : Device Key} {log : List Event} {event : Event}

theorem HeaderThenBlocks.later {session : List Event} (pouch : HeaderThenBlocks session)
    (silent : event.transports = []) : HeaderThenBlocks (session ++ [event]) := by
  rcases pouch with none' | ⟨header, overwritten, blocks, transported, created, areBlocks⟩
  · exact .inl (by simp [none', silent])
  · refine .inr ⟨header, overwritten, blocks, ?_, List.mem_append_left _ created, areBlocks⟩
    simp [transported, silent]

theorem HeaderFirst.other (first : HeaderFirst device log) (notMark : event.activates = false)
    (silent : event.transports = []) (undisturbed : event.takenDuring ≠ some true)
    (starting : next.starting.isSome → device.starting.isSome)
    (same : next.starting = none → next.uplink.sessionActive = true →
      device.starting = none ∧ device.uplink.sessionActive = true ∧
        next.uplink.header = device.uplink.header) :
    HeaderFirst next (log ++ [event]) := by
  have session : sessionLog (log ++ [event]) = sessionLog log ++ [event] :=
    History.since_other _ _ _ notMark
  have transported : (sessionLog (log ++ [event])).flatMap Event.transports =
      (sessionLog log).flatMap Event.transports := by
    simp [session, silent]
  refine ⟨by rw [session]; exact first.pouch.later silent, ?_, ?_, ?_, ?_⟩
  · intro busy
    rw [transported]
    exact first.unstarted (starting busy)
  · intro idle active
    obtain ⟨wasIdle, wasActive, header⟩ := same idle active
    rw [transported, header, session]
    intro none'
    obtain ⟨created, overwritten, held, member⟩ := first.created wasIdle wasActive none'
    exact ⟨created, overwritten, held, List.mem_append_left _ member⟩
  · intro idle active
    obtain ⟨wasIdle, wasActive, header⟩ := same idle active
    rw [transported, header]
    exact first.sent wasIdle wasActive
  · intro block member
    rw [List.mem_append, List.mem_singleton] at member
    rcases member with old | rfl
    · exact first.kept block old
    · exact undisturbed rfl

theorem HeaderFirst.processed (first : HeaderFirst device log) (block sent : Buf) (sessionId : Nat)
    (idle : device.starting = none) (active : device.uplink.sessionActive = true)
    (emptied : next.uplink.header = none) (same : next.starting = device.starting) :
    HeaderFirst next (log ++ [.processed block device.uplink.header sent false sessionId]) := by
  have session : sessionLog (log ++ [.processed block device.uplink.header sent false sessionId]) =
      sessionLog log ++ [.processed block device.uplink.header sent false sessionId] :=
    History.since_other _ _ _ rfl
  have transported : (sessionLog (log ++ [.processed block device.uplink.header sent false sessionId])).flatMap
      Event.transports = (sessionLog log).flatMap Event.transports ++
        (device.uplink.header.toList.map .header ++ [.block block sent]) := by
    simp [session, Event.transports]
  have kept : ∀ other, .dropped other true ∉
      log ++ [.processed block device.uplink.header sent false sessionId] := by
    simpa using first.kept
  refine ⟨?_, by simp [same, idle], by simp [transported], fun _ _ _ => emptied, kept⟩
  right
  rcases first.pouch with none' | ⟨header, overwritten, blocks, before, created, areBlocks⟩
  · obtain ⟨header, overwritten, held, created⟩ := first.created idle active none'
    refine ⟨header, overwritten, [.block block sent], ?_, ?_, by simp [Outgoing.sent?]⟩
    · rw [transported, none', held]
      rfl
    · rw [session]
      exact List.mem_append_left _ created
  · have alreadySent := first.sent idle active (by simp [before])
    refine ⟨header, overwritten, blocks ++ [.block block sent], ?_, ?_, ?_⟩
    · rw [transported, before, alreadySent]
      rfl
    · rw [session]
      exact List.mem_append_left _ created
    · simp only [List.mem_append, List.mem_singleton]
      rintro packet (old | rfl)
      · exact areBlocks packet old
      · rfl

theorem HeaderFirst.step (small : SmallStep device event next)
    (undisturbed : event.takenDuring ≠ some true) (first : HeaderFirst device log) :
    HeaderFirst next (log ++ [event]) := by
  cases small with
  | activated idle inactive =>
    have session : sessionLog (log ++ [.activated]) = [] := History.since_mark _ _ _ rfl
    refine ⟨.inl (by simp [session]), by simp [session], by simp, by simp, ?_⟩
    simpa using first.kept
  | processed block sent rest crypto pool active opened queue exchange build plain =>
    have idle : device.starting.isSome = false := by simpa [Event.takenDuring] using undisturbed
    rw [idle]
    exact first.processed block sent _ (by simpa using idle) active rfl rfl
  | dropped block rest crypto pool active opened queue exchange build encrypts =>
    refine first.other rfl rfl undisturbed (fun busy => busy) fun idle active => ⟨idle, active, rfl⟩
  | headerCreated header pool work inside exchange =>
    have session : sessionLog (log ++ [.headerCreated header device.uplink.header]) =
        sessionLog log ++ [.headerCreated header device.uplink.header] :=
      History.since_other _ _ _ rfl
    have transported := first.unstarted (by rw [inside]; rfl)
    refine ⟨.inl ?_, by simp, ?_, ?_, by simpa using first.kept⟩
    · simp [session, transported, Event.transports]
    · exact fun _ _ _ => ⟨header, device.uplink.header, rfl, by simp [session]⟩
    · simp [session, transported, Event.transports]
  | sessionStarted crypto next build =>
    exact first.other rfl rfl undisturbed (by simp [next]) (by simp)
  | pouchStarted crypto next build =>
    exact first.other rfl rfl undisturbed (by simp [next]) (by simp)
  | startFailed crypto inside build =>
    exact first.other rfl rfl undisturbed (by simp [startFail]) (by simp [startFail])
  | headerFailed pool inside exchange =>
    exact first.other rfl rfl undisturbed (by simp [startFail]) (by simp [startFail])
  | sessionEnded idle => exact first.other rfl rfl undisturbed (fun busy => busy) (by simp [endSession])
  | finished pool idle exchange => exact first.other rfl rfl undisturbed (fun busy => busy) (by simp)
  | downlink _ pool crypto downlink on build exchange =>
    exact first.other (Event.activates_downlink on) (Event.transports_downlink on) undisturbed
      (fun busy => busy) fun idle active => ⟨idle, active, rfl⟩
  | _ => exact first.other rfl rfl undisturbed (fun busy => busy) fun idle active => ⟨idle, active, rfl⟩

end Step

section Condition

variable (cfg : Config)

theorem processQueue_during (queue : List Buf) (calls : Nat → BlockCall Key) (device : Device Key) :
    ∀ event ∈ (processQueue cfg queue calls device).2,
      event.takenDuring = some device.starting.isSome ∧ queue ≠ [] := by
  induction queue generalizing calls device with
  | nil => simp [processQueue]
  | cons block rest ih =>
    simp only [processQueue]
    generalize device.crypto.encryptBlock cfg (calls 0) device.pool block = result
    obtain ⟨encrypted, crypto, pool⟩ := result
    cases encrypted with
    | none =>
      simp only [List.mem_cons, forall_eq_or_imp]
      exact ⟨⟨rfl, List.cons_ne_nil block rest⟩,
        fun event member => ⟨(ih _ _ event member).1, List.cons_ne_nil block rest⟩⟩
    | some sent =>
      simp only [List.mem_cons, forall_eq_or_imp]
      exact ⟨⟨rfl, List.cons_ne_nil block rest⟩,
        fun event member => ⟨(ih _ _ event member).1, List.cons_ne_nil block rest⟩⟩

def Uplink.hasWork (uplink : Uplink) : Bool :=
  uplink.work && uplink.sessionActive && !uplink.pouchClosed && !uplink.queue.isEmpty

theorem processQueue_flags (queue : List Buf) (calls : Nat → BlockCall Key) (device : Device Key) :
    (processQueue cfg queue calls device).1.closers = device.closers ∧
      (processQueue cfg queue calls device).1.uplink.pouchClosing = device.uplink.pouchClosing := by
  induction queue generalizing calls device with
  | nil => exact ⟨rfl, rfl⟩
  | cons block rest ih =>
    simp only [processQueue]
    generalize device.crypto.encryptBlock cfg (calls 0) device.pool block = result
    obtain ⟨encrypted, crypto, pool⟩ := result
    cases encrypted with
    | none => exact ih _ _
    | some sent => exact ih _ _

theorem drainQueue_flags (calls : Nat → BlockCall Key) (device : Device Key) :
    (drainQueue cfg calls device).1.closers = device.closers ∧
      (drainQueue cfg calls device).1.uplink.pouchClosing = device.uplink.pouchClosing := by
  unfold drainQueue
  split_ifs
  · exact processQueue_flags cfg device.uplink.queue calls device
  · exact ⟨rfl, rfl⟩

theorem mem_processBlocks (calls : Nat → BlockCall Key) (device : Device Key) (event : Event)
    (member : event ∈ (processBlocks cfg calls device).2) :
    event = .workStarted ∨
      event = .closed device.closers ∧ device.uplink.work = true ∧ device.uplink.pouchClosing = true ∨
      device.uplink.hasWork = true ∧ event ∈ (processQueue cfg device.uplink.queue calls
        { device with uplink := { device.uplink with work := false } }).2 := by
  unfold processBlocks at member
  split_ifs at member with pending
  · simp only [List.cons_append, List.mem_cons, List.mem_append] at member
    rcases member with started | drained | marked
    · exact .inl started
    · unfold drainQueue at drained
      split_ifs at drained with opened
      · obtain ⟨_, nonempty⟩ := processQueue_during cfg _ calls _ event drained
        simp only [Bool.and_eq_true, Bool.not_eq_true'] at opened
        refine .inr (.inr ⟨?_, drained⟩)
        simp [Uplink.hasWork, pending, opened.1, opened.2, nonempty]
      · exact absurd drained List.not_mem_nil
    · obtain ⟨closers, closing⟩ := drainQueue_flags cfg calls
        { device with uplink := { device.uplink with work := false } }
      unfold markClosed at marked
      split_ifs at marked with isClosing
      · rw [List.mem_singleton, closers] at marked
        exact .inr (.inl ⟨marked, pending, closing.symm.trans isClosing⟩)
      · exact absurd marked List.not_mem_nil
  · exact absurd member List.not_mem_nil

theorem processBlocks_during (calls : Nat → BlockCall Key) (device : Device Key) (event : Event)
    (member : event ∈ (processBlocks cfg calls device).2) (during : Bool)
    (takes : event.takenDuring = some during) :
    during = device.starting.isSome ∧ device.uplink.hasWork = true := by
  rcases mem_processBlocks cfg calls device event member with rfl | ⟨rfl, _⟩ | ⟨hasWork, taken⟩
  · simp [Event.takenDuring] at takes
  · simp [Event.takenDuring] at takes
  · have same := (processQueue_during cfg _ calls _ event taken).1
    exact ⟨Option.some.inj (takes.symm.trans same), hasWork⟩

theorem worker_reports (device : Device Key) (op : DeviceOp Key) (formed : device.Formed cfg) (event : Event)
    (member : event ∈ (device.step cfg op).2) (during : Bool) (takes : event.takenDuring = some during) :
    ∃ calls, op = .processBlocks calls ∧ during = device.starting.isSome ∧ device.uplink.hasWork = true := by
  have isWorker : event.party = .worker := by
    cases event <;> simp [Event.takenDuring] at takes <;> rfl
  have party : op.party = .worker := by
    rcases Event.party_of_reportedBy ((Device.step_call cfg device op formed).parties event member) with
      same | ⟨rfl, _⟩ | ⟨⟨block, rfl⟩, _⟩
    · exact same.symm.trans isWorker
    · simp [Event.takenDuring] at takes
    · simp [Event.takenDuring] at takes
  cases op with
  | processBlocks calls => exact ⟨calls, rfl, processBlocks_during cfg calls device event member during takes⟩
  | _ => simp [DeviceOp.party] at party

end Condition

/-- No worker run inside `pouch_uplink_start` finds a block to take. -/
def StartsUndisturbed (history : History (Device Key) Event) : DeviceOp Key → Prop
  | .processBlocks _ => history.state.starting.isSome → history.state.uplink.hasWork = false
  | _ => True

/-- In a run in which the worker takes no block inside `pouch_uplink_start`, every pouch is its own
header followed by blocks, and no block is discarded there. -/
theorem pouch_is_header_then_blocks (cfg : Config) (ops : List (DeviceOp Key))
    (undisturbed : History.Meets (Device.step cfg) StartsUndisturbed ⟨.boot Key cfg, []⟩ ops) :
    let reached := History.run (Device.step cfg) ⟨.boot Key cfg, []⟩ ops
    HeaderThenBlocks (sessionLog reached.log) ∧ ∀ block, .dropped block true ∉ reached.log := by
  have first := (Device.step_traced cfg).run_invariant StartsUndisturbed
    (fun event => event.takenDuring ≠ some true) HeaderFirst ⟨.boot Key cfg, []⟩ ops
    (Device.boot_formed cfg) ⟨.inl rfl, fun _ => rfl, by simp [Device.boot], fun _ _ => absurd rfl, by simp⟩
    undisturbed ?_ ?_
  · exact ⟨first.pouch, first.kept⟩
  · intro reached op formed met event member takes
    obtain ⟨calls, rfl, during, hasWork⟩ := worker_reports cfg reached.state op formed event member true takes
    have idle := met during.symm
    rw [hasWork] at idle
    exact Bool.noConfusion idle
  · exact fun _ _ _ _ small undisturbed first => first.step small undisturbed

theorem pouch_is_header_then_blocks_sample :
    History.Meets (Device.step (defaultConfig .none)) StartsUndisturbed
        ⟨.boot Unit (defaultConfig .none), []⟩ pipelineOps ∧
      HeaderThenBlocks (sessionLog (deviceRun pipelineOps).log) ∧
        ∀ block, .dropped block true ∉ (deviceRun pipelineOps).log := by
  have undisturbed : History.Meets (Device.step (defaultConfig .none)) StartsUndisturbed
      ⟨.boot Unit (defaultConfig .none), []⟩ pipelineOps := by
    refine ⟨trivial, trivial, trivial, trivial, trivial, trivial, trivial, ?_, trivial, trivial, trivial⟩
    intro busy
    have started : (deviceRun (startedOps ++ [enqueuedBlock [0, 1, 0], enqueuedBlock [0, 1, 0],
        enqueuedBlock [0, 1, 0]])).state.starting.isSome = false := by
      decide +kernel
    exact absurd busy (by rw [← Bool.not_eq_true] at started; exact started)
  exact ⟨undisturbed, pouch_is_header_then_blocks (defaultConfig .none) pipelineOps undisturbed⟩

-- The worker runs after `pouch_uplink_start` has set the flag, and before there is a header.
def disturbedOps : List (DeviceOp Unit) :=
  [enqueuedBlock [0, 1, 0], .startActivate, workerRun] ++ startedOps.drop 1

theorem block_before_header : ¬ HeaderThenBlocks (sessionLog (deviceRun disturbedOps).log) := by
  have transported : ((sessionLog (deviceRun disturbedOps).log).flatMap Event.transports).map
      (fun packet => packet.sent?.isSome) = [true] := by
    decide +kernel
  rintro (none' | ⟨header, overwritten, blocks, first, created, areBlocks⟩)
  · simp [none'] at transported
  · simp [first, Outgoing.sent?] at transported

end Pouch
