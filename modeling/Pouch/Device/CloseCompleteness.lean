import Pouch.Device.PouchHeaders

set_option autoImplicit false

namespace Pouch

variable {Key : Type}

def priorLog (log : List Event) : List Event := History.upTo Event.activates log

-- A later state of the block that the entry was written to: the entry is behind the block header.
def Buf.Carries (buf block : Buf) (entry : List UInt8) : Prop :=
  buf.id = block.id ∧ buf.owner = .entries ∧ entry <:+: buf.data.contents.drop 3

def TakenIn (log : List Event) (block : Buf) (entry : List UInt8) : Prop :=
  ∃ taken header sent starting sessionId, .processed taken header sent starting sessionId ∈ log ∧
    taken.Carries block entry

-- A packet is released when its last byte has been copied to the transport.
def OutputIn (log : List Event) (block : Buf) (entry : List UInt8) : Prop :=
  ∃ plain sent, .released (.block plain sent) ∈ log ∧ sent.Carries block entry

def Event.isCloseCall : Event → Bool
  | .closeCalled true _ => true
  | _ => false

theorem Event.eq_closeCall {event : Event} (found : event.isCloseCall = true) :
    ∃ already, event = .closeCalled true already := by
  cases event with
  | closeCalled active already =>
    cases active with
    | true => exact ⟨already, rfl⟩
    | false => exact absurd found nofun
  | _ => exact absurd found nofun

def AcceptedBeforeClose (log : List Event) (block : Buf) (entry : List UInt8) : Prop :=
  ∃ before already after, sessionLog log = before ++ .closeCalled true already :: after ∧
    .entryAccepted block entry ∈ priorLog log ++ before

/-- When `pouch_uplink_fill` returns `POUCH_NO_MORE_DATA`, every entry that was accepted before
`pouch_uplink_close` was called in the session has been output by the session, unless an earlier
session has output it. -/
def ClosesComplete (log : List Event) : Prop :=
  ∀ past rest, log = past ++ .noMoreData :: rest → ∀ block entry, AcceptedBeforeClose past block entry →
    OutputIn (priorLog past) block entry ∨ OutputIn (sessionLog past) block entry

section Log

variable {log : List Event} {event : Event} {block : Buf} {entry : List UInt8}

theorem priorLog_append_sessionLog (log : List Event) : priorLog log ++ sessionLog log = log :=
  History.upTo_append_since Event.activates log

theorem TakenIn.later (taken : TakenIn log block entry) (more : List Event) :
    TakenIn (log ++ more) block entry := by
  obtain ⟨buf, header, sent, starting, sessionId, member, carries⟩ := taken
  exact ⟨buf, header, sent, starting, sessionId, List.mem_append_left more member, carries⟩

theorem AcceptedBeforeClose.activated : ¬ AcceptedBeforeClose (log ++ [.activated]) block entry := by
  rintro ⟨before, already, after, split, _⟩
  rw [sessionLog, History.since_mark _ _ _ rfl] at split
  simp at split

theorem AcceptedBeforeClose.of_later (notMark : event.activates = false)
    (later : AcceptedBeforeClose (log ++ [event]) block entry) :
    AcceptedBeforeClose log block entry ∨
      event.isCloseCall = true ∧ .entryAccepted block entry ∈ log := by
  obtain ⟨before, already, after, split, accepted⟩ := later
  rw [sessionLog, History.since_other _ _ _ notMark, ← sessionLog] at split
  rw [priorLog, History.upTo_other _ _ _ notMark, ← priorLog] at accepted
  rcases List.eq_nil_or_concat after with rfl | ⟨earlier, last, rfl⟩
  · obtain ⟨same, isLast⟩ := List.append_inj' split rfl
    right
    rw [← same, priorLog_append_sessionLog] at accepted
    obtain rfl : event = .closeCalled true already := by simpa using isLast
    exact ⟨rfl, accepted⟩
  · left
    rw [List.concat_eq_append, ← List.cons_append, ← List.append_assoc] at split
    obtain ⟨same, _⟩ := List.append_inj' split rfl
    exact ⟨before, already, earlier, same, accepted⟩

end Log

def Device.Waiting (device : Device Key) (block : Buf) (entry : List UInt8) : Prop :=
  ∃ buf ∈ device.uplink.queue, buf.Carries block entry

def Device.Open (device : Device Key) (block : Buf) (entry : List UInt8) : Prop :=
  ∃ buf, device.entryBlock = some buf ∧ buf.Carries block entry

structure EntriesPlaced (device : Device Key) (log : List Event) : Prop where
  plaintext : device.crypto.isPlaintext = true
  header : ∀ opened, device.entryBlock = some opened → opened.owner = .entries ∧ 3 ≤ opened.data.bytes
  closing : device.uplink.pouchClosed = true → device.uplink.pouchClosing = true
  placed : ∀ block entry, .entryAccepted block entry ∈ log →
    TakenIn log block entry ∨ device.Waiting block entry ∨ device.Open block entry
  -- The pouch is not closed before the worker has got the entry.
  inTime : device.uplink.sessionActive = true → ∀ block entry, AcceptedBeforeClose log block entry →
    TakenIn log block entry ∨ device.uplink.pouchClosed = false ∧
      (device.Waiting block entry ∨ device.Open block entry ∧ 0 < device.closers)

section Step

variable {device next : Device Key} {log : List Event} {event : Event} {block : Buf} {entry : List UInt8}

theorem Device.Waiting.step (small : SmallStep device event next) (plaintext : device.crypto.isPlaintext = true)
    (waiting : device.Waiting block entry) :
    TakenIn (log ++ [event]) block entry ∨ next.Waiting block entry := by
  obtain ⟨buf, member, carries⟩ := waiting
  cases small with
  | processed first sent rest crypto pool active opened queue exchange build plain =>
    rw [queue, List.mem_cons] at member
    rcases member with rfl | later
    · exact .inl ⟨buf, _, _, _, _, List.mem_append_right log (List.mem_singleton_self _), carries⟩
    · exact .inr ⟨buf, later, carries⟩
  | dropped first rest crypto pool active opened queue exchange build encrypts =>
    rw [plaintext] at encrypts
    exact absurd encrypts nofun
  | entryPassed | streamPassed | streamClosed | enqueued =>
    exact .inr ⟨buf, List.mem_append_left _ member, carries⟩
  | _ => exact .inr ⟨buf, member, carries⟩

theorem Device.Open.step (small : SmallStep device event next)
    (header : ∀ opened, device.entryBlock = some opened → opened.owner = .entries ∧ 3 ≤ opened.data.bytes)
    (open' : device.Open block entry) : next.Waiting block entry ∨ next.Open block entry := by
  obtain ⟨buf, held, same, entries, inside⟩ := open'
  cases small with
  | entryOpened fresh closed id owner header =>
    rw [closed] at held
    exact absurd held nofun
  | entryAccepted opened written entry held' id owner contents =>
    obtain rfl : opened = buf := Option.some.inj (held'.symm.trans held)
    refine .inr ⟨written, rfl, id.trans same, owner.trans entries, ?_⟩
    have behind := (header opened held).2
    rw [contents, List.drop_append_of_le_length (by simpa using behind)]
    exact inside.trans (List.infix_append [] _ _)
  | entryPassed opened finished held' id owner contents =>
    obtain rfl : opened = buf := Option.some.inj (held'.symm.trans held)
    refine .inl ⟨finished, List.mem_append_right _ (List.mem_singleton_self _), id.trans same, owner.trans entries, ?_⟩
    rw [contents]
    exact inside
  | _ => exact .inr ⟨buf, held, same, entries, inside⟩

theorem SmallStep.header_kept (small : SmallStep device event next)
    (header : ∀ opened, device.entryBlock = some opened → opened.owner = .entries ∧ 3 ≤ opened.data.bytes) :
    ∀ opened, next.entryBlock = some opened → opened.owner = .entries ∧ 3 ≤ opened.data.bytes := by
  cases small with
  | entryOpened fresh closed id owner written =>
    rintro opened ⟨⟩
    exact ⟨owner, written⟩
  | entryAccepted opened written entry held id owner contents =>
    rintro block ⟨⟩
    have length := congrArg List.length contents
    obtain ⟨entries, before⟩ := header opened held
    simp only [PouchBuf.contents_length, List.length_append] at length
    exact ⟨owner.trans entries, by omega⟩
  | entryPassed => exact nofun
  | _ => exact header

theorem SmallStep.closing_kept (small : SmallStep device event next)
    (closing : device.uplink.pouchClosed = true → device.uplink.pouchClosing = true) :
    next.uplink.pouchClosed = true → next.uplink.pouchClosing = true := by
  cases small with
  | closed isClosing drained => exact fun _ => isClosing
  | closeCalled opened => exact fun _ => rfl
  | finished => exact id
  | _ => exact closing

def Event.closesInTime : Event → Prop
  | .closeCalled active already => active = true → already = false
  | .closeReturned lock => lock = none
  | .closed closers => closers = 0
  | .finished reader transport _ =>
    ∀ plain sent, .block plain sent ∈ reader.toList ++ transport → plain.owner ≠ .entries
  | _ => True

theorem EntriesPlaced.moved (placed : EntriesPlaced device log) (small : SmallStep device event next)
    (block : Buf) (entry : List UInt8) :
    (device.Waiting block entry → TakenIn (log ++ [event]) block entry ∨ next.Waiting block entry) ∧
      (device.Open block entry → next.Waiting block entry ∨ next.Open block entry) :=
  ⟨Device.Waiting.step small placed.plaintext, Device.Open.step small placed.header⟩

theorem EntriesPlaced.placed_step (placed : EntriesPlaced device log) (small : SmallStep device event next)
    (accepted : .entryAccepted block entry ∈ log ++ [event]) :
    TakenIn (log ++ [event]) block entry ∨ next.Waiting block entry ∨ next.Open block entry := by
  rw [List.mem_append, List.mem_singleton] at accepted
  rcases accepted with old | rfl
  · obtain ⟨waiting, open'⟩ := placed.moved small block entry
    rcases placed.placed block entry old with taken | isWaiting | isOpen
    · exact .inl (taken.later [event])
    · exact (waiting isWaiting).imp_right .inl
    · exact .inr (open' isOpen)
  · cases small with
    | entryAccepted opened _ _ held id owner contents =>
      obtain ⟨entries, behind⟩ := placed.header opened held
      refine .inr (.inr ⟨block, rfl, rfl, owner.trans entries, ?_⟩)
      rw [contents, List.drop_append_of_le_length (by simpa using behind)]
      exact List.suffix_append _ _ |>.isInfix
    | downlink _ pool crypto downlink on => exact absurd on nofun

theorem EntriesPlaced.inTime_other (placed : EntriesPlaced device log) (small : SmallStep device event next)
    (notMark : event.activates = false) (notCall : event.isCloseCall = false)
    (active : next.uplink.sessionActive = true → device.uplink.sessionActive = true)
    (closed : next.uplink.sessionActive = true → next.uplink.pouchClosed = device.uplink.pouchClosed)
    (closers : device.closers ≤ next.closers) :
    next.uplink.sessionActive = true → ∀ block entry, AcceptedBeforeClose (log ++ [event]) block entry →
      TakenIn (log ++ [event]) block entry ∨ next.uplink.pouchClosed = false ∧
        (next.Waiting block entry ∨ next.Open block entry ∧ 0 < next.closers) := by
  intro nowActive block entry later
  rcases AcceptedBeforeClose.of_later notMark later with before | ⟨call, _⟩
  · obtain ⟨waiting, open'⟩ := placed.moved small block entry
    rw [closed nowActive]
    rcases placed.inTime (active nowActive) block entry before with taken | ⟨opened, isWaiting | ⟨isOpen, inside⟩⟩
    · exact .inl (taken.later [event])
    · exact (waiting isWaiting).imp_right fun still => ⟨opened, .inl still⟩
    · exact .inr ⟨opened, (open' isOpen).imp_right fun still => ⟨still, by omega⟩⟩
  · rw [notCall] at call
    exact absurd call nofun

-- The worker closes the pouch: the queue is empty, and no thread is inside `pouch_uplink_close`.
theorem EntriesPlaced.inTime_closed (placed : EntriesPlaced device log) (outside : device.closers = 0)
    (drained : device.uplink.sessionActive = true → device.uplink.pouchClosed = false →
      device.uplink.queue = [])
    (active : device.uplink.sessionActive = true) (later : AcceptedBeforeClose (log ++ [.closed 0]) block entry) :
    TakenIn (log ++ [.closed 0]) block entry := by
  rcases AcceptedBeforeClose.of_later rfl later with before | ⟨call, _⟩
  · rcases placed.inTime active block entry before with taken | ⟨opened, ⟨buf, member, _⟩ | ⟨_, inside⟩⟩
    · exact taken.later [.closed 0]
    · rw [drained active opened] at member
      exact absurd member List.not_mem_nil
    · omega
  · exact absurd call nofun

theorem EntriesPlaced.inTime_step (placed : EntriesPlaced device log) (small : SmallStep device event next)
    (allowed : event.closesInTime) :
    next.uplink.sessionActive = true → ∀ block entry, AcceptedBeforeClose (log ++ [event]) block entry →
      TakenIn (log ++ [event]) block entry ∨ next.uplink.pouchClosed = false ∧
        (next.Waiting block entry ∨ next.Open block entry ∧ 0 < next.closers) := by
  have taken := small
  cases small with
  | activated => exact fun _ block entry later => absurd later AcceptedBeforeClose.activated
  | closed closing drained =>
    have outside : device.closers = 0 := allowed
    rw [outside]
    exact fun active block entry later => .inl (placed.inTime_closed outside drained active later)
  | closeCalled opened =>
    intro active block entry later
    have notClosed : device.uplink.pouchClosed = false := by
      by_contra isClosed
      have closing := placed.closing (by simpa using isClosed)
      rw [opened] at closing
      exact absurd closing nofun
    rcases AcceptedBeforeClose.of_later rfl later with before | ⟨_, accepted⟩
    · rcases placed.inTime active block entry before with done | ⟨_, isWaiting | ⟨isOpen, _⟩⟩
      · exact .inl (done.later _)
      · exact .inr ⟨notClosed, .inl isWaiting⟩
      · exact .inr ⟨notClosed, .inr ⟨isOpen, Nat.succ_pos _⟩⟩
    · rcases placed.placed block entry accepted with done | isWaiting | isOpen
      · exact .inl (done.later _)
      · exact .inr ⟨notClosed, .inl isWaiting⟩
      · exact .inr ⟨notClosed, .inr ⟨isOpen, Nat.succ_pos _⟩⟩
  | closeRefused closing =>
    intro active
    have refused := allowed active
    exact absurd refused nofun
  | closeReturned lock inside passed =>
    intro active block entry later
    -- The open block was passed on, if it had anything in it.
    have notOpen : ¬ device.Open block entry := by
      rintro ⟨buf, held, _⟩
      have emptied := passed allowed buf held
      have behind := (placed.header buf held).2
      omega
    rcases AcceptedBeforeClose.of_later rfl later with before | ⟨call, _⟩
    · rcases placed.inTime active block entry before with done | ⟨opened, isWaiting | ⟨isOpen, _⟩⟩
      · exact .inl (done.later _)
      · exact .inr ⟨opened, .inl isWaiting⟩
      · exact absurd isOpen notOpen
    · exact absurd call nofun
  | startFailed | headerFailed => exact placed.inTime_other taken rfl rfl nofun nofun le_rfl
  | sessionEnded | finished => exact placed.inTime_other taken rfl rfl nofun nofun le_rfl
  | downlink _ pool crypto downlink on =>
    have quiet : event.isCloseCall = false := by
      rcases Event.of_downlink on with ⟨_, rfl⟩ | rfl | ⟨_, _, rfl⟩ | ⟨_, rfl⟩ <;> rfl
    exact placed.inTime_other taken (Event.activates_downlink on) quiet id (fun _ => rfl) le_rfl
  | _ => exact placed.inTime_other taken rfl rfl id (fun _ => rfl) le_rfl

theorem EntriesPlaced.step (small : SmallStep device event next) (allowed : event.closesInTime)
    (placed : EntriesPlaced device log) : EntriesPlaced next (log ++ [event]) where
  plaintext := small.build.trans placed.plaintext
  header := small.header_kept placed.header
  closing := small.closing_kept placed.closing
  placed := fun _ _ accepted => placed.placed_step small accepted
  inTime := placed.inTime_step small allowed

structure TakenKept (device : Device Key) (log : List Event) : Prop where
  plaintext : device.crypto.isPlaintext = true
  same : ∀ block header sent starting sessionId, .processed block header sent starting sessionId ∈ log →
    sent = block
  kept : ∀ block header sent starting sessionId, .processed block header sent starting sessionId ∈ log →
    block.owner = .entries → .released (.block block sent) ∈ log ∨
      .block block sent ∈ device.uplink.reader.toList ++ device.uplink.transport

theorem TakenKept.same_step (taken : TakenKept device log) (small : SmallStep device event next)
    (block : Buf) (header : Option Buf) (sent : Buf) (starting : Bool) (sessionId : Nat)
    (member : .processed block header sent starting sessionId ∈ log ++ [event]) : sent = block := by
  rw [List.mem_append, List.mem_singleton] at member
  rcases member with old | rfl
  · exact taken.same block header sent starting sessionId old
  · cases small with
    | processed _ _ rest crypto pool active opened queue exchange build plain => exact plain taken.plaintext
    | downlink _ pool crypto downlink on => exact absurd on nofun

theorem TakenKept.kept_step (taken : TakenKept device log)
    (new : ∀ packet ∈ event.transports, packet ∈ next.uplink.reader.toList ++ next.uplink.transport)
    (moved : ∀ plain sent, .block plain sent ∈ device.uplink.reader.toList ++ device.uplink.transport →
      plain.owner = .entries → event = .released (.block plain sent) ∨
        .block plain sent ∈ next.uplink.reader.toList ++ next.uplink.transport)
    (block : Buf) (header : Option Buf) (sent : Buf) (starting : Bool) (sessionId : Nat)
    (member : .processed block header sent starting sessionId ∈ log ++ [event]) (entries : block.owner = .entries) :
    .released (.block block sent) ∈ log ++ [event] ∨
      .block block sent ∈ next.uplink.reader.toList ++ next.uplink.transport := by
  rw [List.mem_append, List.mem_singleton] at member
  rcases member with old | rfl
  · rcases taken.kept block header sent starting sessionId old entries with output | onItsWay
    · exact .inl (List.mem_append_left _ output)
    · rcases moved block sent onItsWay entries with output | still
      · exact .inl (List.mem_append_right _ (List.mem_singleton.mpr output.symm))
      · exact .inr still
  · exact .inr (new _ (by simp [Event.transports]))

theorem TakenKept.step (small : SmallStep device event next) (allowed : event.closesInTime)
    (taken : TakenKept device log) : TakenKept next (log ++ [event]) := by
  refine ⟨small.build.trans taken.plaintext, taken.same_step small, ?_⟩
  cases small with
  | processed block sent rest crypto pool active opened queue exchange build plain =>
    refine taken.kept_step (fun packet member => ?_) fun _ _ member _ => .inr ?_
    · rw [List.append_assoc]
      exact List.mem_append_right _ (List.mem_append_right _ member)
    · rw [List.append_assoc, ← List.append_assoc]
      exact List.mem_append_left _ member
  | taken packet rest queue free =>
    refine taken.kept_step (List.forall_mem_nil _) fun _ _ member _ => .inr ?_
    simpa [queue, free] using member
  | released packet held =>
    refine taken.kept_step (List.forall_mem_nil _) fun _ _ member _ => ?_
    rw [held, Option.toList_some, List.mem_append, List.mem_singleton] at member
    rcases member with rfl | waiting
    · exact .inl rfl
    · exact .inr waiting
  | finished =>
    exact taken.kept_step (List.forall_mem_nil _) fun plain sent member entries =>
      absurd entries (allowed plain sent member)
  | downlink _ pool crypto downlink on =>
    have quiet := Event.transports_downlink on
    exact taken.kept_step (by simp [quiet]) fun _ _ member _ => .inr member
  | _ => exact taken.kept_step (List.forall_mem_nil _) fun _ _ member _ => .inr member

structure CloseKept (device : Device Key) (log : List Event) : Prop where
  entries : EntriesPlaced device log
  taken : TakenKept device log
  complete : ClosesComplete log

theorem CloseKept.noMoreData (kept : CloseKept device log) (active : device.uplink.sessionActive = true)
    (closed : device.uplink.pouchClosed = true) (read : device.uplink.reader = none)
    (emptied : device.uplink.transport = []) (accepted : AcceptedBeforeClose log block entry) :
    OutputIn (priorLog log) block entry ∨ OutputIn (sessionLog log) block entry := by
  rcases kept.entries.inTime active block entry accepted with taken | ⟨opened, _⟩
  · obtain ⟨buf, header, sent, starting, sessionId, member, carries⟩ := taken
    have same := kept.taken.same buf header sent starting sessionId member
    rcases kept.taken.kept buf header sent starting sessionId member carries.2.1 with output | onItsWay
    · rw [← priorLog_append_sessionLog log, List.mem_append] at output
      exact output.imp (fun before => ⟨buf, sent, before, by rw [same]; exact carries⟩)
        fun inSession => ⟨buf, sent, inSession, by rw [same]; exact carries⟩
    · rw [read, emptied] at onItsWay
      exact absurd onItsWay List.not_mem_nil
  · rw [closed] at opened
    exact absurd opened nofun

theorem CloseKept.step (small : SmallStep device event next) (allowed : event.closesInTime)
    (kept : CloseKept device log) : CloseKept next (log ++ [event]) := by
  refine ⟨kept.entries.step small allowed, kept.taken.step small allowed, ?_⟩
  intro past rest split block entry accepted
  rcases List.eq_nil_or_concat rest with rfl | ⟨earlier, last, rfl⟩
  · obtain ⟨rfl, isLast⟩ := List.append_inj' split rfl
    obtain rfl : event = .noMoreData := by simpa using isLast
    cases small with
    | noMoreData active closed read emptied => exact kept.noMoreData active closed read emptied accepted
    | downlink _ pool crypto downlink on => exact absurd on nofun
  · rw [List.concat_eq_append, ← List.cons_append, ← List.append_assoc] at split
    obtain ⟨same, _⟩ := List.append_inj' split rfl
    exact kept.complete past earlier same block entry accepted

end Step

theorem CloseKept.boot (cfg : Config) (plaintext : (Device.boot Key cfg).crypto.isPlaintext = true) :
    CloseKept (Device.boot Key cfg) [] := by
  refine ⟨⟨plaintext, ?_, ?_, ?_, ?_⟩, ⟨plaintext, ?_, ?_⟩, ?_⟩ <;> simp [Device.boot, ClosesComplete]

section Condition

variable (cfg : Config)

def Device.EntriesSent (device : Device Key) : Prop :=
  ∀ plain sent, .block plain sent ∈ device.uplink.reader.toList ++ device.uplink.transport → plain.owner ≠ .entries

/-- In a session, `pouch_uplink_close` is called on a pouch that is not closing yet, it gets the
mutex of the open entry block, and the worker does not close the pouch in between. A session is finished when its
entry blocks were sent. -/
def ClosesUndisturbed (history : History (Device Key) Event) : DeviceOp Key → Prop
  | .closeCall => history.state.uplink.sessionActive = true → history.state.uplink.pouchClosing = false
  | .closeReturn lock => 0 < history.state.closers → lock = none
  | .processBlocks _ =>
    history.state.uplink.work = true → history.state.uplink.pouchClosing = true → history.state.closers = 0
  | .finish => history.state.starting = none → history.state.EntriesSent
  | _ => True

theorem Event.closesInTime_of_taken {event : Event} {during : Bool} (taken : event.takenDuring = some during) :
    event.closesInTime := by
  cases event <;> trivial

theorem processBlocks_closes (calls : Nat → BlockCall Key) (device : Device Key)
    (outside : device.uplink.work = true → device.uplink.pouchClosing = true → device.closers = 0) :
    ∀ event ∈ (processBlocks cfg calls device).2, event.closesInTime := by
  intro event member
  rcases mem_processBlocks cfg calls device event member with rfl | ⟨rfl, work, closing⟩ | ⟨_, taken⟩
  · trivial
  · exact outside work closing
  · exact Event.closesInTime_of_taken (processQueue_during cfg _ calls _ event taken).1

theorem closeReturn_closes (lock : Status) (device : Device Key) (locked : 0 < device.closers → lock = none) :
    ∀ event ∈ (device.closeReturn cfg lock).2, event.closesInTime := by
  intro event member
  unfold Device.closeReturn at member
  split_ifs at member with inside
  · rw [List.mem_append, List.mem_singleton] at member
    rcases member with passed | rfl
    · unfold Device.entryBlockClose at passed
      split at passed
      · exact absurd passed List.not_mem_nil
      · split at passed
        · exact absurd passed List.not_mem_nil
        · split_ifs at passed
          · obtain rfl := List.mem_singleton.mp passed
            trivial
          · exact absurd passed List.not_mem_nil
    · exact locked inside
  · exact absurd member List.not_mem_nil

theorem Event.closesInTime_of_party {event : Event} (close : event.party ≠ .close)
    (worker : event.party ≠ .worker) (finish : event.party ≠ .finish) : event.closesInTime := by
  cases event with
  | finished reader transport waiting => exact absurd rfl finish
  | _ => trivial

theorem step_closes (device : Device Key) (log : List Event) (op : DeviceOp Key) (formed : device.Formed cfg)
    (undisturbed : ClosesUndisturbed ⟨device, log⟩ op) :
    ∀ event ∈ (device.step cfg op).2, event.closesInTime := by
  have otherParties : op.party ≠ .close → op.party ≠ .worker → op.party ≠ .finish →
      ∀ event ∈ (device.step cfg op).2, event.closesInTime := by
    intro close worker finish event member
    rcases Event.party_of_reportedBy ((Device.step_call cfg device op formed).parties event member) with
      same | ⟨rfl, _⟩ | ⟨⟨block, rfl⟩, _⟩
    · exact Event.closesInTime_of_party (same ▸ close) (same ▸ worker) (same ▸ finish)
    · trivial
    · trivial
  cases op with
  | closeCall =>
    intro event member
    have reported : event = .closeCalled device.uplink.sessionActive device.uplink.pouchClosing := by
      simp only [Device.step, closeCall] at member
      split_ifs at member <;> exact List.mem_singleton.mp member
    rw [reported]
    exact undisturbed
  | closeReturn lock => exact closeReturn_closes cfg lock device undisturbed
  | processBlocks calls => exact processBlocks_closes cfg calls device undisturbed
  | finish =>
    intro event member
    cases event with
    | finished reader transport waiting =>
      obtain ⟨_, idle, rfl, rfl, _⟩ := finish_reports cfg device .finish formed member
      exact undisturbed idle
    | closeCalled | closeReturned | closed =>
      have reported := (Device.step_call cfg device .finish formed).parties _ member
      cases reported
    | _ => trivial
  | _ => exact otherParties (by simp [DeviceOp.party]) (by simp [DeviceOp.party]) (by simp [DeviceOp.party])

end Condition

/-- In the plaintext build, a run in which every close is undisturbed has everything that was written
before the close in the pouch. -/
theorem closed_pouch_is_complete (cfg : Config) (plaintext : cfg.encryption = .none) (ops : List (DeviceOp Key))
    (undisturbed : History.Meets (Device.step cfg) ClosesUndisturbed ⟨.boot Key cfg, []⟩ ops) :
    ClosesComplete (History.run (Device.step cfg) ⟨.boot Key cfg, []⟩ ops).log := by
  have isPlain : (Device.boot Key cfg).crypto.isPlaintext = true := by
    simp [Device.boot, Crypto.boot, plaintext, Crypto.isPlaintext]
  have kept := (Device.step_traced cfg).run_invariant ClosesUndisturbed Event.closesInTime CloseKept
    ⟨.boot Key cfg, []⟩ ops (Device.boot_formed cfg)
    (CloseKept.boot cfg isPlain) undisturbed
    (fun reached op formed met => step_closes cfg reached.state reached.log op formed met)
    (fun _ _ _ _ small allowed kept => kept.step small allowed)
  exact kept.complete

def entryWritten : DeviceOp Unit := .entryWrite ⟨some samplePath, 42, some [7], none, some fun _ => 0⟩

def closedOps : List (DeviceOp Unit) :=
  startedOps ++ [entryWritten, .closeCall, .closeReturn none, workerRun, .fill 100]

theorem closed_pouch_is_complete_sample :
    History.Meets (Device.step (defaultConfig .none)) ClosesUndisturbed
        ⟨.boot Unit (defaultConfig .none), []⟩ closedOps ∧ ClosesComplete (deviceRun closedOps).log := by
  have undisturbed : History.Meets (Device.step (defaultConfig .none)) ClosesUndisturbed
      ⟨.boot Unit (defaultConfig .none), []⟩ closedOps := by
    refine ⟨trivial, trivial, trivial, trivial, trivial, ?_, fun _ => rfl, ?_, trivial, trivial⟩
    · intro _
      change (deviceRun (startedOps ++ [entryWritten])).state.uplink.pouchClosing = false
      decide +kernel
    · intro _ _
      change (deviceRun (startedOps ++ [entryWritten, .closeCall, .closeReturn none])).state.closers = 0
      decide +kernel
  exact ⟨undisturbed, closed_pouch_is_complete (defaultConfig .none) rfl closedOps undisturbed⟩

-- Another thread's block has the worker run between the two steps of the close.
def disturbedCloseOps : List (DeviceOp Unit) :=
  startedOps ++ [entryWritten, .closeCall, enqueuedBlock [0, 1, 0], workerRun, .closeReturn none, .fill 100]

def Event.acceptedId : Event → Option Nat
  | .entryAccepted block _ => some block.id
  | _ => none

def Event.outputId : Event → Option Nat
  | .released (.block _ sent) => some sent.id
  | _ => none

def Event.isNoMoreData : Event → Bool
  | .noMoreData => true
  | _ => false

theorem Event.eq_noMoreData {event : Event} (found : event.isNoMoreData = true) : event = .noMoreData := by
  cases event <;> first | rfl | exact absurd found nofun

theorem Event.eq_accepted {event : Event} {id : Nat} (accepted : event.acceptedId = some id) :
    ∃ block entry, event = .entryAccepted block entry ∧ block.id = id := by
  cases event with
  | entryAccepted block entry => exact ⟨block, entry, rfl, Option.some.inj accepted⟩
  | _ => exact absurd accepted nofun

/-- The entry is left behind when the worker closes the pouch in between. -/
theorem entry_left_behind : ¬ ClosesComplete (deviceRun disturbedCloseOps).log := by
  intro complete
  have ended : (deviceRun disturbedCloseOps).log.findIdx? Event.isNoMoreData = some 19 := by decide +kernel
  have called : (sessionLog ((deviceRun disturbedCloseOps).log.take 19)).findIdx? Event.isCloseCall = some 5 := by
    decide +kernel
  have accepted : 1 ∈ ((sessionLog ((deviceRun disturbedCloseOps).log.take 19)).take 5).filterMap
      Event.acceptedId := by
    decide +kernel
  have notEarlier : 1 ∉ (priorLog ((deviceRun disturbedCloseOps).log.take 19)).filterMap Event.outputId := by
    decide +kernel
  have notOutput : 1 ∉ (sessionLog ((deviceRun disturbedCloseOps).log.take 19)).filterMap Event.outputId := by
    decide +kernel
  obtain ⟨_, isEnd, split⟩ := History.split_found ended
  obtain rfl := Event.eq_noMoreData isEnd
  obtain ⟨_, isCall, session⟩ := History.split_found called
  obtain ⟨already, rfl⟩ := Event.eq_closeCall isCall
  obtain ⟨_, member, isAccepted⟩ := List.mem_filterMap.mp accepted
  obtain ⟨block, entry, rfl, id⟩ := Event.eq_accepted isAccepted
  rcases complete _ _ split block entry ⟨_, already, _, session, List.mem_append_right _ member⟩ with
    ⟨plain, sent, isOutput, same, _⟩ | ⟨plain, sent, isOutput, same, _⟩
  · exact notEarlier (List.mem_filterMap.mpr ⟨_, isOutput, by simp only [Event.outputId, same, id]⟩)
  · exact notOutput (List.mem_filterMap.mpr ⟨_, isOutput, by simp only [Event.outputId, same, id]⟩)

end Pouch
