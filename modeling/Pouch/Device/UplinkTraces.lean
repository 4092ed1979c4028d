import Pouch.Device.SmallStep

set_option autoImplicit false

namespace Pouch

open ByteMemory Ledger

variable {Key : Type} {cfg : Config}

/-- Between two calls, the reader has something left to read, and streams have handles in use. -/
structure Device.Formed (cfg : Config) (device : Device Key) : Prop where
  reader : device.uplink.reader.isSome → 0 < pouchBufviewAvailable cfg device.uplink.view
  streams : ∀ handle stream, device.streams handle = some stream → handle < device.nextHandle

def PartyStep (party : Party) (before : Device Key) (event : Event) (after : Device Key) : Prop :=
  SmallStep before event after ∧ event.reportedBy party = true

theorem forall_update {α : Type} {table : Nat → Option α} {holds : Nat → α → Prop}
    (all : ∀ key value, table key = some value → holds key value) (changed : Nat) (entry : Option α)
    (new : ∀ value, entry = some value → holds changed value) :
    ∀ key value, Function.update table changed entry key = some value → holds key value := by
  intro key value found
  by_cases same : key = changed
  · subst same
    rw [Function.update_self] at found
    exact new value found
  · rw [Function.update_of_ne same] at found
    exact all key value found

theorem SmallStep.streams_bound {before after : Device Key} {event : Event}
    (step : SmallStep before event after)
    (bound : ∀ handle stream, before.streams handle = some stream → handle < before.nextHandle) :
    ∀ handle stream, after.streams handle = some stream → handle < after.nextHandle := by
  cases step with
  | streamOpened stream streamId id session owner =>
    refine forall_update ?_ _ _ fun _ _ => Nat.lt_succ_self _
    exact fun handle stream held => Nat.lt_succ_of_lt (bound handle stream held)
  | streamWrote handle old stream held => exact forall_update bound handle _ fun _ _ => bound handle old held
  | streamPassed handle old stream block held =>
    exact forall_update bound handle _ fun _ _ => bound handle old held
  | streamClosed handle stream block held => exact forall_update bound handle _ nofun
  | streamDiscarded handle stream held => exact forall_update bound handle _ nofun
  | _ => exact bound

structure CallTrace (cfg : Config) (party : Party) (device : Device Key)
    (result : Device Key × List Event) : Prop where
  trace : Trace SmallStep device result.2 result.1
  formed : result.1.Formed cfg
  parties : ∀ event ∈ result.2, event.reportedBy party = true

theorem CallTrace.outsideReading {party : Party} {device : Device Key} {result : Device Key × List Event}
    (call : CallTrace cfg party device result) (read : party ≠ .read) (finish : party ≠ .finish) :
    ∀ event ∈ result.2, event.party ≠ .read ∧ event.party ≠ .finish := by
  intro event member
  rcases Event.party_of_reportedBy (call.parties event member) with same | ⟨_, isFinish⟩ | ⟨⟨block, rfl⟩, _⟩
  · rw [same]
    exact ⟨read, finish⟩
  · exact absurd isFinish finish
  · simp [Event.party]

theorem PartyStep.formed {party : Party} {before after : Device Key} {event : Event}
    (step : PartyStep party before event after) (read : party ≠ .read) (finish : party ≠ .finish)
    (formed : before.Formed cfg) : after.Formed cfg := by
  obtain ⟨small, reported⟩ := step
  refine ⟨?_, small.streams_bound formed.streams⟩
  cases small with
  | taken | copied | released =>
    have isRead := Event.party_of_reportedBy reported
    exact absurd (by simpa [Event.party] using isRead) read.symm
  | finished =>
    have isFinish := Event.party_of_reportedBy reported
    exact absurd (by simpa [Event.party] using isFinish) finish.symm
  | _ => exact formed.reader

theorem partyTrace_call {party : Party} {before : Device Key} {result : Device Key × List Event}
    (trace : Trace (PartyStep party) before result.2 result.1) (read : party ≠ .read)
    (finish : party ≠ .finish) (formed : before.Formed cfg) : CallTrace cfg party before result := by
  obtain ⟨after, events⟩ := result
  simp only at trace
  induction trace with
  | nil => exact ⟨.nil _, formed, by simp⟩
  | cons head _ ih =>
    have tail := ih (head.formed read finish formed)
    refine ⟨.cons head.1 tail.trace, tail.formed, ?_⟩
    simp only [List.mem_cons, forall_eq_or_imp]
    exact ⟨head.2, tail.parties⟩

section Worker

variable (cfg)

theorem encryptBlock_build (call : BlockCall Key) (pool : Ledger) (block : Buf)
    (crypto : Crypto Key) :
    (crypto.encryptBlock cfg call pool block).2.1.isPlaintext = crypto.isPlaintext ∧
      (crypto.isPlaintext = true → (crypto.encryptBlock cfg call pool block).1 = some block) := by
  cases crypto with
  | none => exact ⟨rfl, fun _ => rfl⟩
  | saead state =>
    simp only [Crypto.encryptBlock]
    split_ifs <;> exact ⟨rfl, by simp [Crypto.isPlaintext]⟩

theorem processQueue_trace (queue : List Buf) (calls : Nat → BlockCall Key) (device : Device Key)
    (held : device.uplink.queue = queue) (active : device.uplink.sessionActive = true)
    (opened : device.uplink.pouchClosed = false) :
    Trace (PartyStep .worker) device (processQueue cfg queue calls device).2
        (processQueue cfg queue calls device).1 ∧
      (processQueue cfg queue calls device).1.uplink.queue = [] := by
  induction queue generalizing calls device with
  | nil => exact ⟨.nil device, held⟩
  | cons block rest ih =>
    have exchange := exchange_encryptBlock cfg (calls 0) device.pool block device.crypto
    obtain ⟨build, plain⟩ := encryptBlock_build cfg (calls 0) device.pool block device.crypto
    simp only [processQueue]
    generalize device.crypto.encryptBlock cfg (calls 0) device.pool block = result at *
    obtain ⟨encrypted, crypto, pool⟩ := result
    cases encrypted with
    | none =>
      have encrypts : device.crypto.isPlaintext = false := by
        by_contra isPlain
        simp at isPlain
        simpa using plain isPlain
      obtain ⟨tail, drained⟩ := ih (fun index => calls (index + 1))
        { device with crypto := crypto, pool := pool, uplink := { device.uplink with queue := rest } }
        rfl active opened
      refine ⟨.cons ⟨?_, rfl⟩ tail, drained⟩
      exact .dropped device block rest crypto pool active opened held exchange build encrypts
    | some sent =>
      have same : device.crypto.isPlaintext = true → sent = block := by
        intro isPlain
        simpa using plain isPlain
      obtain ⟨tail, drained⟩ := ih (fun index => calls (index + 1))
        { device with
          crypto := crypto
          pool := pool
          uplink :=
            { device.uplink with
              queue := rest
              header := none
              transport := device.uplink.transport ++ device.uplink.header.toList.map .header ++
                [.block block sent] } } rfl active opened
      refine ⟨.cons ⟨?_, rfl⟩ tail, drained⟩
      exact .processed device block sent rest crypto pool active opened held exchange build same

theorem drainQueue_trace (calls : Nat → BlockCall Key) (device : Device Key) :
    Trace (PartyStep .worker) device (drainQueue cfg calls device).2 (drainQueue cfg calls device).1 ∧
      ((drainQueue cfg calls device).1.uplink.sessionActive = true →
        (drainQueue cfg calls device).1.uplink.pouchClosed = false →
          (drainQueue cfg calls device).1.uplink.queue = []) := by
  unfold drainQueue
  split_ifs with opened
  · simp only [Bool.and_eq_true, Bool.not_eq_true'] at opened
    obtain ⟨trace, drained⟩ := processQueue_trace cfg device.uplink.queue calls device rfl opened.1 opened.2
    exact ⟨trace, fun _ _ => drained⟩
  · refine ⟨.nil device, ?_⟩
    intro active isOpen
    simp only at active isOpen
    simp [active, isOpen] at opened

theorem markClosed_trace (device : Device Key)
    (drained : device.uplink.sessionActive = true → device.uplink.pouchClosed = false →
      device.uplink.queue = []) :
    Trace (PartyStep .worker) device (markClosed device).2 (markClosed device).1 := by
  unfold markClosed
  split_ifs with closing
  · exact .single ⟨.closed device closing drained, rfl⟩
  · exact .nil device

theorem processBlocks_trace (calls : Nat → BlockCall Key) (device : Device Key) :
    Trace (PartyStep .worker) device (processBlocks cfg calls device).2 (processBlocks cfg calls device).1 := by
  unfold processBlocks
  split_ifs
  · obtain ⟨trace, drained⟩ := drainQueue_trace cfg calls
      { device with uplink := { device.uplink with work := false } }
    exact .cons ⟨.workStarted device, rfl⟩ (trace.append (markClosed_trace _ drained))
  · exact .nil device

end Worker

section Start

variable (cfg)

theorem startActivate_trace (device : Device Key) :
    Trace (PartyStep .start) device (startActivate device).2 (startActivate device).1 := by
  unfold startActivate
  split_ifs with busy
  · exact .nil device
  · rw [not_or, Bool.not_eq_true, Bool.not_eq_true, Option.isSome_eq_false_iff,
      Option.isNone_iff_eq_none] at busy
    exact .single ⟨.activated device busy.1 busy.2, rfl⟩

theorem sessionStart_build (call : SessionCall Key) (crypto : Crypto Key) :
    (crypto.sessionStart cfg call).2.isPlaintext = crypto.isPlaintext := by
  cases crypto <;> rfl

theorem pouchStart_build (crypto : Crypto Key) : crypto.pouchStart.2.isPlaintext = crypto.isPlaintext := by
  cases crypto <;> rfl

theorem startSession_trace (call : SessionCall Key) (device : Device Key) :
    Trace (PartyStep .start) device (startSession cfg call device).2 (startSession cfg call device).1 := by
  have build := sessionStart_build cfg call device.crypto
  unfold startSession
  split_ifs with next
  · generalize device.crypto.sessionStart cfg call = result at build ⊢
    obtain ⟨status, crypto⟩ := result
    cases status with
    | none => exact .single ⟨.sessionStarted device crypto next build, rfl⟩
    | some err => exact .single ⟨.startFailed device crypto (by rw [next]; rfl) build, rfl⟩
  · exact .nil device

theorem startPouch_trace (device : Device Key) :
    Trace (PartyStep .start) device (startPouch device).2 (startPouch device).1 := by
  have build := pouchStart_build device.crypto
  unfold startPouch
  split_ifs with next
  · generalize device.crypto.pouchStart = result at build ⊢
    obtain ⟨status, crypto⟩ := result
    cases status with
    | none => exact .single ⟨.pouchStarted device crypto next build, rfl⟩
    | some err => exact .single ⟨.startFailed device crypto (by rw [next]; rfl) build, rfl⟩
  · exact .nil device

theorem exchange_pouchHeaderCreate (call : HeaderCall) (crypto : Crypto Key) (pool : Ledger) :
    Exchange pool 0 (pouchHeaderCreate call crypto pool).2
      (idsOf (pouchHeaderCreate call crypto pool).1.toList) := by
  unfold pouchHeaderCreate
  cases call.malloc with
  | none => exact Exchange.refl pool 0
  | some memory =>
    have allocated := exchange_alloc pool
    have failed : Exchange pool 0 (pool.alloc.free pool.next) 0 :=
      allocated.trans (exchange_free pool.alloc pool.next)
    simp only [bufHold, bufAlloc, Option.map_some]
    cases crypto.headerGet call.certRef with
    | some err => exact failed
    | none =>
      cases call.encoded with
      | none => exact failed
      | some bytes => exact allocated

theorem startHeader_trace (call : HeaderCall) (device : Device Key) :
    Trace (PartyStep .start) device (startHeader call device).2 (startHeader call device).1 := by
  have exchange := exchange_pouchHeaderCreate call device.crypto device.pool
  unfold startHeader
  split_ifs with next
  · generalize pouchHeaderCreate call device.crypto device.pool = result at exchange ⊢
    obtain ⟨header, pool⟩ := result
    cases header with
    | none => exact .single ⟨.headerFailed device pool next exchange, rfl⟩
    | some header => exact .single ⟨.headerCreated device header pool _ next exchange, rfl⟩
  · exact .nil device

theorem closeCall_trace (device : Device Key) :
    Trace (PartyStep .close) device (closeCall device).2 (closeCall device).1 := by
  unfold closeCall
  cases closing : device.uplink.pouchClosing with
  | true => exact .single ⟨.closeRefused device closing, rfl⟩
  | false => exact .single ⟨.closeCalled device closing, rfl⟩

end Start

section Transport

structure Reads (cfg : Config) (device : Device Key) (reading : Reading Key) : Prop where
  trace : Trace SmallStep device reading.events reading.device
  formed : reading.device.Formed cfg
  starting : reading.device.starting = device.starting
  parties : ∀ event ∈ reading.events, event.reportedBy .read = true

theorem Reads.append {device : Device Key} {first second : Reading Key} (left : Reads cfg device first)
    (right : Reads cfg first.device second) (output : List UInt8) :
    Reads cfg device ⟨second.device, output, first.events ++ second.events⟩ :=
  ⟨left.trace.append right.trace, right.formed, right.starting.trans left.starting, by
    simp only [List.mem_append]
    rintro event (earlier | later)
    · exact left.parties event earlier
    · exact right.parties event later⟩

theorem Reads.nil {device : Device Key} (formed : device.Formed cfg) : Reads cfg device ⟨device, [], []⟩ :=
  ⟨.nil device, formed, rfl, by simp⟩

theorem Reads.after {device middle : Device Key} {event : Event} {reading : Reading Key}
    (step : PartyStep .read device event middle) (same : middle.starting = device.starting)
    (reads : Reads cfg middle reading) :
    Reads cfg device ⟨reading.device, reading.output, event :: reading.events⟩ :=
  ⟨.cons step.1 reads.trace, reads.formed, reads.starting.trans same, by
    simp only [List.mem_cons, forall_eq_or_imp]
    exact ⟨step.2, reads.parties⟩⟩

theorem fillCopy_reads (left : Nat) (packet : Outgoing) (device : Device Key)
    (held : device.uplink.reader = some packet)
    (streams : ∀ handle stream, device.streams handle = some stream → handle < device.nextHandle) :
    Reads cfg device (fillCopy cfg left packet device) := by
  unfold fillCopy
  generalize bytes : pouchBufviewMemcpy cfg device.uplink.view left = copied
  obtain ⟨output, view⟩ := copied
  have sameBuf : view.buf = device.uplink.view.buf := by
    have second := congrArg (fun pair => pair.2.buf) bytes
    exact second.symm
  have copies := SmallStep.copied device output view.offset
  simp only
  split_ifs with exhausted
  · refine ⟨.cons copies (.single (.released _ packet held)), ⟨by simp, streams⟩, rfl, ?_⟩
    simp [Event.reportedBy, Event.party]
  · refine ⟨.single copies, ⟨fun _ => ?_, streams⟩, rfl, by simp [Event.reportedBy, Event.party]⟩
    have same : ({ device.uplink with offset := view.offset } : Uplink).view = view := by
      cases view
      simp only [Uplink.view] at sameBuf ⊢
      rw [sameBuf]
    rw [same]
    exact Nat.pos_of_ne_zero exhausted

theorem fillLoop_reads (fuel left : Nat) (device : Device Key) (formed : device.Formed cfg) :
    Reads cfg device (fillLoop cfg fuel left device) := by
  induction fuel generalizing left device with
  | zero => exact .nil formed
  | succ fuel ih =>
    simp only [fillLoop]
    split_ifs with done ready
    · exact .nil formed
    · cases held : device.uplink.reader with
      | none => exact .nil formed
      | some packet =>
        have copied : Reads cfg device (fillCopy cfg left packet device) :=
          fillCopy_reads left packet device held formed.streams
        exact copied.append (ih _ _ copied.formed) _
    · have free : device.uplink.reader = none := by
        cases held : device.uplink.reader with
        | none => rfl
        | some packet =>
          have available := formed.reader (by rw [held]; rfl)
          simp [Uplink.isReady, held, available] at ready
      cases queue : device.uplink.transport with
      | nil => exact .nil formed
      | cons packet rest =>
        have take := SmallStep.taken device packet rest queue free
        have copied : Reads cfg _ (fillCopy cfg left packet _) :=
          fillCopy_reads left packet
            { device with
              uplink := { device.uplink with transport := rest, reader := some packet, offset := 0 } }
            rfl formed.streams
        exact (copied.append (ih _ _ copied.formed) _).after ⟨take, rfl⟩ rfl

structure ReaderOnly (device next : Device Key) : Prop where
  active : next.uplink.sessionActive = device.uplink.sessionActive
  closed : next.uplink.pouchClosed = device.uplink.pouchClosed
  starting : next.starting = device.starting

theorem ReaderOnly.trans {first second third : Device Key} (left : ReaderOnly first second)
    (right : ReaderOnly second third) : ReaderOnly first third :=
  ⟨right.active.trans left.active, right.closed.trans left.closed, right.starting.trans left.starting⟩

variable (cfg) in
theorem fillCopy_readerOnly (left : Nat) (packet : Outgoing) (device : Device Key) :
    ReaderOnly device (fillCopy cfg left packet device).device := by
  simp only [fillCopy]
  split_ifs <;> exact ⟨rfl, rfl, rfl⟩

variable (cfg) in
theorem fillLoop_readerOnly (fuel left : Nat) (device : Device Key) :
    ReaderOnly device (fillLoop cfg fuel left device).device := by
  induction fuel generalizing left device with
  | zero => exact ⟨rfl, rfl, rfl⟩
  | succ fuel ih =>
    simp only [fillLoop]
    split_ifs with done ready
    · exact ⟨rfl, rfl, rfl⟩
    · cases device.uplink.reader with
      | none => exact ⟨rfl, rfl, rfl⟩
      | some packet => exact (fillCopy_readerOnly cfg left packet device).trans (ih _ _)
    · cases device.uplink.transport with
      | nil => exact ⟨rfl, rfl, rfl⟩
      | cons packet rest =>
        have copied := fillCopy_readerOnly cfg left packet
          { device with
            uplink := { device.uplink with transport := rest, reader := some packet, offset := 0 } }
        have taken : ReaderOnly device
            { device with
              uplink := { device.uplink with transport := rest, reader := some packet, offset := 0 } } :=
          ⟨rfl, rfl, rfl⟩
        exact (taken.trans copied).trans (ih _ _)

variable (cfg) in
theorem fillCopy_progress (left : Nat) (packet : Outgoing) (device : Device Key) :
    (fillCopy cfg left packet device).device.uplink.transport = device.uplink.transport ∧
      (fillCopy cfg left packet device).output.length =
        min left (pouchBufviewAvailable cfg device.uplink.view) := by
  have copied : (pouchBufviewMemcpy cfg device.uplink.view left).1.length =
      min left (pouchBufviewAvailable cfg device.uplink.view) := by
    simp [pouchBufviewMemcpy]
  simp only [fillCopy]
  split_ifs <;> exact ⟨rfl, copied⟩

theorem fillLoop_fuel (fuel more left : Nat) (device : Device Key)
    (enough : left + device.uplink.transport.length ≤ fuel) :
    fillLoop cfg (fuel + more) left device = fillLoop cfg fuel left device := by
  induction fuel generalizing left device with
  | zero =>
    obtain rfl : left = 0 := by omega
    cases more <;> rfl
  | succ fuel ih =>
    rw [Nat.add_right_comm]
    simp only [fillLoop]
    split_ifs with done ready
    · rfl
    · cases held : device.uplink.reader with
      | none => rfl
      | some packet =>
        obtain ⟨transport, output⟩ := fillCopy_progress cfg left packet device
        have available : 0 < pouchBufviewAvailable cfg device.uplink.view := by
          simpa [Uplink.isReady, held] using ready
        have next := ih (left - (fillCopy cfg left packet device).output.length)
          (fillCopy cfg left packet device).device (by rw [transport, output]; omega)
        simp only [next]
    · cases queue : device.uplink.transport with
      | nil => rfl
      | cons packet rest =>
        rw [queue, List.length_cons] at enough
        let taken : Device Key :=
          { device with
            uplink := { device.uplink with transport := rest, reader := some packet, offset := 0 } }
        have transport := (fillCopy_progress cfg left packet taken).1
        have next := ih (left - (fillCopy cfg left packet taken).output.length)
          (fillCopy cfg left packet taken).device (by rw [transport]; simp only [taken]; omega)
        simp only [taken] at next
        simp only [next]

theorem pouchUplinkFill_reads (maxlen : Nat) (device : Device Key) (formed : device.Formed cfg)
    (idle : device.starting = none) : Reads cfg device (pouchUplinkFill cfg maxlen device).2 := by
  cases active : device.uplink.sessionActive with
  | false =>
    simp only [pouchUplinkFill, active, Bool.false_eq_true, if_false]
    exact .nil formed
  | true =>
    have loop := fillLoop_reads (maxlen + device.uplink.transport.length) maxlen device formed
    have stillActive : (fillLoop cfg (maxlen + device.uplink.transport.length) maxlen
        device).device.uplink.sessionActive = true := by
      rw [(fillLoop_readerOnly cfg _ _ _).active, active]
    simp only [pouchUplinkFill, active, if_true]
    generalize fillLoop cfg (maxlen + device.uplink.transport.length) maxlen device = read at *
    split_ifs with more
    · exact loop
    · simp only [Bool.or_eq_true, Bool.not_eq_true', decide_eq_true_eq, List.isEmpty_eq_false_iff, not_or,
        Bool.not_eq_false, Decidable.not_not] at more
      obtain ⟨⟨closed, unavailable⟩, emptied⟩ := more
      have free : read.device.uplink.reader = none := by
        cases held : read.device.uplink.reader with
        | none => rfl
        | some packet => exact absurd (loop.formed.reader (by rw [held]; rfl)) unavailable
      have ended := SmallStep.sessionEnded read.device (loop.starting.trans idle)
      refine ⟨loop.trace.append (.cons ?_ (.single ended)), ⟨loop.formed.reader, loop.formed.streams⟩,
        loop.starting, ?_⟩
      · exact .noMoreData read.device stillActive closed free emptied
      · simp only [List.mem_append, List.mem_cons, List.not_mem_nil, or_false]
        rintro event (earlier | rfl | rfl)
        · exact loop.parties event earlier
        · rfl
        · rfl

theorem exchange_finish (pool : Ledger) (transport : List Outgoing) (reader : Option Outgoing)
    (header : Option Buf) :
    Exchange pool (idsOf (transport.map Outgoing.buf) + idsOf (reader.map Outgoing.buf).toList +
        idsOf header.toList)
      (((pool.freeAll (transport.map (·.buf.id))).freeAll (reader.map (·.buf.id)).toList).freeAll
        (header.map (·.id)).toList) 0 := by
  have first := (exchange_freeAll pool (transport.map (·.buf.id))).frame
    (idsOf (reader.map Outgoing.buf).toList + idsOf header.toList)
  have second := (exchange_freeAll (pool.freeAll (transport.map (·.buf.id)))
    (reader.map (·.buf.id)).toList).frame (idsOf header.toList)
  have third := exchange_freeAll ((pool.freeAll (transport.map (·.buf.id))).freeAll
    (reader.map (·.buf.id)).toList) (header.map (·.id)).toList
  have transportIds : idsOf (transport.map Outgoing.buf) = (transport.map (·.buf.id) : List Nat) := by
    simp [idsOf, Function.comp_def]
  have readerIds : idsOf (reader.map Outgoing.buf).toList = ((reader.map (·.buf.id)).toList : List Nat) := by
    cases reader <;> rfl
  have headerIds : idsOf header.toList = ((header.map (·.id)).toList : List Nat) := by
    cases header <;> rfl
  rw [zero_add] at first second
  rw [readerIds, headerIds] at first
  rw [headerIds] at second
  rw [transportIds, readerIds, headerIds, add_assoc]
  exact first.trans (second.trans third)

theorem pouchUplinkFinish_call (device : Device Key) (formed : device.Formed cfg)
    (idle : device.starting = none) : CallTrace cfg .finish device (pouchUplinkFinish device) := by
  have exchange := exchange_finish device.pool device.uplink.transport device.uplink.reader
    device.uplink.header
  have finishes := SmallStep.finished device _ idle exchange
  unfold pouchUplinkFinish
  simp only
  split_ifs with active
  · exact ⟨.cons finishes (.single (.sessionEnded _ idle)), ⟨by simp [endSession], formed.streams⟩,
      by simp [Event.reportedBy, Event.party]⟩
  · exact ⟨.single finishes, ⟨by simp, formed.streams⟩, by simp [Event.reportedBy, Event.party]⟩

end Transport

end Pouch
