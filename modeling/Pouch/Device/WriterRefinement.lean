import Pouch.Device.Traces

set_option autoImplicit false

namespace Pouch

open ByteMemory

variable {Key : Type} (cfg : Config)

def UplinkStream.erase (stream : UplinkStream) : PouchStream :=
  ⟨stream.id, stream.buf.data, stream.bytes, stream.sessionId⟩

/-- The writers of the device, without the heap their blocks are on. -/
def Device.writers (device : Device Key) : Writers where
  block := device.entryBlock.map Buf.data
  streamId := device.streamId
  openStreams := device.openStreams
  uplinkSessionId := device.uplink.id
  streams := fun handle => (device.streams handle).map UplinkStream.erase
  nextHandle := device.nextHandle

def Event.passes : Event → List (Option Nat × PouchBuf)
  | .entryPassed block => [(none, block.data)]
  | .streamPassed handle block _ | .streamClosed handle (some block) => [(some handle, block.data)]
  | _ => []

def WriterEvent.passes : WriterEvent → List (Option Nat × PouchBuf)
  | .enqueued owner block => [(owner, block)]
  | _ => []

def DeviceOp.writerOps (device : Device Key) : DeviceOp Key → List WriterOp
  | .entryWrite call => [.entryWrite call]
  | .streamOpen path contentType structAllocated malloc =>
    [.streamOpen path contentType structAllocated malloc]
  | .streamWrite handle data malloc => [.streamWrite handle data malloc]
  | .streamClose handle => [.streamClose handle]
  | .closeReturn lock => if 0 < device.closers then [.entryClose lock] else []
  | .finish => if device.starting.isSome then [] else [.sessionFinish]
  | _ => []

theorem passes_enqueued (owner : Option Nat) (blocks : List PouchBuf) :
    (blocks.map (WriterEvent.enqueued owner)).flatMap WriterEvent.passes = blocks.map (owner, ·) := by
  induction blocks with
  | nil => rfl
  | cons block rest ih => simp [WriterEvent.passes, ih]

section Entries

variable (device : Device Key)

-- The part of `pouch_uplink_entry_write` that opens a new block.
def entryWriteNew (path : CString) (contentType : UInt16) (data : List UInt8) (malloc : Option Memory) :
    EntryResult :=
  match blockAlloc malloc with
  | none => { status := some .enomem, block := none, enqueued := [] }
  | some fresh =>
    match writeEntry cfg fresh path contentType data with
    | some written => { status := none, block := some written, enqueued := [] }
    | none => { status := some .enomem, block := some fresh, enqueued := [] }

-- `pouch_uplink_entry_write` with an open block.
def entryWriteOpen (opened : PouchBuf) (path : CString) (contentType : UInt16) (data : List UInt8)
    (malloc : Option Memory) : EntryResult :=
  match writeEntry cfg opened path contentType data with
  | some written => { status := none, block := some written, enqueued := [] }
  | none => { entryWriteNew cfg path contentType data malloc with enqueued := [blockFinish cfg opened] }

theorem entryWriteNew_enqueued (path : CString) (contentType : UInt16) (data : List UInt8)
    (malloc : Option Memory) : (entryWriteNew cfg path contentType data malloc).enqueued = [] := by
  unfold entryWriteNew
  split
  · rfl
  · split <;> rfl

theorem entryWrite_eq (block : Option PouchBuf) (call : EntryWrite) (path : CString) (data : List UInt8)
    (isPath : call.path = some path) (isData : call.data = some data) (nonempty : ¬ data.length = 0)
    (locked : call.lock = none) :
    pouchUplinkEntryWrite cfg block call =
      match block with
      | none => entryWriteNew cfg path call.contentType data call.malloc
      | some opened => entryWriteOpen cfg opened path call.contentType data call.malloc := by
  cases block with
  | none =>
    cases allocated : blockAlloc call.malloc with
    | none => simp [pouchUplinkEntryWrite, entryWriteNew, isPath, isData, nonempty, locked, allocated]
    | some fresh =>
      cases written : writeEntry cfg fresh path call.contentType data <;>
        simp [pouchUplinkEntryWrite, entryWriteNew, isPath, isData, nonempty, locked, allocated, written]
  | some opened =>
    cases kept : writeEntry cfg opened path call.contentType data with
    | some written => simp [pouchUplinkEntryWrite, entryWriteOpen, isPath, isData, nonempty, locked, kept]
    | none =>
      cases allocated : blockAlloc call.malloc with
      | none =>
        simp [pouchUplinkEntryWrite, entryWriteOpen, entryWriteNew, isPath, isData, nonempty, locked, kept,
          allocated]
      | some fresh =>
        cases written : writeEntry cfg fresh path call.contentType data <;>
          simp [pouchUplinkEntryWrite, entryWriteOpen, entryWriteNew, isPath, isData, nonempty, locked, kept,
            allocated, written]

def Writes.Like (device : Device Key) (result : EntryResult) (outcome : Status × Device Key × List Event) : Prop :=
  outcome.1 = result.status ∧ outcome.2.1.writers = { device.writers with block := result.block } ∧
    outcome.2.2.flatMap Event.passes = result.enqueued.map (none, ·)

theorem writeNew_refines (path : CString) (contentType : UInt16) (data : List UInt8) (malloc : Option Memory) :
    Writes.Like device (entryWriteNew cfg path contentType data malloc)
      (device.writeNew cfg path contentType data malloc) := by
  cases allocated : blockAlloc malloc with
  | none =>
    simp only [Device.writeNew, entryWriteNew, allocated, bufHold]
    exact ⟨rfl, rfl, rfl⟩
  | some fresh =>
    simp only [Device.writeNew, Device.writeOpen, entryWriteNew, allocated, bufHold]
    cases writeEntry cfg fresh path contentType data with
    | none => exact ⟨rfl, rfl, rfl⟩
    | some written => exact ⟨rfl, rfl, rfl⟩

theorem entryWrite_refines (call : EntryWrite) :
    Writes.Like device (pouchUplinkEntryWrite cfg device.writers.block call)
      (device.pouchUplinkEntryWrite cfg call) := by
  cases isPath : call.path with
  | none =>
    simp only [pouchUplinkEntryWrite, Device.pouchUplinkEntryWrite, isPath]
    exact ⟨rfl, rfl, rfl⟩
  | some path =>
    cases isData : call.data with
    | none =>
      simp only [pouchUplinkEntryWrite, Device.pouchUplinkEntryWrite, isPath, isData]
      exact ⟨rfl, rfl, rfl⟩
    | some data =>
      by_cases empty : data.length = 0
      · simp only [pouchUplinkEntryWrite, Device.pouchUplinkEntryWrite, isPath, isData, if_pos empty]
        exact ⟨rfl, rfl, rfl⟩
      · cases locked : call.lock with
        | some err =>
          simp only [pouchUplinkEntryWrite, Device.pouchUplinkEntryWrite, isPath, isData, if_neg empty, locked]
          exact ⟨rfl, rfl, rfl⟩
        | none =>
          rw [entryWrite_eq cfg _ call path data isPath isData empty locked]
          simp only [Device.pouchUplinkEntryWrite, isPath, isData, if_neg empty, locked]
          cases held : device.entryBlock with
          | none =>
            simp only [Device.writers, held, Option.map_none]
            exact writeNew_refines cfg device path call.contentType data call.malloc
          | some opened =>
            simp only [Device.writers, held, Option.map_some, entryWriteOpen, Device.writeOpen]
            cases writeEntry cfg opened.data path call.contentType data with
            | some written => exact ⟨rfl, rfl, rfl⟩
            | none =>
              have new := writeNew_refines cfg (device.passEntries cfg opened).1 path call.contentType data
                call.malloc
              generalize Device.writeNew cfg path call.contentType data call.malloc _ = outcome at new ⊢
              obtain ⟨status, writers, silent⟩ := new
              refine ⟨status, writers, ?_⟩
              simp only [List.flatMap_append, silent, entryWriteNew_enqueued]
              rfl

theorem entryBlockClose_refines (lock : Status) :
    let result := entryBlockClose cfg device.writers.block lock
    (device.entryBlockClose cfg lock).1.writers = { device.writers with block := result.block } ∧
      (device.entryBlockClose cfg lock).2.flatMap Event.passes = result.enqueued.map (none, ·) := by
  cases lock with
  | some err => exact ⟨rfl, rfl⟩
  | none =>
    cases held : device.entryBlock with
    | none =>
      simp only [entryBlockClose, Device.entryBlockClose, Device.writers, held, Option.map_none]
      exact ⟨trivial, rfl⟩
    | some opened =>
      simp only [entryBlockClose, Device.entryBlockClose, Device.writers, held, Option.map_some]
      split_ifs with filled
      · exact ⟨rfl, rfl⟩
      · simp only [held, Option.map_some]
        exact ⟨trivial, rfl⟩

end Entries

section Streams

theorem putStream_writers (device : Device Key) (handle : Nat) (stream : UplinkStream) :
    (device.putStream handle stream).writers = { device.writers with
      streams := Function.update device.writers.streams handle (some stream.erase) } := by
  simp only [Device.writers, Device.putStream, Function.apply_update (fun _ => Option.map UplinkStream.erase),
    Option.map_some]

structure LoopsLike (device : Device Key) (handle : Nat) (stream : UplinkStream) (loop : StreamLoop)
    (writing : Device.StreamWriting Key) : Prop where
  unwritten : writing.unwritten = loop.unwritten
  stream : writing.stream.erase = { stream.erase with buf := loop.buf }
  writers : writing.device.writers = { device.writers with
    streams := Function.update device.writers.streams handle (some writing.stream.erase) }
  passes : writing.events.flatMap Event.passes = loop.enqueued.map (some handle, ·)

theorem LoopsLike.nil (device : Device Key) (handle : Nat) (stream : UplinkStream) (data : List UInt8)
    (held : device.streams handle = some stream) :
    LoopsLike device handle stream ⟨data, stream.buf.data, []⟩ ⟨device, stream, data, []⟩ := by
  refine ⟨rfl, rfl, ?_, rfl⟩
  have same : device.writers.streams handle = some stream.erase := by simp [Device.writers, held]
  rw [← same, Function.update_eq_self]

theorem LoopsLike.after {device next : Device Key} {handle : Nat} {stream written : UplinkStream}
    {loop : StreamLoop} {writing : Device.StreamWriting Key} (rest : LoopsLike next handle written loop writing)
    (same : ∃ buf, written.erase = { stream.erase with buf := buf })
    (writers : next.writers = { device.writers with
      streams := Function.update device.writers.streams handle (some written.erase) })
    (events : List Event) (passed : List PouchBuf)
    (passes : events.flatMap Event.passes = passed.map (some handle, ·)) :
    LoopsLike device handle stream { loop with enqueued := passed ++ loop.enqueued }
      { writing with events := events ++ writing.events } := by
  obtain ⟨buf, same⟩ := same
  refine ⟨rest.unwritten, ?_, ?_, ?_⟩
  · rw [rest.stream, same]
  · rw [rest.writers, writers]
    simp only [Function.update_idem]
  · rw [List.flatMap_append, passes, rest.passes, List.map_append]

theorem streamWriteLoop_refines (device : Device Key) (handle fuel : Nat) (malloc : Nat → Option Memory)
    (stream : UplinkStream) (data : List UInt8) (held : device.streams handle = some stream) :
    LoopsLike device handle stream (streamWriteLoop cfg stream.id fuel malloc stream.buf.data data)
      (device.streamWriteLoop cfg handle fuel malloc stream data) := by
  induction fuel generalizing device malloc stream data with
  | zero => exact .nil device handle stream data held
  | succ fuel ih =>
    simp only [streamWriteLoop, Device.streamWriteLoop]
    split_ifs with done full
    · exact .nil device handle stream data held
    · cases allocated : blockAllocStream (malloc 0) stream.id false with
      | none =>
        simp only [bufHold]
        exact .nil device handle stream data held
      | some fresh =>
        let finished : Buf :=
          { stream.buf with data := blockFinishStream cfg stream.buf.data stream.id false }
        let passed : Device Key :=
          { device with pool := device.pool.alloc, uplink := uplinkEnqueue device.uplink finished }
        let opened : Buf := ⟨device.pool.next, .stream handle stream.sessionId, fresh⟩
        let written : UplinkStream :=
          { stream with buf := opened.write (data.take (min (blockSpaceGet cfg fresh) data.length)) }
        have rest := ih (passed.putStream handle written) (fun index => malloc (index + 1)) written
          (data.drop (min (blockSpaceGet cfg fresh) data.length)) (Device.putStream_held passed handle written)
        have writers : (passed.putStream handle written).writers = { device.writers with
            streams := Function.update device.writers.streams handle (some written.erase) } :=
          putStream_writers passed handle written
        exact rest.after ⟨_, rfl⟩ writers
          [.streamPassed handle finished opened, .streamWrote handle written] [finished.data] rfl
    · let written : UplinkStream :=
        { stream with
          buf := stream.buf.write (data.take (min (blockSpaceGet cfg stream.buf.data) data.length)) }
      have rest := ih (device.putStream handle written) malloc written
        (data.drop (min (blockSpaceGet cfg stream.buf.data) data.length))
        (Device.putStream_held device handle written)
      exact rest.after ⟨_, rfl⟩ (putStream_writers device handle written) [.streamWrote handle written] [] rfl

theorem streamWrite_refines (device : Device Key) (handle : Nat) (data : List UInt8)
    (malloc : Nat → Option Memory) (stream : UplinkStream) (held : device.streams handle = some stream) :
    let result := pouchStreamWrite cfg device.uplink.id malloc stream.erase data
    (device.pouchStreamWrite cfg handle data malloc).1.writers = { device.writers with
        streams := Function.update device.writers.streams handle (some result.stream) } ∧
      (device.pouchStreamWrite cfg handle data malloc).2.flatMap Event.passes =
        result.enqueued.map (some handle, ·) := by
  have loops : LoopsLike device handle stream
      (streamWriteLoop cfg stream.erase.id data.length malloc stream.erase.buf data)
      (device.streamWriteLoop cfg handle data.length malloc stream data) :=
    streamWriteLoop_refines cfg device handle data.length malloc stream data held
  have sameCheck : pouchStreamIsValid stream.erase device.uplink.id = device.streamIsValid stream := rfl
  simp only [Device.pouchStreamWrite, held, pouchStreamWrite, sameCheck]
  split_ifs with valid
  · generalize device.streamWriteLoop cfg handle data.length malloc stream data = writing at loops ⊢
    generalize streamWriteLoop cfg stream.erase.id data.length malloc stream.erase.buf data = loop at loops ⊢
    have counted : ({ writing.stream with bytes :=
          (writing.stream.bytes + (data.length - writing.unwritten.length)) % cfg.sizeRange } : UplinkStream).erase =
        { writing.stream.erase with bytes :=
          (writing.stream.erase.bytes + (data.length - writing.unwritten.length)) % cfg.sizeRange } := rfl
    refine ⟨?_, ?_⟩
    · rw [putStream_writers, loops.writers, counted, loops.stream, loops.unwritten]
      simp only [Function.update_idem]
    · rw [List.flatMap_append, loops.passes]
      exact List.append_nil _
  · refine ⟨?_, rfl⟩
    have same : device.writers.streams handle = some stream.erase := by simp [Device.writers, held]
    rw [← same, Function.update_eq_self]

theorem streamClose_refines (device : Device Key) (handle : Nat) (stream : UplinkStream)
    (held : device.streams handle = some stream) :
    (device.pouchStreamClose cfg handle).1.writers = { device.writers with
        streams := Function.update device.writers.streams handle none
        openStreams := device.openStreams - 1 } ∧
      (device.pouchStreamClose cfg handle).2.flatMap Event.passes =
        (pouchStreamClose cfg device.uplink.id stream.erase).map (some handle, ·) := by
  have sameCheck : pouchStreamIsValid stream.erase device.uplink.id = device.streamIsValid stream := rfl
  simp only [Device.pouchStreamClose, held, pouchStreamClose, sameCheck]
  have bytes : stream.erase.bytes = stream.bytes := rfl
  rw [bytes]
  split_ifs with valid
  · simp only [Device.writers, Function.apply_update (fun _ => Option.map UplinkStream.erase), Option.map_none,
      uplinkEnqueue]
    exact ⟨trivial, rfl⟩
  · simp only [Device.writers, Function.apply_update (fun _ => Option.map UplinkStream.erase), Option.map_none]
    exact ⟨trivial, rfl⟩

theorem streamOpen_refines (device : Device Key) (path : CString) (contentType : UInt16) (structAllocated : Bool)
    (malloc : Option Memory) :
    let op := WriterOp.streamOpen path contentType structAllocated malloc
    let result := device.pouchUplinkStreamOpen path contentType structAllocated malloc
    result.1.writers = (writerStep cfg device.writers op).1 ∧ result.2.flatMap Event.passes = [] ∧
      (writerStep cfg device.writers op).2.flatMap WriterEvent.passes = [] := by
  have sameCount : device.writers.openStreams = device.openStreams := rfl
  have sameCounter : device.writers.streamId = device.streamId := rfl
  simp only [Device.pouchUplinkStreamOpen, writerStep, pouchUplinkStreamOpen, sameCount, sameCounter]
  generalize newStreamId device.streamId = issued
  obtain ⟨id, streamId⟩ := issued
  split_ifs
  · exact ⟨rfl, rfl, rfl⟩
  · cases blockAllocStream malloc id true with
    | none =>
      simp only [bufHold]
      exact ⟨rfl, rfl, rfl⟩
    | some block =>
      simp only [bufHold, Device.writers, Function.apply_update (fun _ => Option.map UplinkStream.erase)]
      exact ⟨rfl, rfl, rfl⟩
  · exact ⟨rfl, rfl, rfl⟩

end Streams

section Others

variable {cfg} {device next : Device Key} {event : Event} {party : Party}

theorem SmallStep.writers_kept (small : SmallStep device event next) (application : event.party ≠ .application)
    (finish : event.party ≠ .finish) : next.writers = device.writers ∧ event.passes = [] := by
  cases small with
  | entryOpened | entryAccepted | entryPassed => exact absurd rfl application
  | streamOpened | openFailed | streamWrote | streamPassed | streamClosed | streamDiscarded =>
    exact absurd rfl application
  | enqueued => exact absurd rfl application
  | finished => exact absurd rfl finish
  | downlink _ pool crypto downlink on =>
    refine ⟨rfl, ?_⟩
    rcases Event.of_downlink on with ⟨_, rfl⟩ | rfl | ⟨_, _, rfl⟩ | ⟨_, rfl⟩ <;> rfl
  | _ => exact ⟨rfl, rfl⟩

theorem CallTrace.writers_kept {result : Device Key × List Event} (call : CallTrace cfg party device result)
    (application : party ≠ .application) (close : party ≠ .close) (finish : party ≠ .finish) :
    result.1.writers = device.writers ∧ result.2.flatMap Event.passes = [] := by
  have kept := call.trace.invariant
    (fun reached log => reached.writers = device.writers ∧ log.flatMap Event.passes = [])
    (fun event => event.party = party) ?_ ?_ [] ⟨rfl, rfl⟩
  · simpa using kept
  · rintro before event after log small rfl ⟨writers, silent⟩
    obtain ⟨same, passes⟩ := small.writers_kept application finish
    exact ⟨same.trans writers, by simp [silent, passes]⟩
  · intro event member
    rcases Event.party_of_reportedBy (call.parties event member) with same | ⟨_, isFinish⟩ | ⟨_, isClose⟩
    · exact same
    · exact absurd isFinish finish
    · exact absurd isClose close

end Others

structure Refines (call : Device Key × List Event) (result : Writers × List WriterEvent) : Prop where
  writers : call.1.writers = result.1
  passes : call.2.flatMap Event.passes = result.2.flatMap WriterEvent.passes

namespace Device

variable (device : Device Key)

theorem entryWrite_step (call : EntryWrite) :
    Refines (device.step cfg (.entryWrite call)) (writerStep cfg device.writers (.entryWrite call)) := by
  obtain ⟨_, writers, passes⟩ := entryWrite_refines cfg device call
  refine ⟨writers, passes.trans ?_⟩
  exact (passes_enqueued none _).symm

theorem streamOpen_step (path : CString) (contentType : UInt16) (structAllocated : Bool) (malloc : Option Memory) :
    Refines (device.step cfg (.streamOpen path contentType structAllocated malloc))
      (writerStep cfg device.writers (.streamOpen path contentType structAllocated malloc)) := by
  obtain ⟨writers, silent, alsoSilent⟩ := streamOpen_refines cfg device path contentType structAllocated malloc
  exact ⟨writers, silent.trans alsoSilent.symm⟩

theorem streamWrite_step (handle : Nat) (data : List UInt8) (malloc : Nat → Option Memory) :
    Refines (device.step cfg (.streamWrite handle data malloc))
      (writerStep cfg device.writers (.streamWrite handle data malloc)) := by
  cases held : device.streams handle with
  | none =>
    simp only [Device.step, pouchStreamWrite, writerStep, Device.writers, held, Option.map_none]
    exact ⟨rfl, rfl⟩
  | some stream =>
    obtain ⟨writers, passes⟩ := streamWrite_refines cfg device handle data malloc stream held
    have erased : device.writers.streams handle = some stream.erase := by simp [Device.writers, held]
    simp only [Device.step, writerStep, erased]
    refine ⟨writers, ?_⟩
    simp only [List.flatMap_append, passes_enqueued, passes]
    exact (List.append_nil _).symm

theorem streamClose_step (handle : Nat) :
    Refines (device.step cfg (.streamClose handle)) (writerStep cfg device.writers (.streamClose handle)) := by
  cases held : device.streams handle with
  | none =>
    simp only [Device.step, pouchStreamClose, writerStep, Device.writers, held, Option.map_none]
    exact ⟨rfl, rfl⟩
  | some stream =>
    obtain ⟨writers, passes⟩ := streamClose_refines cfg device handle stream held
    have erased : device.writers.streams handle = some stream.erase := by simp [Device.writers, held]
    simp only [Device.step, writerStep, erased]
    refine ⟨writers, ?_⟩
    simp only [List.flatMap_append, passes_enqueued, passes]
    exact (List.append_nil _).symm

theorem closeReturn_step (lock : Status) (inside : 0 < device.closers) :
    Refines (device.step cfg (.closeReturn lock)) (writerStep cfg device.writers (.entryClose lock)) := by
  obtain ⟨writers, passes⟩ := entryBlockClose_refines cfg device lock
  simp only [Device.step, closeReturn, if_pos inside, writerStep]
  refine ⟨writers, ?_⟩
  simp only [List.flatMap_append, passes_enqueued, passes]
  exact List.append_nil _

theorem finish_step (idle : device.starting.isSome = false) :
    Refines (device.step cfg .finish) (writerStep cfg device.writers .sessionFinish) := by
  simp only [Device.step, inTransport, idle, Bool.false_eq_true, if_false, pouchUplinkFinish]
  split_ifs <;> exact ⟨rfl, rfl⟩

/-- One operation of the device is at most one operation of the writers. -/
theorem step_refines (op : DeviceOp Key) (formed : device.Formed cfg) :
    let run := History.run (writerStep cfg) ⟨device.writers, []⟩ (op.writerOps device)
    Refines (device.step cfg op) (run.state, run.log) := by
  have traced := step_call cfg device op formed
  cases op with
  | entryWrite call => exact entryWrite_step cfg device call
  | streamOpen path contentType structAllocated malloc =>
    exact streamOpen_step cfg device path contentType structAllocated malloc
  | streamWrite handle data malloc => exact streamWrite_step cfg device handle data malloc
  | streamClose handle => exact streamClose_step cfg device handle
  | closeReturn lock =>
    simp only [DeviceOp.writerOps]
    split_ifs with inside
    · exact closeReturn_step cfg device lock inside
    · simp only [Device.step, closeReturn, if_neg inside]
      exact ⟨rfl, rfl⟩
  | finish =>
    simp only [DeviceOp.writerOps]
    split_ifs with busy
    · simp only [Device.step, inTransport, if_pos busy]
      exact ⟨rfl, rfl⟩
    · exact finish_step cfg device (by simpa using busy)
  | closeCall =>
    simp only [Device.step, closeCall]
    split_ifs <;> exact ⟨rfl, rfl⟩
  | enqueue malloc bytes => cases malloc <;> exact ⟨rfl, rfl⟩
  | _ =>
    obtain ⟨writers, silent⟩ := traced.writers_kept (by simp [DeviceOp.party]) (by simp [DeviceOp.party])
      (by simp [DeviceOp.party])
    exact ⟨writers, silent⟩

/-- Every run of the device is a run of its writers, which pass on the same blocks. -/
theorem run_refines (ops : List (DeviceOp Key)) :
    let reached := History.run (Device.step cfg) ⟨.boot Key cfg, []⟩ ops
    ∃ writerOps, Refines (reached.state, reached.log)
      ((History.run (writerStep cfg) ⟨.boot 0, []⟩ writerOps).state,
        (History.run (writerStep cfg) ⟨.boot 0, []⟩ writerOps).log) := by
  have refined := History.run_invariant (Device.step cfg) (fun _ _ => True)
    (fun reached => reached.state.Formed cfg ∧ ∃ writerOps, Refines (reached.state, reached.log)
      ((History.run (writerStep cfg) ⟨.boot 0, []⟩ writerOps).state,
        (History.run (writerStep cfg) ⟨.boot 0, []⟩ writerOps).log)) ⟨.boot Key cfg, []⟩ ops
    ⟨boot_formed cfg, [], rfl, rfl⟩ (History.meets_of_forall _ _ _ _ fun _ _ _ => trivial) ?_
  · exact refined.2
  · rintro reached op _ ⟨formed, before, writers, passes⟩
    refine ⟨(step_traced cfg).formed reached.state op formed, before ++ op.writerOps reached.state, ?_⟩
    have next := step_refines cfg reached.state op formed
    simp only at writers passes
    rw [writers] at next
    rw [History.run_append, History.run_log]
    refine ⟨next.writers, ?_⟩
    simp only [History.record, List.flatMap_append, passes, next.passes]

end Device

end Pouch
