import Pouch.Device.UplinkTraces
import Pouch.StreamRoundTrip

set_option autoImplicit false

namespace Pouch

open ByteMemory Ledger

theorem writeEntry_contents (cfg : Config) (block written : PouchBuf) (path : CString)
    (contentType : UInt16) (data : List UInt8)
    (write : writeEntry cfg block path contentType data = some written) :
    written.contents = block.contents ++ entryBytes path contentType data := by
  simp only [writeEntry] at write
  split_ifs at write
  obtain rfl := Option.some.inj write
  simp only [bufWrite_contents, entryBytes, List.append_assoc]

theorem finish_drop (cfg : Config) (block : PouchBuf) (id flags : UInt8) :
    (finish cfg block id flags).contents.drop 3 = block.contents.drop 3 := by
  have memory : ∃ idByte, (finish cfg block id flags).buf =
      store (store block.buf 0 (putBe16 (cfg.sizeSub block.bytes 2))) 2 [idByte] :=
    ⟨_, rfl⟩
  obtain ⟨idByte, memory⟩ := memory
  by_cases short : block.bytes ≤ 3
  · rw [List.drop_eq_nil_of_le (by simpa using short), List.drop_eq_nil_of_le (by simpa using short)]
  · simp only [PouchBuf.contents, finish_bytes]
    rw [load_drop _ _ _ _ (by omega), load_drop _ _ _ _ (by omega), memory,
      load_store_frame _ _ _ _ _ (Or.inr (by simp)), load_store_frame _ _ _ _ _ (Or.inr (by simp))]

theorem bufWrite_flag (buf : PouchBuf) (data : List UInt8) (header : 3 ≤ buf.bytes) :
    (bufWrite buf data).buf 2 = buf.buf 2 :=
  store_outside buf.buf buf.bytes data 2 (Or.inl header)

theorem finish_flag (cfg : Config) (block : PouchBuf) (id flags : UInt8) :
    (finish cfg block id flags).buf 2 = block.buf 2 ||| flags := by
  let sized := store block.buf 0 (putBe16 (cfg.sizeSub block.bytes 2))
  have written : (finish cfg block id flags).buf 2 = sized 2 ||| flags :=
    store_head sized 2 (sized 2 ||| flags) []
  have kept : sized 2 = block.buf 2 := store_outside _ _ _ _ (Or.inr (by simp))
  rw [written, kept]

theorem blockAllocStream_flag (malloc : Option Memory) (streamId : UInt8) (first : Bool) (block : PouchBuf)
    (allocated : blockAllocStream malloc streamId first = some block)
    (masked : streamId &&& blockIdMask = streamId) :
    block.bytes = 3 ∧ (block.buf 2 &&& lastDataMask != 0) = false := by
  cases malloc with
  | none => simp [blockAllocStream, bufAlloc] at allocated
  | some memory =>
    simp only [blockAllocStream, bufAlloc, Option.map_some, Option.some.injEq] at allocated
    subst allocated
    have flags := (idByte_flags streamId first false masked).2.2
    simp only [idByte, Bool.false_eq_true, if_false, UInt8.or_zero] at flags
    have written := store_head (store memory 0 (putBe16 0)) 2 (streamId ||| if first then firstDataMask else 0) []
    refine ⟨rfl, ?_⟩
    rw [← written] at flags
    exact flags

theorem bufHold_some {pool next : Ledger} {owner : Owner} {allocated : Option PouchBuf} {buf : Buf}
    (held : bufHold pool owner allocated = (some buf, next)) :
    ∃ data, allocated = some data ∧ buf = ⟨pool.next, owner, data⟩ ∧ next = pool.alloc := by
  cases allocated with
  | none => simp [bufHold] at held
  | some data =>
    simp only [bufHold, Prod.mk.injEq, Option.some.injEq] at held
    exact ⟨data, rfl, held.1.symm, held.2.symm⟩

theorem bufHold_none {pool next : Ledger} {owner : Owner} {allocated : Option PouchBuf}
    (held : bufHold pool owner allocated = (none, next)) : allocated = none ∧ next = pool := by
  cases allocated with
  | none =>
    simp only [bufHold, Prod.mk.injEq, true_and] at held
    exact ⟨rfl, held.symm⟩
  | some data => simp [bufHold] at held

theorem UplinkStream.Unfinished.write {stream : UplinkStream} (unfinished : stream.Unfinished)
    (data : List UInt8) : ({ stream with buf := stream.buf.write data } : UplinkStream).Unfinished := by
  refine ⟨unfinished.masked, ?_, ?_⟩
  · exact Nat.le_trans unfinished.header (Nat.le_add_right _ _)
  · simp only [Buf.isLast, Buf.write, bufWrite_flag _ data unfinished.header]
    exact unfinished.flag

theorem unfinished_alloc (malloc : Option Memory) (stream : UplinkStream) (first : Bool) (block : PouchBuf)
    (allocated : blockAllocStream malloc stream.id first = some block)
    (masked : stream.id &&& blockIdMask = stream.id) (held : stream.buf.data = block) : stream.Unfinished := by
  obtain ⟨bytes, flag⟩ := blockAllocStream_flag malloc stream.id first block allocated masked
  exact ⟨masked, by rw [held, bytes], by rw [Buf.isLast, held]; exact flag⟩

theorem UplinkStream.Unfinished.passes {stream : UplinkStream} (unfinished : stream.Unfinished) (cfg : Config) :
    ({ stream.buf with data := blockFinishStream cfg stream.buf.data stream.id false } : Buf).isLast = false := by
  simp only [Buf.isLast, blockFinishStream, finish_flag, Bool.false_eq_true, if_false, UInt8.or_zero]
  exact unfinished.flag

namespace Device

variable {Key : Type} (cfg : Config) (device : Device Key)

section Entries

variable (path : CString) (contentType : UInt16) (data : List UInt8)

theorem writeOpen_trace (opened : Buf) (held : device.entryBlock = some opened)
    (written : Device Key × List Event)
    (write : device.writeOpen cfg path contentType data opened = some written) :
    Trace (PartyStep .application) device written.2 written.1 := by
  unfold writeOpen at write
  cases entry : writeEntry cfg opened.data path contentType data with
  | none => simp [entry] at write
  | some block =>
    simp only [entry, Option.some.injEq] at write
    subst write
    refine .single ⟨.entryAccepted device opened _ _ held rfl rfl ?_, rfl⟩
    exact writeEntry_contents cfg opened.data block path contentType data entry

theorem writeNew_trace (malloc : Option Memory) (closed : device.entryBlock = none) :
    Trace (PartyStep .application) device (device.writeNew cfg path contentType data malloc).2.2
      (device.writeNew cfg path contentType data malloc).2.1 := by
  unfold writeNew
  generalize allocation : bufHold device.pool .entries (blockAlloc malloc) = result
  obtain ⟨fresh, pool⟩ := result
  cases fresh with
  | none =>
    obtain ⟨_, rfl⟩ := bufHold_none allocation
    have same : ({ device with pool := device.pool, entryBlock := none } : Device Key) = device := by
      rw [← closed]
    simp only [same]
    exact .nil device
  | some fresh =>
    obtain ⟨block, allocated, rfl, rfl⟩ := bufHold_some allocation
    have bytes := blockAlloc_bytes malloc block allocated
    have opens : PartyStep .application device (.entryOpened ⟨device.pool.next, .entries, block⟩) _ :=
      ⟨.entryOpened device _ closed rfl rfl (Nat.le_of_eq bytes.symm), rfl⟩
    simp only
    split
    · exact .single opens
    · rename_i write
      exact .cons opens (writeOpen_trace cfg _ path contentType data _ rfl _ write)

theorem entryPassed_step (opened : Buf) (held : device.entryBlock = some opened) :
    SmallStep device (.entryPassed { opened with data := blockFinish cfg opened.data })
      (device.passEntries cfg opened).1 :=
  .entryPassed device opened _ held rfl rfl
    (finish_drop cfg opened.data blockIdEntry (firstDataMask ||| lastDataMask))

end Entries

theorem entryWrite_trace (call : EntryWrite) :
    Trace (PartyStep .application) device (device.pouchUplinkEntryWrite cfg call).2.2
      (device.pouchUplinkEntryWrite cfg call).2.1 := by
  unfold pouchUplinkEntryWrite
  cases call.path with
  | none => exact .nil device
  | some path =>
    cases call.data with
    | none => exact .nil device
    | some data =>
      simp only
      split_ifs
      · exact .nil device
      · cases call.lock with
        | some err => exact .nil device
        | none =>
          cases held : device.entryBlock with
          | none => exact writeNew_trace cfg device path call.contentType data call.malloc held
          | some opened =>
            simp only
            cases write : device.writeOpen cfg path call.contentType data opened with
            | some written =>
              exact writeOpen_trace cfg device path call.contentType data opened held written write
            | none =>
              have passed := entryPassed_step cfg device opened held
              exact .cons ⟨passed, rfl⟩ (writeNew_trace cfg _ path call.contentType data call.malloc rfl)

theorem entryBlockClose_trace (lock : Status) :
    Trace (PartyStep .close) device (device.entryBlockClose cfg lock).2 (device.entryBlockClose cfg lock).1 ∧
      (device.entryBlockClose cfg lock).1.closers = device.closers ∧
      (lock = none → ∀ opened, (device.entryBlockClose cfg lock).1.entryBlock = some opened →
        opened.data.bytes = 0) := by
  unfold entryBlockClose
  cases lock with
  | some err => exact ⟨.nil device, rfl, by simp⟩
  | none =>
    cases held : device.entryBlock with
    | none => exact ⟨.nil device, rfl, by simp [held]⟩
    | some opened =>
      simp only
      split_ifs with filled
      · exact ⟨.single ⟨entryPassed_step cfg device opened held, rfl⟩, rfl, by simp [passEntries]⟩
      · refine ⟨.nil device, rfl, ?_⟩
        intro _ other same
        obtain rfl := Option.some.inj (held.symm.trans same)
        exact Nat.eq_zero_of_not_pos filled

theorem closeReturn_trace (lock : Status) :
    Trace (PartyStep .close) device (device.closeReturn cfg lock).2 (device.closeReturn cfg lock).1 := by
  unfold closeReturn
  split_ifs with inside
  · obtain ⟨trace, sameClosers, emptied⟩ := entryBlockClose_trace cfg device lock
    generalize device.entryBlockClose cfg lock = result at *
    refine trace.snoc ⟨.closeReturned result.1 lock ?_ emptied, rfl⟩
    rw [sameClosers]
    exact inside
  · exact .nil device

theorem enqueueBlock_trace (malloc : Option Memory) (bytes : List UInt8) :
    Trace (PartyStep .application) device (device.enqueueBlock malloc bytes).2
      (device.enqueueBlock malloc bytes).1 := by
  unfold enqueueBlock
  generalize allocation : bufHold device.pool .internal (bufAlloc malloc) = result
  obtain ⟨fresh, pool⟩ := result
  cases fresh with
  | none =>
    obtain ⟨_, rfl⟩ := bufHold_none allocation
    exact .nil device
  | some fresh =>
    obtain ⟨block, allocated, rfl, rfl⟩ := bufHold_some allocation
    exact .single ⟨.enqueued device _ rfl rfl, rfl⟩

section Streams

theorem streamOpen_trace (path : CString) (contentType : UInt16) (structAllocated : Bool)
    (malloc : Option Memory) :
    Trace (PartyStep .application) device (device.pouchUplinkStreamOpen path contentType structAllocated malloc).2
      (device.pouchUplinkStreamOpen path contentType structAllocated malloc).1 := by
  unfold pouchUplinkStreamOpen
  have masked := (newStreamId_valid device.streamId).1
  generalize newStreamId device.streamId = issued at masked ⊢
  obtain ⟨id, streamId⟩ := issued
  split_ifs
  · exact .nil device
  · simp only
    generalize allocation : bufHold device.pool _ (blockAllocStream malloc id true) = result
    obtain ⟨fresh, pool⟩ := result
    cases fresh with
    | none =>
      obtain ⟨_, rfl⟩ := bufHold_none allocation
      exact .single ⟨.openFailed device streamId, rfl⟩
    | some fresh =>
      obtain ⟨block, allocated, rfl, rfl⟩ := bufHold_some allocation
      have opened := unfinished_alloc malloc
        ⟨id, ⟨device.pool.next, .stream device.nextHandle device.uplink.id, block⟩, 0, device.uplink.id⟩ true
        block allocated masked rfl
      have written := ((opened.write (putBe16 contentType.toNat)).write [UInt8.ofNat path.bytes.length]).write
        path.bytes
      exact .single ⟨.streamOpened device _ streamId rfl rfl rfl written, rfl⟩
  · exact .nil device

structure Writes (device : Device Key) (handle : Nat) (writing : StreamWriting Key) : Prop where
  trace : Trace (PartyStep .application) device writing.events writing.device
  held : writing.device.streams handle = some writing.stream

theorem putStream_held (handle : Nat) (stream : UplinkStream) :
    (device.putStream handle stream).streams handle = some stream :=
  Function.update_self ..

theorem putStream_twice (handle : Nat) (first second : UplinkStream) :
    (device.putStream handle first).putStream handle second = device.putStream handle second := by
  simp only [putStream, Function.update_idem]

theorem streamWriteLoop_writes (handle fuel : Nat) (malloc : Nat → Option Memory)
    (stream : UplinkStream) (data : List UInt8) (held : device.streams handle = some stream)
    (valid : stream.sessionId = device.uplink.id) :
    Writes device handle (device.streamWriteLoop cfg handle fuel malloc stream data) := by
  induction fuel generalizing malloc device stream data with
  | zero => exact ⟨.nil device, held⟩
  | succ fuel ih =>
    simp only [streamWriteLoop]
    split_ifs with done full
    · exact ⟨.nil device, held⟩
    · generalize allocation : bufHold device.pool _ (blockAllocStream (malloc 0) stream.id false) = result
      obtain ⟨fresh, pool⟩ := result
      cases fresh with
      | none =>
        obtain ⟨_, rfl⟩ := bufHold_none allocation
        exact ⟨.nil device, held⟩
      | some fresh =>
        obtain ⟨block, allocated, rfl, rfl⟩ := bufHold_some allocation
        let fresh : Buf := ⟨device.pool.next, .stream handle stream.sessionId, block⟩
        let finished : Buf :=
          { stream.buf with data := blockFinishStream cfg stream.buf.data stream.id false }
        let passed : Device Key :=
          { device with pool := device.pool.alloc, uplink := uplinkEnqueue device.uplink finished }
        let next : UplinkStream :=
          { stream with buf := fresh.write (data.take (min (blockSpaceGet cfg block) data.length)) }
        have passes := SmallStep.streamPassed device handle stream { stream with buf := fresh } finished
          held valid rfl rfl rfl rfl rfl fun unfinished =>
            ⟨unfinished_alloc _ _ false block allocated unfinished.masked rfl, unfinished.passes cfg⟩
        have wrote := SmallStep.streamWrote _ handle _ next
          (putStream_held passed handle { stream with buf := fresh }) rfl rfl rfl fun unfinished =>
            unfinished.write _
        rw [putStream_twice] at wrote
        have writes := ih (passed.putStream handle next) (fun index => malloc (index + 1)) next
          (data.drop (min (blockSpaceGet cfg block) data.length)) (putStream_held passed handle next) valid
        exact ⟨.cons ⟨passes, rfl⟩ (.cons ⟨wrote, rfl⟩ writes.trace), writes.held⟩
    · have writes := ih _ malloc
        { stream with
          buf := stream.buf.write (data.take (min (blockSpaceGet cfg stream.buf.data) data.length)) }
        (data.drop (min (blockSpaceGet cfg stream.buf.data) data.length)) (putStream_held device handle _) valid
      refine ⟨.cons ⟨.streamWrote device handle stream _ held rfl rfl rfl ?_, rfl⟩ writes.trace, writes.held⟩
      exact fun unfinished => unfinished.write _

theorem streamWrite_trace (handle : Nat) (data : List UInt8) (malloc : Nat → Option Memory) :
    Trace (PartyStep .application) device (device.pouchStreamWrite cfg handle data malloc).2
      (device.pouchStreamWrite cfg handle data malloc).1 := by
  unfold pouchStreamWrite
  cases held : device.streams handle with
  | none => exact .nil device
  | some stream =>
    simp only
    split_ifs with isValid
    · have valid : stream.sessionId = device.uplink.id := by simpa [streamIsValid] using isValid
      have writes := streamWriteLoop_writes cfg device handle data.length malloc stream data held valid
      exact writes.trace.snoc ⟨.streamWrote _ handle _ _ writes.held rfl rfl rfl fun unfinished =>
        ⟨unfinished.masked, unfinished.header, unfinished.flag⟩, rfl⟩
    · exact .nil device

theorem streamClose_trace (handle : Nat) :
    Trace (PartyStep .application) device (device.pouchStreamClose cfg handle).2
      (device.pouchStreamClose cfg handle).1 := by
  unfold pouchStreamClose
  cases held : device.streams handle with
  | none => exact .nil device
  | some stream =>
    simp only
    split_ifs with isValid
    · have valid : stream.sessionId = device.uplink.id := by simpa [streamIsValid] using isValid.1
      exact .single ⟨.streamClosed device handle stream _ held valid rfl rfl, rfl⟩
    · exact .single ⟨.streamDiscarded device handle stream held, rfl⟩

end Streams

end Device

end Pouch
