import Pouch.EntryRoundTrip
import Pouch.StreamIds

set_option autoImplicit false

namespace Pouch

open ByteMemory

structure BlockWithin (cfg : Config) (block : PouchBuf) : Prop where
  bytes : block.bytes ≤ cfg.maxPlaintextBlockSize
  space : blockSpaceGet cfg block + block.bytes = cfg.maxPlaintextBlockSize

section Blocks

variable {cfg : Config} {block : PouchBuf}

theorem BlockWithin.of_le (within : block.bytes ≤ cfg.maxPlaintextBlockSize) : BlockWithin cfg block := by
  refine ⟨within, ?_⟩
  rw [blockSpaceGet_of_le cfg block within]
  exact Nat.sub_add_cancel within

theorem BlockWithin.write (within : BlockWithin cfg block) (data : List UInt8)
    (fits : data.length ≤ blockSpaceGet cfg block) : BlockWithin cfg (bufWrite block data) := by
  have space := within.space
  apply BlockWithin.of_le
  rw [bufWrite_bytes]
  omega

theorem BlockWithin.finish (within : BlockWithin cfg block) (id flags : UInt8) :
    BlockWithin cfg (finish cfg block id flags) := by
  apply BlockWithin.of_le
  rw [finish_bytes]
  exact within.bytes

theorem BlockWithin.blockFinish (within : BlockWithin cfg block) : BlockWithin cfg (blockFinish cfg block) :=
  within.finish blockIdEntry (firstDataMask ||| lastDataMask)

theorem BlockWithin.blockFinishStream (within : BlockWithin cfg block) (id : UInt8) (last : Bool) :
    BlockWithin cfg (blockFinishStream cfg block id last) :=
  within.finish id (if last then lastDataMask else 0)

theorem blockAlloc_within (cfg : Config) (malloc : Option Memory)
    (allocated : blockAlloc malloc = some block) : BlockWithin cfg block :=
  .of_le (blockAlloc_open cfg malloc block allocated).within

theorem blockAllocStream_within (cfg : Config) (malloc : Option Memory) (id : UInt8) (first : Bool)
    (allocated : blockAllocStream malloc id first = some block) : BlockWithin cfg block := by
  have room := cfg.maxPlaintextBlockSize_ge
  apply BlockWithin.of_le
  rw [blockAllocStream_bytes malloc id first block allocated]
  omega

theorem writeStreamHeader_bytes (contentType : UInt16) (path : CString) :
    (writeStreamHeader block contentType path).bytes = block.bytes + 3 + path.bytes.length := by
  simp only [writeStreamHeader, bufWrite_bytes, putBe16_length, List.length_cons, List.length_nil]

-- The check of the entry writer is as good as the sum it makes.
theorem writeEntry_within (within : BlockWithin cfg block) (written : PouchBuf) (path : CString)
    (contentType : UInt16) (data : List UInt8)
    (sum : entryHeaderOverhead + path.bytes.length + data.length < cfg.sizeRange)
    (write : writeEntry cfg block path contentType data = some written) :
    BlockWithin cfg written := by
  have space := within.space
  simp only [writeEntry] at write
  rw [Nat.mod_eq_of_lt sum] at write
  split_ifs at write with full
  obtain rfl := Option.some.inj write
  apply BlockWithin.of_le
  simp only [bufWrite_bytes, putBe16_length, List.length_cons, List.length_nil]
  simp only [entryHeaderOverhead] at full
  omega

theorem streamWriteLoop_within (id : UInt8) (fuel : Nat) (malloc : Nat → Option Memory)
    (within : BlockWithin cfg block) (data : List UInt8) :
    let loop := streamWriteLoop cfg id fuel malloc block data
    BlockWithin cfg loop.buf ∧ ∀ sent ∈ loop.enqueued, BlockWithin cfg sent := by
  induction fuel generalizing malloc block data with
  | zero => exact ⟨within, by simp [streamWriteLoop]⟩
  | succ fuel ih =>
    simp only [streamWriteLoop]
    split_ifs with done full
    · exact ⟨within, by simp⟩
    · cases allocated : blockAllocStream (malloc 0) id false with
      | none => exact ⟨within, by simp⟩
      | some fresh =>
        have freshWithin := blockAllocStream_within cfg (malloc 0) id false allocated
        obtain ⟨buf, sent⟩ := ih (fun index => malloc (index + 1))
          (freshWithin.write (data.take (min (blockSpaceGet cfg fresh) data.length))
            (by rw [List.length_take]; omega))
          (data.drop (min (blockSpaceGet cfg fresh) data.length))
        refine ⟨buf, ?_⟩
        simp only [List.mem_cons, forall_eq_or_imp]
        exact ⟨within.blockFinishStream id false, sent⟩
    · exact ih malloc (within.write _ (by rw [List.length_take]; omega)) _

end Blocks

structure WritersWithin (cfg : Config) (history : History Writers WriterEvent) : Prop where
  entries : ∀ block, history.state.block = some block → BlockWithin cfg block
  streams : ∀ handle stream, history.state.streams handle = some stream → BlockWithin cfg stream.buf
  passed : ∀ owner block, .enqueued owner block ∈ history.log → BlockWithin cfg block

/-- What the writers do not check: that the header of a stream fits its first block, and that the
size of an entry can be counted. -/
def HeadersFit (cfg : Config) (history : History Writers WriterEvent) : WriterOp → Prop
  | .streamOpen path contentType structAllocated malloc =>
    WriterOp.opens history.state (.streamOpen path contentType structAllocated malloc) = true →
      3 + path.bytes.length ≤ cfg.maxBlockPayloadSize
  | .entryWrite call => ∀ path data, call.path = some path → call.data = some data →
      entryHeaderOverhead + path.bytes.length + data.length < cfg.sizeRange
  | _ => True

section Step

variable {cfg : Config} {history : History Writers WriterEvent}

theorem WritersWithin.grow (invariant : WritersWithin cfg history) (next : Writers)
    (events : List WriterEvent)
    (entries : ∀ block, next.block = some block → BlockWithin cfg block)
    (streams : ∀ handle stream, next.streams handle = some stream → BlockWithin cfg stream.buf)
    (passed : ∀ owner block, .enqueued owner block ∈ events → BlockWithin cfg block) :
    WritersWithin cfg ⟨next, history.log ++ events⟩ := by
  refine ⟨entries, streams, ?_⟩
  intro owner block member
  rcases List.mem_append.mp member with old | new
  · exact invariant.passed owner block old
  · exact passed owner block new

theorem pouchUplinkEntryWrite_within (block : Option PouchBuf) (call : EntryWrite)
    (within : ∀ opened, block = some opened → BlockWithin cfg opened)
    (sum : ∀ path data, call.path = some path → call.data = some data →
      entryHeaderOverhead + path.bytes.length + data.length < cfg.sizeRange) :
    (∀ opened, (pouchUplinkEntryWrite cfg block call).block = some opened → BlockWithin cfg opened) ∧
      ∀ sent ∈ (pouchUplinkEntryWrite cfg block call).enqueued, BlockWithin cfg sent := by
  generalize result : pouchUplinkEntryWrite cfg block call = outcome
  have step := entryWrite_step cfg block call
  rw [result] at step
  cases step with
  | refused _ err => exact ⟨within, by simp⟩
  | opened fresh allocated =>
    refine ⟨?_, by simp⟩
    rintro opened ⟨⟩
    exact blockAlloc_within cfg call.malloc allocated
  | wrote _ target written path data pathGiven dataGiven room write =>
    refine ⟨?_, by simp⟩
    rintro opened ⟨⟩
    have targetWithin : BlockWithin cfg target := by
      rcases room with held | ⟨_, allocated⟩
      · exact within target held
      · exact blockAlloc_within cfg call.malloc allocated
    exact writeEntry_within targetWithin _ path call.contentType data
      (sum path data pathGiven dataGiven) write
  | flushed full next allocated =>
    refine ⟨?_, by simpa using (within full rfl).blockFinish⟩
    intro opened isOpened
    exact blockAlloc_within cfg call.malloc (allocated.trans isOpened)
  | flushedWrote full fresh written path data pathGiven dataGiven allocated write =>
    refine ⟨?_, by simpa using (within full rfl).blockFinish⟩
    rintro opened ⟨⟩
    exact writeEntry_within (blockAlloc_within cfg call.malloc allocated) _ path call.contentType data
      (sum path data pathGiven dataGiven) write

theorem entryBlockClose_within (block : Option PouchBuf) (lock : Status)
    (within : ∀ opened, block = some opened → BlockWithin cfg opened) :
    (∀ opened, (entryBlockClose cfg block lock).block = some opened → BlockWithin cfg opened) ∧
      ∀ sent ∈ (entryBlockClose cfg block lock).enqueued, BlockWithin cfg sent := by
  cases lock with
  | some err => exact ⟨within, by simp [entryBlockClose]⟩
  | none =>
    cases block with
    | none => exact ⟨by simp [entryBlockClose], by simp [entryBlockClose]⟩
    | some opened =>
      simp only [entryBlockClose]
      split_ifs
      · exact ⟨by simp, by simpa using (within opened rfl).blockFinish⟩
      · exact ⟨within, by simp⟩

theorem streamOpen_opens (state : Writers) (path : CString) (contentType : UInt16)
    (structAllocated : Bool) (malloc : Option Memory) :
    (pouchUplinkStreamOpen state path contentType structAllocated malloc).1.isSome =
      WriterOp.opens state (.streamOpen path contentType structAllocated malloc) := by
  by_cases full : pouchStreamsMax ≤ state.openStreams
  · simp [pouchUplinkStreamOpen, WriterOp.opens, WriterOp.takesId, full, Nat.not_lt.mpr full]
  · cases structAllocated <;> cases malloc <;>
      simp [pouchUplinkStreamOpen, WriterOp.opens, WriterOp.takesId, full, Nat.not_le.mp full,
        blockAllocStream, bufAlloc]

theorem streamOpen_block (state : Writers) (path : CString) (contentType : UInt16)
    (structAllocated : Bool) (malloc : Option Memory) :
    (pouchUplinkStreamOpen state path contentType structAllocated malloc).2.block = state.block := by
  unfold pouchUplinkStreamOpen
  generalize newStreamId state.streamId = issued
  obtain ⟨id, counter⟩ := issued
  split_ifs
  · rfl
  · dsimp only
    cases blockAllocStream malloc id true with
    | none => rfl
    | some block => rfl
  · rfl

theorem streamOpen_within (cfg : Config) (state : Writers) (path : CString) (contentType : UInt16)
    (structAllocated : Bool) (malloc : Option Memory) (stream : PouchStream)
    (fits : 3 + path.bytes.length ≤ cfg.maxBlockPayloadSize)
    (opened : (pouchUplinkStreamOpen state path contentType structAllocated malloc).1 = some stream) :
    BlockWithin cfg stream.buf := by
  obtain ⟨_, _, cases'⟩ := streamOpen_cases state path contentType structAllocated malloc
  obtain ⟨_, _, block, allocated, buf⟩ := cases' stream opened
  have bytes := blockAllocStream_bytes malloc stream.id true block allocated
  have plaintext : cfg.maxPlaintextBlockSize = 3 + cfg.maxBlockPayloadSize := rfl
  apply BlockWithin.of_le
  rw [buf, writeStreamHeader_bytes, bytes]
  omega

theorem pouchStreamWrite_within (uplinkSessionId : Nat) (malloc : Nat → Option Memory)
    (stream : PouchStream) (data : List UInt8) (within : BlockWithin cfg stream.buf) :
    let result := pouchStreamWrite cfg uplinkSessionId malloc stream data
    BlockWithin cfg result.stream.buf ∧ ∀ sent ∈ result.enqueued, BlockWithin cfg sent := by
  unfold pouchStreamWrite
  split_ifs
  · exact streamWriteLoop_within stream.id data.length malloc within data
  · exact ⟨within, by simp⟩

theorem pouchStreamClose_within (uplinkSessionId : Nat) (stream : PouchStream)
    (within : BlockWithin cfg stream.buf) :
    ∀ sent ∈ pouchStreamClose cfg uplinkSessionId stream, BlockWithin cfg sent := by
  unfold pouchStreamClose
  split_ifs
  · simpa using within.blockFinishStream stream.id true
  · simp

theorem update_within (streams : Nat → Option PouchStream) (handle : Nat) (changed : Option PouchStream)
    (others : ∀ other stream, streams other = some stream → BlockWithin cfg stream.buf)
    (within : ∀ stream, changed = some stream → BlockWithin cfg stream.buf) (other : Nat)
    (stream : PouchStream) (held : Function.update streams handle changed other = some stream) :
    BlockWithin cfg stream.buf := by
  by_cases same : other = handle
  · rw [same, Function.update_self] at held
    exact within stream held
  · rw [Function.update_of_ne same] at held
    exact others other stream held

theorem enqueued_within (owner : Option Nat) (blocks : List PouchBuf)
    (sent : ∀ buf ∈ blocks, BlockWithin cfg buf) (other : Option Nat) (block : PouchBuf)
    (member : .enqueued other block ∈ blocks.map (WriterEvent.enqueued owner)) :
    BlockWithin cfg block := by
  obtain ⟨buf, isSent, same⟩ := List.mem_map.mp member
  obtain ⟨_, rfl⟩ := WriterEvent.enqueued.inj same
  exact sent buf isSent

theorem writerStep_within (op : WriterOp) (fits : HeadersFit cfg history op)
    (invariant : WritersWithin cfg history) :
    WritersWithin cfg (history.record (writerStep cfg) op) := by
  simp only [History.record]
  cases op with
  | entryWrite call =>
    obtain ⟨opened, sent⟩ := pouchUplinkEntryWrite_within history.state.block call invariant.entries fits
    refine invariant.grow _ _ opened invariant.streams ?_
    exact enqueued_within none _ sent
  | entryClose lock =>
    obtain ⟨opened, sent⟩ := entryBlockClose_within history.state.block lock invariant.entries
    refine invariant.grow _ _ opened invariant.streams ?_
    exact enqueued_within none _ sent
  | sessionFinish => exact invariant.grow _ _ invariant.entries invariant.streams (by simp [writerStep])
  | streamOpen path contentType structAllocated malloc =>
    obtain ⟨sameStreams, _, _⟩ :=
      streamOpen_cases history.state path contentType structAllocated malloc
    have sameBlock := streamOpen_block history.state path contentType structAllocated malloc
    have opens := streamOpen_opens history.state path contentType structAllocated malloc
    have within := streamOpen_within cfg history.state path contentType structAllocated malloc
    simp only [HeadersFit, ← opens] at fits
    simp only [writerStep]
    generalize pouchUplinkStreamOpen history.state path contentType structAllocated malloc = result at *
    obtain ⟨stream, next⟩ := result
    simp only at sameStreams sameBlock fits within
    cases stream with
    | none =>
      refine invariant.grow _ _ ?_ ?_ (by simp)
      · rw [sameBlock]
        exact invariant.entries
      · rw [sameStreams]
        exact invariant.streams
    | some stream =>
      refine invariant.grow _ _ ?_ ?_ (by simp)
      · rw [sameBlock]
        exact invariant.entries
      · dsimp only
        rw [sameStreams]
        apply update_within _ _ _ invariant.streams
        rintro opened ⟨⟩
        exact within stream (fits rfl) rfl
  | streamWrite handle data malloc =>
    cases held : history.state.streams handle with
    | none =>
      simp only [writerStep, held]
      exact invariant.grow _ _ invariant.entries invariant.streams (by simp)
    | some stream =>
      obtain ⟨kept, sent⟩ := pouchStreamWrite_within history.state.uplinkSessionId malloc stream data
        (invariant.streams handle stream held)
      simp only [writerStep, held]
      refine invariant.grow _ _ invariant.entries (update_within _ _ _ invariant.streams ?_) ?_
      · rintro changed ⟨⟩
        exact kept
      · intro owner block member
        rcases List.mem_append.mp member with enqueued | wrote
        · exact enqueued_within (some handle) _ sent owner block enqueued
        · simp at wrote
  | streamClose handle =>
    cases held : history.state.streams handle with
    | none =>
      simp only [writerStep, held]
      exact invariant.grow _ _ invariant.entries invariant.streams (by simp)
    | some stream =>
      have sent := pouchStreamClose_within history.state.uplinkSessionId stream
        (invariant.streams handle stream held)
      simp only [writerStep, held]
      refine invariant.grow _ _ invariant.entries (update_within _ _ _ invariant.streams ?_) ?_
      · rintro changed ⟨⟩
      · intro owner block member
        rcases List.mem_append.mp member with enqueued | closed
        · exact enqueued_within (some handle) _ sent owner block enqueued
        · simp at closed

end Step

/-- In a run whose headers fit, no block outgrows its allocation: not the open entry block, not the
block of an open stream, and none that has been passed on. -/
theorem blocks_within_allocation (cfg : Config) (uplinkSessionId : Nat) (ops : List WriterOp)
    (fits : History.Meets (writerStep cfg) (HeadersFit cfg) ⟨.boot uplinkSessionId, []⟩ ops) :
    WritersWithin cfg (History.run (writerStep cfg) ⟨.boot uplinkSessionId, []⟩ ops) := by
  refine History.run_invariant (writerStep cfg) (HeadersFit cfg) (WritersWithin cfg) _ ops ?_ fits ?_
  · exact ⟨by simp [Writers.boot], by simp [Writers.boot], by simp⟩
  · exact fun reached op fits invariant => writerStep_within op fits invariant

def sampleRun : List WriterOp :=
  [openedStream, .streamWrite 0 [1, 2, 3] fun _ => none,
    .entryWrite ⟨some samplePath, 42, some [7], none, some fun _ => 0⟩, .streamClose 0, .entryClose none]

theorem blocks_within_allocation_sample :
    History.Meets (writerStep (defaultConfig .none)) (HeadersFit (defaultConfig .none))
        ⟨.boot 0, []⟩ sampleRun ∧
      WritersWithin (defaultConfig .none)
        (History.run (writerStep (defaultConfig .none)) ⟨.boot 0, []⟩ sampleRun) := by
  have fits : History.Meets (writerStep (defaultConfig .none)) (HeadersFit (defaultConfig .none))
      ⟨.boot 0, []⟩ sampleRun := by
    refine ⟨fun _ => by decide, trivial, ?_, trivial, trivial, trivial⟩
    rintro path data ⟨⟩ ⟨⟩
    decide
  exact ⟨fits, blocks_within_allocation (defaultConfig .none) 0 sampleRun fits⟩

-- A path of 510 bytes: with the 3 bytes in front of it one more than a block has room for.
def longPath : CString where
  bytes := List.replicate 510 1
  noNul := by
    intro byte member
    rw [List.eq_of_mem_replicate member]
    decide

/-- Opening a stream at a long path writes behind the end of the block. -/
theorem stream_header_overflows :
    ∃ stream, (History.run (writerStep (defaultConfig .none)) ⟨.boot 0, []⟩
        [.streamOpen longPath 42 true (some fun _ => 0)]).state.streams 0 = some stream ∧
      (defaultConfig .none).maxPlaintextBlockSize < stream.buf.bytes ∧
      blockSpaceGet (defaultConfig .none) stream.buf = 2 ^ 32 - 1 := by
  have length : longPath.bytes.length = 510 := List.length_replicate
  refine ⟨⟨1, writeStreamHeader (writeBlockHeader ⟨0, fun _ => 0⟩ 0 1 firstDataMask) 42 longPath, 0, 0⟩,
    rfl, ?_⟩
  rw [blockSpaceGet, blockSizeGet, bufSizeGet, writeStreamHeader_bytes, length]
  decide

end Pouch
