import Pouch.Shared.History
import Pouch.StreamRoundTrip

set_option autoImplicit false

namespace Pouch

open ByteMemory

def WriterEvent.owner : WriterEvent → Option Nat
  | .enqueued owner _ => owner
  | .opened handle _ _ _ => some handle
  | .wrote handle _ => some handle
  | .closed handle _ => some handle

section Projections

variable (handle : Nat)

def streamBlocks (log : List WriterEvent) : List PouchBuf :=
  log.flatMap fun
    | .enqueued owner block => if owner = some handle then [block] else []
    | _ => []

def acceptedBytes (log : List WriterEvent) : List UInt8 :=
  log.flatMap fun
    | .wrote owner accepted => if owner = handle then accepted else []
    | _ => []

@[simp] theorem streamBlocks_append (log events : List WriterEvent) :
    streamBlocks handle (log ++ events) = streamBlocks handle log ++ streamBlocks handle events :=
  List.flatMap_append

@[simp] theorem acceptedBytes_append (log events : List WriterEvent) :
    acceptedBytes handle (log ++ events) = acceptedBytes handle log ++ acceptedBytes handle events :=
  List.flatMap_append

@[simp] theorem streamBlocks_enqueued (blocks : List PouchBuf) :
    streamBlocks handle (blocks.map (.enqueued (some handle))) = blocks := by
  induction blocks with
  | nil => rfl
  | cons block rest ih =>
    simp only [streamBlocks, List.map_cons, List.flatMap_cons, if_true] at ih ⊢
    rw [ih]
    rfl

@[simp] theorem acceptedBytes_enqueued (owner : Option Nat) (blocks : List PouchBuf) :
    acceptedBytes handle (blocks.map (.enqueued owner)) = [] := by
  simp [acceptedBytes]

theorem streamBlocks_foreign (log : List WriterEvent)
    (foreign : ∀ event ∈ log, event.owner ≠ some handle) : streamBlocks handle log = [] := by
  rw [streamBlocks, List.flatMap_eq_nil_iff]
  intro event member
  cases event with
  | enqueued owner block => exact if_neg (foreign _ member)
  | opened _ _ _ _ => rfl
  | wrote _ _ => rfl
  | closed _ _ => rfl

theorem acceptedBytes_foreign (log : List WriterEvent)
    (foreign : ∀ event ∈ log, event.owner ≠ some handle) : acceptedBytes handle log = [] := by
  rw [acceptedBytes, List.flatMap_eq_nil_iff]
  intro event member
  cases event with
  | wrote owner _ => exact if_neg fun same => foreign _ member (congrArg some same)
  | enqueued _ _ => rfl
  | opened _ _ _ _ => rfl
  | closed _ _ => rfl

end Projections

structure StreamDelivered (cfg : Config) (id : UInt8) (path : CString) (contentType : UInt16)
    (blocks : List PouchBuf) (accepted : List UInt8) : Prop where
  nothing : accepted = [] → blocks = []
  decoded : accepted ≠ [] → ∃ (fuel : Nat) (pieces : List (List UInt8)),
    handleBlocks cfg fuel blocks =
      some (.start id.toNat path.bytes contentType.toNat ::
        pieces.mapIdx fun index piece => .data id.toNat piece (index + 1 = pieces.length)) ∧
      pieces.length = blocks.length ∧ pieces.flatten = accepted ∧ ∀ piece ∈ pieces.tail, piece ≠ []
  marked : ∀ index block, blocks[index]? = some block → ∃ byte,
    block.contents[2]? = some byte ∧ byte &&& blockIdMask = id ∧
      (byte &&& firstDataMask ≠ 0 ↔ index = 0) ∧
      (byte &&& lastDataMask ≠ 0 ↔ index + 1 = blocks.length)

theorem Carries.marked {cfg : Config} {spec : StreamSpec} {buf : PouchBuf} {first last : Bool}
    {piece : List UInt8} (carries : Carries cfg buf (spec.segment first last piece)) :
    buf.contents[2]? = some (idByte spec.id first last) := by
  rw [carries.encodes.contents, WireBlock.encode, spec.segment_payload]
  rfl

theorem closedSegments_delivered (cfg : Config) (spec : StreamSpec) (blocks : List PouchBuf)
    (pieces : List (List UInt8)) (nonempty : pieces.flatten ≠ [])
    (middle : ∀ piece ∈ pieces.tail, piece ≠ [])
    (carried : List.Forall₂ (Carries cfg) blocks (spec.closedSegments pieces)) :
    StreamDelivered cfg spec.id spec.path spec.contentType blocks pieces.flatten := by
  have some' : pieces ≠ [] := by
    rintro rfl
    exact nonempty rfl
  have sameLength : blocks.length = pieces.length := by
    rw [carried.length_eq, StreamSpec.closedSegments, List.length_mapIdx]
  have encodes : List.Forall₂ Encodes blocks (spec.closedSegments pieces) :=
    carried.imp fun _ _ carries => carries.encodes
  have small : ∀ block ∈ blocks, block.bytes < cfg.maxPlaintextBlockSize + 1 :=
    forall_mem_of_forall₂ carried fun _ _ carries => Nat.lt_succ_of_le carries.within
  refine ⟨fun empty => absurd empty nonempty, fun _ => ?_, ?_⟩
  · refine ⟨cfg.maxPlaintextBlockSize + 1, pieces, ?_, sameLength.symm, rfl, middle⟩
    rw [handleBlocks_encoded blocks _ _ encodes small, spec.closedSegments_calls pieces some']
  · intro index block found
    obtain ⟨within, rfl⟩ := List.getElem?_eq_some_iff.mp found
    have inside : index < (spec.closedSegments pieces).length := carried.length_eq ▸ within
    have carries := carried.get within inside
    simp only [List.get_eq_getElem, StreamSpec.closedSegments, List.getElem_mapIdx] at carries
    obtain ⟨masked, first, last⟩ :=
      idByte_flags spec.id (index = 0) (index + 1 = pieces.length) spec.masked
    refine ⟨_, carries.marked, masked, ?_, ?_⟩
    · rw [← bne_iff_ne, first, decide_eq_true_iff]
    · rw [← bne_iff_ne, last, decide_eq_true_iff, sameLength]

theorem streamClose_delivered (cfg : Config) (spec : StreamSpec)
    (payload : cfg.maxBlockPayloadSize ≤ 32768) (uplinkSessionId : Nat) (stream : PouchStream)
    (blocks : List PouchBuf) (accepted : List UInt8)
    (progress : StreamProgress cfg spec stream blocks accepted)
    (valid : pouchStreamIsValid stream uplinkSessionId = true)
    (total : accepted.length < cfg.sizeRange) :
    StreamDelivered cfg spec.id spec.path spec.contentType
      (blocks ++ pouchStreamClose cfg uplinkSessionId stream) accepted := by
  obtain ⟨sameId, count, done, piece, pieces, carried, conserved⟩ := progress
  rw [Nat.mod_eq_of_lt total] at count
  by_cases empty : accepted = []
  · have doneEmpty : done = [] := by
      by_contra more
      have written := pieces.current more
      simp_all
    have closed : pouchStreamClose cfg uplinkSessionId stream = [] := by
      simp [pouchStreamClose, count, empty]
    have none' : blocks = [] := by
      rw [doneEmpty] at carried
      exact List.forall₂_nil_right_iff.mp carried
    rw [closed, none', empty]
    exact ⟨fun _ => rfl, fun some' => absurd rfl some', by simp⟩
  · have closed : pouchStreamClose cfg uplinkSessionId stream =
        [blockFinishStream cfg stream.buf spec.id true] := by
      simp [pouchStreamClose, valid, count, sameId, List.length_pos_iff.mpr empty]
    have all : (done ++ [piece]).flatten = accepted := by simpa using conserved
    rw [closed, ← all]
    apply closedSegments_delivered
    · rwa [all]
    · exact pieces.tail_nonempty
    · rw [spec.closedSegments_concat]
      exact List.rel_append carried (.cons (pieces.opened.finish payload true) .nil)

structure StreamInvariant (cfg : Config) (handle : Nat) (spec : StreamSpec)
    (history : History Writers WriterEvent) : Prop where
  unused : history.state.nextHandle ≤ handle →
    history.state.streams handle = none ∧ ∀ event ∈ history.log, event.owner ≠ some handle
  running : ∀ stream, history.state.streams handle = some stream →
    .closed handle true ∉ history.log ∧
      (.opened handle spec.id spec.path spec.contentType ∈ history.log →
        StreamProgress cfg spec stream (streamBlocks handle history.log)
          (acceptedBytes handle history.log))
  ended : .opened handle spec.id spec.path spec.contentType ∈ history.log →
    .closed handle true ∈ history.log → (acceptedBytes handle history.log).length < cfg.sizeRange →
    StreamDelivered cfg spec.id spec.path spec.contentType (streamBlocks handle history.log)
      (acceptedBytes handle history.log)

section Runs

variable {cfg : Config} {handle : Nat} {spec : StreamSpec} {history : History Writers WriterEvent}

theorem StreamInvariant.foreign (invariant : StreamInvariant cfg handle spec history)
    (next : Writers) (events : List WriterEvent) (same : next.streams handle = history.state.streams handle)
    (handles : history.state.nextHandle ≤ next.nextHandle)
    (foreign : ∀ event ∈ events, event.owner ≠ some handle) :
    StreamInvariant cfg handle spec ⟨next, history.log ++ events⟩ := by
  have noBlocks := streamBlocks_foreign handle events foreign
  have noBytes := acceptedBytes_foreign handle events foreign
  have notOpened : .opened handle spec.id spec.path spec.contentType ∉ events :=
    fun member => foreign _ member rfl
  have notClosed : .closed handle true ∉ events := fun member => foreign _ member rfl
  constructor
  · intro fresh
    obtain ⟨absent, silent⟩ := invariant.unused (handles.trans fresh)
    refine ⟨same.trans absent, ?_⟩
    intro event member
    rcases List.mem_append.mp member with old | new
    · exact silent event old
    · exact foreign event new
  · intro stream found
    have running := invariant.running stream (same.symm.trans found)
    simpa [notOpened, notClosed, noBlocks, noBytes] using running
  · have ended := invariant.ended
    simpa [notOpened, notClosed, noBlocks, noBytes] using ended

theorem foreign_enqueued (blocks : List PouchBuf) (other : Option Nat) (differs : other ≠ some handle) :
    ∀ event ∈ blocks.map (WriterEvent.enqueued other), event.owner ≠ some handle := by
  intro event member
  obtain ⟨block, _, rfl⟩ := List.mem_map.mp member
  exact differs

theorem foreign_reported (blocks : List PouchBuf) (other : Nat) (outcome : WriterEvent)
    (owned : outcome.owner = some other) (differs : other ≠ handle) :
    ∀ event ∈ blocks.map (WriterEvent.enqueued (some other)) ++ [outcome],
      event.owner ≠ some handle := by
  have foreign : some other ≠ some handle := by simpa using differs
  intro event member
  rcases List.mem_append.mp member with enqueued | reported
  · exact foreign_enqueued blocks (some other) foreign event enqueued
  · rw [List.mem_singleton.mp reported, owned]
    exact foreign

theorem StreamInvariant.opening (invariant : StreamInvariant cfg handle spec history)
    (next : Writers) (stream : PouchStream) (id : UInt8) (path : CString) (contentType : UInt16)
    (fresh : history.state.nextHandle ≤ handle) (used : handle < next.nextHandle)
    (found : next.streams handle = some stream)
    (started : id = spec.id → path = spec.path → contentType = spec.contentType →
      StreamProgress cfg spec stream [] []) :
    StreamInvariant cfg handle spec
      ⟨next, history.log ++ [.opened handle id path contentType]⟩ := by
  obtain ⟨_, silent⟩ := invariant.unused fresh
  have notClosed : WriterEvent.closed handle true ∉
      history.log ++ [.opened handle id path contentType] := by
    intro member
    rcases List.mem_append.mp member with old | new
    · exact silent _ old rfl
    · simp at new
  have noBlocks := streamBlocks_foreign handle history.log silent
  have noBytes := acceptedBytes_foreign handle history.log silent
  refine ⟨fun unused => absurd used (by simpa using unused), ?_, fun _ closed => absurd closed notClosed⟩
  intro other same
  obtain rfl : stream = other := Option.some.inj (found.symm.trans same)
  refine ⟨notClosed, ?_⟩
  intro opened
  rcases List.mem_append.mp opened with old | new
  · exact absurd rfl (silent _ old)
  · simp only [List.mem_singleton, WriterEvent.opened.injEq, true_and] at new
    have progress := started new.1.symm new.2.1.symm new.2.2.symm
    have noBlock : streamBlocks handle [.opened handle id path contentType] = [] := rfl
    have noByte : acceptedBytes handle [.opened handle id path contentType] = [] := rfl
    simpa [noBlocks, noBytes, noBlock, noByte] using progress

theorem StreamInvariant.writing (invariant : StreamInvariant cfg handle spec history)
    (next : Writers) (before after : PouchStream) (enqueued : List PouchBuf) (accepted : List UInt8)
    (used : handle < next.nextHandle) (held : history.state.streams handle = some before)
    (found : next.streams handle = some after)
    (kept : ∀ blocks bytes, StreamProgress cfg spec before blocks bytes →
      StreamProgress cfg spec after (blocks ++ enqueued) (bytes ++ accepted)) :
    StreamInvariant cfg handle spec
      ⟨next, history.log ++ (enqueued.map (.enqueued (some handle)) ++ [.wrote handle accepted])⟩ := by
  obtain ⟨notClosed, running⟩ := invariant.running before held
  have closed : WriterEvent.closed handle true ∉
      history.log ++ (enqueued.map (.enqueued (some handle)) ++ [.wrote handle accepted]) := by
    simpa using notClosed
  refine ⟨fun unused => absurd used (by simpa using unused), ?_, fun _ ended => absurd ended closed⟩
  intro other same
  obtain rfl : after = other := Option.some.inj (found.symm.trans same)
  refine ⟨closed, ?_⟩
  intro opened
  have progress := kept _ _ (running (by simpa using opened))
  have noBlock : streamBlocks handle [.wrote handle accepted] = [] := rfl
  have bytes : acceptedBytes handle [.wrote handle accepted] = accepted := by simp [acceptedBytes]
  simpa only [streamBlocks_append, acceptedBytes_append, streamBlocks_enqueued,
    acceptedBytes_enqueued, noBlock, bytes, List.append_nil, List.nil_append] using progress

theorem StreamInvariant.closing (invariant : StreamInvariant cfg handle spec history)
    (next : Writers) (stream : PouchStream) (enqueued : List PouchBuf) (valid : Bool)
    (used : handle < next.nextHandle) (held : history.state.streams handle = some stream)
    (gone : next.streams handle = none)
    (delivered : ∀ blocks bytes, valid = true → bytes.length < cfg.sizeRange →
      StreamProgress cfg spec stream blocks bytes →
      StreamDelivered cfg spec.id spec.path spec.contentType (blocks ++ enqueued) bytes) :
    StreamInvariant cfg handle spec
      ⟨next, history.log ++ (enqueued.map (.enqueued (some handle)) ++ [.closed handle valid])⟩ := by
  obtain ⟨notClosed, running⟩ := invariant.running stream held
  have noBlock : streamBlocks handle [.closed handle valid] = [] := rfl
  have noBytes : acceptedBytes handle [.closed handle valid] = [] := rfl
  refine ⟨fun unused => absurd used (by simpa using unused), ?_, ?_⟩
  · intro other same
    exact absurd (gone.symm.trans same) (by simp)
  · intro opened closed total
    have isValid : valid = true := by
      simpa [notClosed, eq_comm] using closed
    simp only [streamBlocks_append, acceptedBytes_append, streamBlocks_enqueued,
      acceptedBytes_enqueued, noBlock, noBytes, List.append_nil] at total ⊢
    exact delivered _ _ isValid total (running (by simpa using opened))

end Runs

theorem streamOpen_cases (state : Writers) (path : CString) (contentType : UInt16)
    (structAllocated : Bool) (malloc : Option Memory) :
    let result := pouchUplinkStreamOpen state path contentType structAllocated malloc
    result.2.streams = state.streams ∧ result.2.nextHandle = state.nextHandle ∧
      ∀ stream, result.1 = some stream →
        stream.id = (newStreamId state.streamId).1 ∧ stream.bytes = 0 ∧
          ∃ block, blockAllocStream malloc stream.id true = some block ∧
            stream.buf = writeStreamHeader block contentType path := by
  intro result
  simp only [result, pouchUplinkStreamOpen]
  split_ifs
  · simp
  · cases allocated : blockAllocStream malloc (newStreamId state.streamId).1 true with
    | none => simp
    | some block =>
      refine ⟨rfl, rfl, ?_⟩
      rintro stream ⟨⟩
      exact ⟨rfl, rfl, block, allocated, rfl⟩
  · simp

theorem writerStep_invariant (cfg : Config) (payload : cfg.maxBlockPayloadSize ≤ 32768)
    (handle : Nat) (spec : StreamSpec) (room : 3 + spec.path.bytes.length ≤ cfg.maxBlockPayloadSize)
    (history : History Writers WriterEvent) (op : WriterOp)
    (invariant : StreamInvariant cfg handle spec history) :
    StreamInvariant cfg handle spec (history.record (writerStep cfg) op) := by
  have used : ∀ stream, history.state.streams handle = some stream →
      handle < history.state.nextHandle := by
    intro stream held
    by_contra fresh
    have absent := (invariant.unused (Nat.not_lt.mp fresh)).1
    simp [held] at absent
  simp only [History.record]
  cases op with
  | entryWrite call =>
    exact invariant.foreign _ _ rfl (Nat.le_refl _) (foreign_enqueued _ none (by simp))
  | entryClose lock =>
    exact invariant.foreign _ _ rfl (Nat.le_refl _) (foreign_enqueued _ none (by simp))
  | sessionFinish => exact invariant.foreign _ _ rfl (Nat.le_refl _) (by simp [writerStep])
  | streamOpen path contentType structAllocated malloc =>
    obtain ⟨sameStreams, sameHandle, opened⟩ :=
      streamOpen_cases history.state path contentType structAllocated malloc
    simp only [writerStep]
    generalize pouchUplinkStreamOpen history.state path contentType structAllocated malloc = result at *
    obtain ⟨stream, next⟩ := result
    simp only at sameStreams sameHandle opened
    cases stream with
    | none => exact invariant.foreign _ _ (by rw [sameStreams]) (by rw [sameHandle]) (by simp)
    | some stream =>
      obtain ⟨_, bytes, block, allocated, buf⟩ := opened stream rfl
      dsimp only
      by_cases own : next.nextHandle = handle
      · subst own
        apply invariant.opening _ stream
        · rw [sameHandle]
        · exact Nat.lt_succ_self _
        · simp
        · rintro idSame rfl rfl
          rw [idSame] at allocated
          refine ⟨idSame, by simp [bytes], [], [], ?_, .nil, rfl⟩
          rw [buf]
          exact writeStreamHeader_open cfg spec malloc block room allocated
      · apply invariant.foreign
        · dsimp only
          rw [Function.update_of_ne (Ne.symm own), sameStreams]
        · simp only [sameHandle]
          omega
        · simpa [WriterEvent.owner] using own
  | streamWrite other data malloc =>
    simp only [writerStep]
    cases held : history.state.streams other with
    | none => exact invariant.foreign _ _ rfl (Nat.le_refl _) (by simp)
    | some stream =>
      dsimp only
      by_cases own : other = handle
      · subst own
        refine invariant.writing _ stream _ _ _ ?_ held (Function.update_self ..) ?_
        · exact used stream held
        · intro blocks bytes progress
          exact streamWrite_progress cfg spec payload _ malloc stream data blocks bytes progress
      · refine invariant.foreign _ _ (Function.update_of_ne (Ne.symm own) ..) (Nat.le_refl _) ?_
        exact foreign_reported _ other _ rfl own
  | streamClose other =>
    simp only [writerStep]
    cases held : history.state.streams other with
    | none => exact invariant.foreign _ _ rfl (Nat.le_refl _) (by simp)
    | some stream =>
      dsimp only
      by_cases own : other = handle
      · subst own
        refine invariant.closing _ stream _ _ ?_ held (Function.update_self ..) ?_
        · exact used stream held
        · intro blocks bytes valid total progress
          exact streamClose_delivered cfg spec payload _ stream blocks bytes progress valid total
      · refine invariant.foreign _ _ (Function.update_of_ne (Ne.symm own) ..) (Nat.le_refl _) ?_
        exact foreign_reported _ other _ rfl own

def WriterEvent.IdValid : WriterEvent → Prop
  | .opened _ id _ _ => id &&& blockIdMask = id ∧ id ≠ 0
  | _ => True

theorem writerStep_idValid (cfg : Config) (state : Writers) (op : WriterOp) :
    ∀ event ∈ (writerStep cfg state op).2, event.IdValid := by
  intro event member
  cases event with
  | enqueued _ _ => trivial
  | wrote _ _ => trivial
  | closed _ _ => trivial
  | opened handle id path contentType =>
    cases op with
    | entryWrite call => simp [writerStep] at member
    | entryClose lock => simp [writerStep] at member
    | sessionFinish => simp [writerStep] at member
    | streamWrite other data malloc =>
      cases held : state.streams other <;> simp [writerStep, held] at member
    | streamClose other =>
      cases held : state.streams other <;> simp [writerStep, held] at member
    | streamOpen path contentType structAllocated malloc =>
      obtain ⟨_, _, opened⟩ := streamOpen_cases state path contentType structAllocated malloc
      simp only [writerStep] at member
      generalize pouchUplinkStreamOpen state path contentType structAllocated malloc = result at *
      obtain ⟨stream, next⟩ := result
      cases stream with
      | none => simp at member
      | some stream =>
        simp only [List.mem_singleton, WriterEvent.opened.injEq] at member
        rw [WriterEvent.IdValid, member.2.1, (opened stream rfl).1]
        exact newStreamId_valid state.streamId

theorem run_idValid (cfg : Config) (uplinkSessionId : Nat) (ops : List WriterOp) :
    ∀ event ∈ (History.run (writerStep cfg) ⟨Writers.boot uplinkSessionId, []⟩ ops).log,
      event.IdValid := by
  apply History.run_invariant (writerStep cfg) (fun _ _ => True)
    (fun history => ∀ event ∈ history.log, event.IdValid)
  · simp
  · exact History.meets_of_forall _ _ _ _ fun _ _ _ => trivial
  · intro reached op _ holds event member
    rcases List.mem_append.mp member with old | new
    · exact holds event old
    · exact writerStep_idValid cfg reached.state op event new

theorem run_streamInvariant (cfg : Config) (payload : cfg.maxBlockPayloadSize ≤ 32768)
    (handle : Nat) (spec : StreamSpec) (room : 3 + spec.path.bytes.length ≤ cfg.maxBlockPayloadSize)
    (uplinkSessionId : Nat) (ops : List WriterOp) :
    StreamInvariant cfg handle spec
      (History.run (writerStep cfg) ⟨Writers.boot uplinkSessionId, []⟩ ops) := by
  apply History.run_invariant (writerStep cfg) (fun _ _ => True)
  · exact ⟨fun _ => ⟨rfl, by simp⟩, fun _ held => by simp [Writers.boot] at held, by simp⟩
  · exact History.meets_of_forall _ _ _ _ fun _ _ _ => trivial
  · exact fun reached op _ holds => writerStep_invariant cfg payload handle spec room reached op holds

/-- A stream that is still valid when it is closed reaches the receiver with exactly the bytes its
writes accepted, whatever happened to the other streams and to the entries in between. -/
theorem stream_round_trip (cfg : Config) (payload : cfg.maxBlockPayloadSize ≤ 32768)
    (uplinkSessionId : Nat) (ops : List WriterOp) (handle : Nat) (id : UInt8) (path : CString)
    (contentType : UInt16) (room : 3 + path.bytes.length ≤ cfg.maxBlockPayloadSize)
    (short : path.bytes.length ≤ 255) :
    let log := (History.run (writerStep cfg) ⟨Writers.boot uplinkSessionId, []⟩ ops).log
    .opened handle id path contentType ∈ log → .closed handle true ∈ log →
      (acceptedBytes handle log).length < cfg.sizeRange →
      StreamDelivered cfg id path contentType (streamBlocks handle log)
        (acceptedBytes handle log) := by
  intro log opened closed total
  obtain ⟨masked, nonzero⟩ := run_idValid cfg uplinkSessionId ops _ opened
  let spec : StreamSpec :=
    { id, masked, nonzero, path, pathFits := short, contentType }
  exact (run_streamInvariant cfg payload handle spec room uplinkSessionId ops).ended opened closed total

def samplePath : CString := ⟨[0x73], by simp⟩

def smallBlocksConfig : Config :=
  { defaultConfig .none with
    blockSize := 9
    blockSizePositive := by decide
    blockSizeInt := by decide }

-- The first stream takes two blocks, and another stream is written in between.
def sampleStreamOps : List WriterOp :=
  [.streamOpen samplePath 42 true (some fun _ => 0),
    .streamOpen samplePath 43 true (some fun _ => 0),
    .streamWrite 0 [1, 2, 3] fun _ => some fun _ => 0,
    .streamWrite 1 [9] fun _ => some fun _ => 0,
    .streamWrite 0 [4, 5, 6, 7, 8] fun _ => some fun _ => 0,
    .streamClose 0]

theorem sampleStream_round_trip :
    let log := (History.run (writerStep smallBlocksConfig) ⟨Writers.boot 7, []⟩ sampleStreamOps).log
    (streamBlocks 0 log).length = 2 ∧ acceptedBytes 0 log = [1, 2, 3, 4, 5, 6, 7, 8] ∧
      StreamDelivered smallBlocksConfig 1 samplePath 42 (streamBlocks 0 log) (acceptedBytes 0 log) := by
  refine ⟨by decide +kernel, by decide +kernel, ?_⟩
  apply stream_round_trip smallBlocksConfig
  · exact (Config.maxBlockPayloadSize_le _).trans (by decide)
  · decide
  · decide
  · exact List.mem_of_getElem? (i := 0) rfl
  · exact List.mem_of_getElem? (i := 7) rfl
  · decide +kernel

end Pouch
