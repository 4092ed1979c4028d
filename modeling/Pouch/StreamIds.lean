import Pouch.StreamDelivery

set_option autoImplicit false

namespace Pouch

-- A call that gets as far as `new_stream_id`, and one that also gets its block.
def WriterOp.takesId (state : Writers) : WriterOp → Bool
  | .streamOpen _ _ structAllocated _ =>
    structAllocated && decide (state.openStreams < pouchStreamsMax)
  | _ => false

def WriterOp.opens (state : Writers) (op : WriterOp) : Bool :=
  match op with
  | .streamOpen _ _ _ malloc => op.takesId state && malloc.isSome
  | _ => false

/-- The writers with a count of the IDs handed out, at all and before each stream was opened. The
code does not keep it. -/
structure StreamCensus where
  writers : Writers
  issued : Nat
  issuedBefore : Nat → Nat

def StreamCensus.boot (uplinkSessionId : Nat) : StreamCensus :=
  ⟨Writers.boot uplinkSessionId, 0, fun _ => 0⟩

def censusStep (cfg : Config) (census : StreamCensus) (op : WriterOp) :
    StreamCensus × List WriterEvent :=
  let (next, events) := writerStep cfg census.writers op
  let counted : StreamCensus :=
    if op.takesId census.writers then
      { writers := next
        issued := census.issued + 1
        issuedBefore :=
          Function.update census.issuedBefore census.writers.nextHandle census.issued }
    else
      { census with writers := next }
  (counted, events)

def DistinctIds (state : Writers) : Prop :=
  (∀ handle stream, state.streams handle = some stream → stream.id ≠ 0) ∧
    ∀ first second firstStream secondStream, state.streams first = some firstStream →
      state.streams second = some secondStream → first ≠ second → firstStream.id ≠ secondStream.id

-- The IDs in the order in which they are handed out: 1 to 31, again and again.
def issuedId (count : Nat) : Nat := count % 31 + 1

def CounterAt (counter count : Nat) : Prop :=
  counter % 32 = 0 ∧ count % 31 = 0 ∨ counter % 32 = issuedId count

theorem masked_toNat (counter : Nat) : (UInt8.ofNat counter &&& blockIdMask).toNat = counter % 32 := by
  have masked : ∀ byte : UInt8, (byte &&& blockIdMask).toNat = byte.toNat % 32 := by
    decide +kernel
  rw [masked, UInt8.toNat_ofNat']
  omega

theorem newStreamId_issued (counter count : Nat) (at' : CounterAt counter count) :
    (newStreamId counter).1.toNat = issuedId count ∧
      CounterAt (newStreamId counter).2 (count + 1) := by
  have here := masked_toNat counter
  have next := masked_toNat (counter + 1)
  simp only [CounterAt, issuedId] at at' ⊢
  unfold newStreamId
  by_cases zero : UInt8.ofNat counter &&& blockIdMask = 0
  · rw [zero, UInt8.toNat_zero] at here
    simp only [zero, if_true]
    omega
  · have nonzero : (UInt8.ofNat counter &&& blockIdMask).toNat ≠ 0 := by
      intro same
      exact zero (UInt8.toNat_inj.mp same)
    simp only [zero, if_false]
    omega

inductive StreamsStep (state next : Writers) (op : WriterOp) : Prop where
  | kept (silent : op.takesId state = false) (closed : op.opens state = false)
      (ids : ∀ handle, (next.streams handle).map PouchStream.id =
        (state.streams handle).map PouchStream.id)
      (handles : next.nextHandle = state.nextHandle) (counter : next.streamId = state.streamId)
  | closed (handle : Nat) (silent : op.takesId state = false) (notOpened : op.opens state = false)
      (streams : next.streams = Function.update state.streams handle none)
      (handles : next.nextHandle = state.nextHandle) (counter : next.streamId = state.streamId)
  | wasted (taken : op.takesId state = true) (notOpened : op.opens state = false)
      (streams : next.streams = state.streams)
      (handles : next.nextHandle = state.nextHandle)
      (counter : next.streamId = (newStreamId state.streamId).2)
  | opened (stream : PouchStream) (taken : op.takesId state = true) (isOpened : op.opens state = true)
      (id : stream.id = (newStreamId state.streamId).1)
      (streams : next.streams = Function.update state.streams state.nextHandle (some stream))
      (handles : next.nextHandle = state.nextHandle + 1)
      (counter : next.streamId = (newStreamId state.streamId).2)

theorem pouchStreamWrite_id (cfg : Config) (uplinkSessionId : Nat) (malloc : Nat → Option ByteMemory.Memory)
    (stream : PouchStream) (data : List UInt8) :
    (pouchStreamWrite cfg uplinkSessionId malloc stream data).stream.id = stream.id := by
  unfold pouchStreamWrite
  split_ifs <;> rfl

theorem writerStep_streams (cfg : Config) (state : Writers) (op : WriterOp) :
    StreamsStep state (writerStep cfg state op).1 op := by
  cases op with
  | entryWrite call => exact .kept rfl rfl (fun _ => rfl) rfl rfl
  | entryClose lock => exact .kept rfl rfl (fun _ => rfl) rfl rfl
  | sessionFinish => exact .kept rfl rfl (fun _ => rfl) rfl rfl
  | streamOpen path contentType structAllocated malloc =>
    by_cases full : pouchStreamsMax ≤ state.openStreams
    · have refused : WriterOp.takesId state (.streamOpen path contentType structAllocated malloc) =
          false := by
        simp [WriterOp.takesId, Nat.not_lt.mpr full]
      refine .kept refused (by simp [WriterOp.opens, refused]) ?_ ?_ ?_ <;>
        simp [writerStep, pouchUplinkStreamOpen, full]
    have room : state.openStreams < pouchStreamsMax := Nat.not_le.mp full
    cases structAllocated with
    | false =>
      refine .kept rfl rfl ?_ ?_ ?_ <;> simp [writerStep, pouchUplinkStreamOpen, full]
    | true =>
      have taken : WriterOp.takesId state (.streamOpen path contentType true malloc) = true := by
        simp [WriterOp.takesId, room]
      cases malloc with
      | none =>
        refine .wasted taken (by simp [WriterOp.opens]) ?_ ?_ ?_ <;>
          simp [writerStep, pouchUplinkStreamOpen, full, blockAllocStream, bufAlloc]
      | some memory =>
        let block := writeBlockHeader ⟨0, memory⟩ 0 (newStreamId state.streamId).1 firstDataMask
        let stream : PouchStream := ⟨(newStreamId state.streamId).1,
          writeStreamHeader block contentType path, 0, state.uplinkSessionId⟩
        have opened : pouchUplinkStreamOpen state path contentType true (some memory) =
            (some stream, { state with
              streamId := (newStreamId state.streamId).2
              openStreams := state.openStreams + 1 }) := by
          simp only [pouchUplinkStreamOpen, full, if_false, if_true]
          rfl
        refine .opened stream taken (by simp [WriterOp.opens, taken]) rfl ?_ ?_ ?_ <;>
          simp only [writerStep, opened]
  | streamWrite handle data malloc =>
    cases held : state.streams handle with
    | none => refine .kept rfl rfl ?_ ?_ ?_ <;> simp [writerStep, held]
    | some stream =>
      refine .kept rfl rfl ?_ ?_ ?_
      · intro other
        simp only [writerStep, held]
        by_cases same : other = handle
        · subst same
          rw [Function.update_self, held, Option.map_some, Option.map_some, pouchStreamWrite_id]
        · rw [Function.update_of_ne same]
      · simp [writerStep, held]
      · simp [writerStep, held]
  | streamClose handle =>
    cases held : state.streams handle with
    | none => refine .kept rfl rfl ?_ ?_ ?_ <;> simp [writerStep, held]
    | some stream => refine .closed handle rfl rfl ?_ ?_ ?_ <;> simp [writerStep, held]

structure CensusInvariant (census : StreamCensus) : Prop where
  counter : CounterAt census.writers.streamId census.issued
  used : ∀ handle stream, census.writers.streams handle = some stream →
    handle < census.writers.nextHandle
  numbered : ∀ handle stream, census.writers.streams handle = some stream →
    stream.id.toNat = issuedId (census.issuedBefore handle)
  distinct : DistinctIds census.writers

/-- A stream may be opened unless one is still open that got its ID a multiple of 31 IDs ago. -/
def IdUnused (history : History StreamCensus WriterEvent) (op : WriterOp) : Prop :=
  op.opens history.state.writers = true →
    ∀ handle stream, history.state.writers.streams handle = some stream →
      history.state.issuedBefore handle % 31 ≠ history.state.issued % 31

def KeepsDistinct (cfg : Config) (history : History StreamCensus WriterEvent) (op : WriterOp) : Prop :=
  DistinctIds (censusStep cfg history.state op).1.writers

section Step

variable {cfg : Config} {census : StreamCensus} {op : WriterOp}

theorem nonzero_of_issued {id : UInt8} {count : Nat} (issued : id.toNat = issuedId count) : id ≠ 0 := by
  rintro rfl
  simp only [UInt8.toNat_zero, issuedId] at issued
  omega

theorem censusStep_writers : (censusStep cfg census op).1.writers = (writerStep cfg census.writers op).1 := by
  simp only [censusStep]
  split_ifs <;> rfl

variable (cfg) in
theorem censusStep_taken (taken : op.takesId census.writers = true) :
    (censusStep cfg census op).1.issued = census.issued + 1 ∧
      (censusStep cfg census op).1.issuedBefore =
        Function.update census.issuedBefore census.writers.nextHandle census.issued := by
  simp [censusStep, taken]

variable (cfg) in
theorem censusStep_silent (silent : op.takesId census.writers = false) :
    (censusStep cfg census op).1.issued = census.issued ∧
      (censusStep cfg census op).1.issuedBefore = census.issuedBefore := by
  simp [censusStep, silent]

theorem CensusInvariant.retained (invariant : CensusInvariant census) (next : StreamCensus)
    (counter : CounterAt next.writers.streamId next.issued)
    (handles : census.writers.nextHandle ≤ next.writers.nextHandle)
    (before : ∀ handle, handle < census.writers.nextHandle →
      next.issuedBefore handle = census.issuedBefore handle)
    (retained : ∀ handle stream, next.writers.streams handle = some stream →
      ∃ old, census.writers.streams handle = some old ∧ old.id = stream.id) :
    CensusInvariant next := by
  refine ⟨counter, ?_, ?_, ?_, ?_⟩
  · intro handle stream held
    obtain ⟨old, wasHeld, _⟩ := retained handle stream held
    exact Nat.lt_of_lt_of_le (invariant.used handle old wasHeld) handles
  · intro handle stream held
    obtain ⟨old, wasHeld, same⟩ := retained handle stream held
    rw [← same, before handle (invariant.used handle old wasHeld)]
    exact invariant.numbered handle old wasHeld
  · intro handle stream held
    obtain ⟨old, wasHeld, same⟩ := retained handle stream held
    rw [← same]
    exact invariant.distinct.1 handle old wasHeld
  · intro first second firstStream secondStream firstHeld secondHeld differ
    obtain ⟨oldFirst, wasFirst, sameFirst⟩ := retained first firstStream firstHeld
    obtain ⟨oldSecond, wasSecond, sameSecond⟩ := retained second secondStream secondHeld
    rw [← sameFirst, ← sameSecond]
    exact invariant.distinct.2 first second _ _ wasFirst wasSecond differ

theorem CensusInvariant.unopened (invariant : CensusInvariant census)
    (notOpened : op.opens census.writers = false) : CensusInvariant (censusStep cfg census op).1 := by
  have writers : (censusStep cfg census op).1.writers = (writerStep cfg census.writers op).1 :=
    censusStep_writers
  cases writerStep_streams cfg census.writers op with
  | kept silent _ ids handles counter =>
    obtain ⟨issued, before⟩ := censusStep_silent cfg silent
    apply invariant.retained
    · rw [writers, issued, counter]
      exact invariant.counter
    · rw [writers, handles]
    · intro handle _
      rw [before]
    · intro handle stream held
      rw [writers] at held
      have same := ids handle
      rw [held, Option.map_some] at same
      obtain ⟨old, wasHeld, sameId⟩ := Option.map_eq_some_iff.mp same.symm
      exact ⟨old, wasHeld, sameId⟩
  | closed closed silent _ streams handles counter =>
    obtain ⟨issued, before⟩ := censusStep_silent cfg silent
    apply invariant.retained
    · rw [writers, issued, counter]
      exact invariant.counter
    · rw [writers, handles]
    · intro handle _
      rw [before]
    · intro handle stream held
      rw [writers, streams] at held
      by_cases same : handle = closed
      · rw [same, Function.update_self] at held
        cases held
      · rw [Function.update_of_ne same] at held
        exact ⟨stream, held, rfl⟩
  | wasted taken _ streams handles counter =>
    obtain ⟨issued, before⟩ := censusStep_taken cfg taken
    apply invariant.retained
    · rw [writers, issued, counter]
      exact (newStreamId_issued _ _ invariant.counter).2
    · rw [writers, handles]
    · intro handle used
      rw [before, Function.update_of_ne (Nat.ne_of_lt used)]
    · intro handle stream held
      rw [writers, streams] at held
      exact ⟨stream, held, rfl⟩
  | opened stream _ isOpened => simp [notOpened] at isOpened

theorem issuedId_inj (first second : Nat) : issuedId first = issuedId second ↔ first % 31 = second % 31 := by
  simp only [issuedId]
  omega

theorem CensusInvariant.opened (cfg : Config) (invariant : CensusInvariant census)
    (isOpened : op.opens census.writers = true) :
    ∃ stream, stream.id.toNat = issuedId census.issued ∧
      CounterAt (censusStep cfg census op).1.writers.streamId (censusStep cfg census op).1.issued ∧
      (censusStep cfg census op).1.writers.streams =
        Function.update census.writers.streams census.writers.nextHandle (some stream) ∧
      (censusStep cfg census op).1.writers.nextHandle = census.writers.nextHandle + 1 ∧
      (censusStep cfg census op).1.issuedBefore =
        Function.update census.issuedBefore census.writers.nextHandle census.issued := by
  cases writerStep_streams cfg census.writers op with
  | kept _ notOpened => simp [isOpened] at notOpened
  | closed _ _ notOpened => simp [isOpened] at notOpened
  | wasted _ notOpened => simp [isOpened] at notOpened
  | opened stream taken _ id streams handles counter =>
    obtain ⟨issued, before⟩ := censusStep_taken cfg taken
    obtain ⟨newId, newCounter⟩ := newStreamId_issued _ _ invariant.counter
    rw [issued, before, censusStep_writers]
    refine ⟨stream, by rw [id, newId], ?_, streams, handles, rfl⟩
    rw [counter]
    exact newCounter

theorem CensusInvariant.fresh (invariant : CensusInvariant census) (handle : Nat) (stream : PouchStream)
    (held : census.writers.streams handle = some stream) : handle ≠ census.writers.nextHandle :=
  Nat.ne_of_lt (invariant.used handle stream held)

theorem CensusInvariant.opening (invariant : CensusInvariant census)
    (isOpened : op.opens census.writers = true)
    (unused : ∀ handle stream, census.writers.streams handle = some stream →
      census.issuedBefore handle % 31 ≠ census.issued % 31) :
    CensusInvariant (censusStep cfg census op).1 := by
  obtain ⟨stream, id, counter, streams, handles, before⟩ := invariant.opened cfg isOpened
  -- An open stream is the new one or one that was open before.
  have cases' : ∀ handle other, (censusStep cfg census op).1.writers.streams handle = some other →
      handle = census.writers.nextHandle ∧ other = stream ∨
        handle ≠ census.writers.nextHandle ∧ census.writers.streams handle = some other := by
    intro handle other held
    rw [streams] at held
    by_cases new : handle = census.writers.nextHandle
    · rw [new, Function.update_self] at held
      exact .inl ⟨new, (Option.some.inj held).symm⟩
    · rw [Function.update_of_ne new] at held
      exact .inr ⟨new, held⟩
  have apart : ∀ handle other, census.writers.streams handle = some other → other.id ≠ stream.id := by
    intro handle other held same
    have numbered := invariant.numbered handle other held
    rw [same, id] at numbered
    exact unused handle other held ((issuedId_inj _ _).mp numbered).symm
  refine ⟨counter, ?_, ?_, ?_, ?_⟩
  · intro handle other held
    rw [handles]
    rcases cases' handle other held with ⟨rfl, _⟩ | ⟨_, wasHeld⟩
    · exact Nat.lt_succ_self _
    · exact Nat.lt_succ_of_lt (invariant.used handle other wasHeld)
  · intro handle other held
    rw [before]
    rcases cases' handle other held with ⟨rfl, rfl⟩ | ⟨old, wasHeld⟩
    · rw [Function.update_self, id]
    · rw [Function.update_of_ne old]
      exact invariant.numbered handle other wasHeld
  · intro handle other held
    rcases cases' handle other held with ⟨_, rfl⟩ | ⟨_, wasHeld⟩
    · exact nonzero_of_issued id
    · exact invariant.distinct.1 handle other wasHeld
  · intro first second firstStream secondStream firstHeld secondHeld differ
    rcases cases' first firstStream firstHeld with ⟨newFirst, rfl⟩ | ⟨_, wasFirst⟩
    · rcases cases' second secondStream secondHeld with ⟨newSecond, _⟩ | ⟨_, wasSecond⟩
      · exact absurd (newFirst.trans newSecond.symm) differ
      · exact (apart second secondStream wasSecond).symm
    · rcases cases' second secondStream secondHeld with ⟨_, rfl⟩ | ⟨_, wasSecond⟩
      · exact apart first firstStream wasFirst
      · exact invariant.distinct.2 first second _ _ wasFirst wasSecond differ

theorem CensusInvariant.step (invariant : CensusInvariant census)
    (unused : op.opens census.writers = true → ∀ handle stream,
      census.writers.streams handle = some stream →
        census.issuedBefore handle % 31 ≠ census.issued % 31) :
    CensusInvariant (censusStep cfg census op).1 := by
  cases isOpened : op.opens census.writers with
  | false => exact invariant.unopened isOpened
  | true => exact invariant.opening isOpened (unused isOpened)

end Step

/-- The open streams have different IDs after every step exactly when no stream is opened while the
ID that comes next, of 31, is still in use; the limit of 126 streams does not see to that. -/
theorem stream_ids_distinct_iff (cfg : Config) (uplinkSessionId : Nat) (ops : List WriterOp) :
    History.Meets (censusStep cfg) (KeepsDistinct cfg) ⟨.boot uplinkSessionId, []⟩ ops ↔
      History.Meets (censusStep cfg) IdUnused ⟨.boot uplinkSessionId, []⟩ ops := by
  apply History.meets_iff_of_invariant (censusStep cfg) _ _ (fun history => CensusInvariant history.state)
  · refine ⟨.inr rfl, ?_, ?_, ?_, ?_⟩ <;> simp [StreamCensus.boot, Writers.boot]
  · intro reached op invariant
    constructor
    · intro distinct isOpened handle other held same
      obtain ⟨stream, id, _, streams, _, _⟩ := invariant.opened cfg isOpened
      have old := invariant.fresh handle other held
      refine distinct.2 handle reached.state.writers.nextHandle other stream ?_ ?_ old ?_
      · rw [streams, Function.update_of_ne old]
        exact held
      · rw [streams, Function.update_self]
      · apply UInt8.toNat_inj.mp
        rw [invariant.numbered handle other held, id]
        exact (issuedId_inj _ _).mpr same
    · exact fun unused => (invariant.step unused).distinct
  · exact fun reached op unused invariant => invariant.step unused

def openedStream : WriterOp := .streamOpen samplePath 42 true (some fun _ => 0)

/-- With 32 streams open at once the last one has the ID of the first one. -/
theorem stream_ids_collide :
    ¬ History.Meets (censusStep (defaultConfig .none)) (KeepsDistinct (defaultConfig .none))
      ⟨.boot 0, []⟩ (List.replicate 32 openedStream) := by
  intro meets
  rw [List.replicate_succ', History.meets_append] at meets
  obtain ⟨_, distinct, _⟩ := meets
  have ids : ∀ handle ∈ [0, 31], ((censusStep (defaultConfig .none) (History.run
      (censusStep (defaultConfig .none)) ⟨.boot 0, []⟩ (List.replicate 31 openedStream)).state
        openedStream).1.writers.streams handle).map PouchStream.id = some 1 := by
    decide +kernel
  obtain ⟨first, firstHeld, isFirst⟩ := Option.map_eq_some_iff.mp (ids 0 (by simp))
  obtain ⟨last, lastHeld, isLast⟩ := Option.map_eq_some_iff.mp (ids 31 (by simp))
  exact distinct.2 0 31 first last firstHeld lastHeld (by decide) (isFirst.trans isLast.symm)

end Pouch
