import Mathlib.Data.List.Forall2
import Pouch.EntryWriter

set_option autoImplicit false

namespace Pouch

open ByteMemory

inductive EntryStep (cfg : Config) (call : EntryWrite) : Option PouchBuf → EntryResult → Prop where
  | refused (block : Option PouchBuf) (err : Errno) :
      EntryStep cfg call block ⟨some err, block, []⟩
  | opened (fresh : PouchBuf) (allocated : blockAlloc call.malloc = some fresh) :
      EntryStep cfg call none ⟨some .enomem, some fresh, []⟩
  | wrote (block : Option PouchBuf) (target written : PouchBuf) (path : CString) (data : List UInt8)
      (pathGiven : call.path = some path) (dataGiven : call.data = some data)
      (room : block = some target ∨ block = none ∧ blockAlloc call.malloc = some target)
      (write : writeEntry cfg target path call.contentType data = some written) :
      EntryStep cfg call block ⟨none, some written, []⟩
  | flushed (full : PouchBuf) (next : Option PouchBuf) (allocated : blockAlloc call.malloc = next) :
      EntryStep cfg call (some full) ⟨some .enomem, next, [blockFinish cfg full]⟩
  | flushedWrote (full fresh written : PouchBuf) (path : CString) (data : List UInt8)
      (pathGiven : call.path = some path) (dataGiven : call.data = some data)
      (allocated : blockAlloc call.malloc = some fresh)
      (write : writeEntry cfg fresh path call.contentType data = some written) :
      EntryStep cfg call (some full) ⟨none, some written, [blockFinish cfg full]⟩

theorem entryWrite_step (cfg : Config) (block : Option PouchBuf) (call : EntryWrite) :
    EntryStep cfg call block (pouchUplinkEntryWrite cfg block call) := by
  unfold pouchUplinkEntryWrite
  cases pathGiven : call.path with
  | none => exact .refused block .einval
  | some path =>
    cases dataGiven : call.data with
    | none => exact .refused block .einval
    | some data =>
      by_cases empty : data.length = 0
      · simp only [empty, if_true]
        exact .refused block .einval
      simp only [empty, if_false]
      cases lock : call.lock with
      | some err => exact .refused block err
      | none =>
        cases block with
        | none =>
          cases allocated : blockAlloc call.malloc with
          | none =>
            simp only [Option.isNone_none, if_true]
            exact .refused none .enomem
          | some fresh =>
            simp only [Option.isNone_none, if_true]
            cases write : writeEntry cfg fresh path call.contentType data with
            | some written =>
              exact .wrote none fresh written path data pathGiven dataGiven (.inr ⟨rfl, allocated⟩) write
            | none => exact .opened fresh allocated
        | some opened =>
          simp only [Option.isNone_some, Bool.false_eq_true, if_false]
          cases write : writeEntry cfg opened path call.contentType data with
          | some written =>
            exact .wrote _ opened written path data pathGiven dataGiven (.inl rfl) write
          | none =>
            cases allocated : blockAlloc call.malloc with
            | none => exact .flushed opened none allocated
            | some fresh =>
              simp only
              cases rewrite : writeEntry cfg fresh path call.contentType data with
              | some written =>
                exact .flushedWrote opened fresh written path data pathGiven dataGiven allocated rewrite
              | none => exact .flushed opened (some fresh) allocated

structure OpenEntries (cfg : Config) (block : PouchBuf) (entries : List WireEntry) : Prop where
  contents : block.contents =
    0 :: 0 :: (firstDataMask ||| lastDataMask) :: entries.flatMap WireEntry.encode
  within : block.bytes ≤ cfg.maxPlaintextBlockSize

def entryBlock (entries : List WireEntry) : WireBlock :=
  .entries (firstDataMask ||| lastDataMask) (by decide) entries

structure SealedEntries (cfg : Config) (block : PouchBuf) (entries : List WireEntry) : Prop where
  contents : block.contents = (entryBlock entries).encode
  within : block.bytes ≤ cfg.maxPlaintextBlockSize

theorem blockAlloc_open (cfg : Config) (malloc : Option Memory) (block : PouchBuf)
    (allocated : blockAlloc malloc = some block) : OpenEntries cfg block [] := by
  have contents := blockAlloc_some malloc block allocated
  have bytes := blockAlloc_bytes malloc block allocated
  have room := cfg.maxPlaintextBlockSize_ge
  exact ⟨by simpa using contents, by omega⟩

theorem sizeRange_gt_plaintext (cfg : Config) : cfg.maxPlaintextBlockSize < cfg.sizeRange := by
  have small := cfg.maxCiphertextBlockSize_lt
  have range := cfg.sizeRange_ge
  simp only [Config.maxCiphertextBlockSize] at small
  omega

theorem blockFinish_sealed (cfg : Config) (block : PouchBuf) (entries : List WireEntry)
    (opened : OpenEntries cfg block entries) :
    SealedEntries cfg (blockFinish cfg block) entries := by
  have range := sizeRange_gt_plaintext cfg
  have within := opened.within
  have finished := finish_contents cfg block blockIdEntry (firstDataMask ||| lastDataMask) _ _ _ _
    (by omega) opened.contents
  refine ⟨?_, opened.within⟩
  rw [blockFinish, finished]
  rfl

theorem writeEntry_open (cfg : Config) (block written : PouchBuf) (entries : List WireEntry)
    (path : CString) (contentType : UInt16) (data : List UInt8)
    (payload : cfg.maxBlockPayloadSize ≤ 32768) (pathFits : path.bytes.length ≤ 255)
    (dataSmall : data.length < cfg.sizeRange / 2) (opened : OpenEntries cfg block entries)
    (write : writeEntry cfg block path contentType data = some written) :
    ∃ entry : WireEntry, entry.path = path.bytes ∧ entry.contentType = contentType.toNat ∧
      entry.data = data ∧ OpenEntries cfg written (entries ++ [entry]) := by
  have range := cfg.sizeRange_ge
  have plaintext : cfg.maxPlaintextBlockSize = 3 + cfg.maxBlockPayloadSize := rfl
  have within := opened.within
  have header : 3 ≤ block.bytes := by
    have length := congrArg List.length opened.contents
    simp only [PouchBuf.contents_length, List.length_cons] at length
    omega
  have noWrap : (entryHeaderOverhead + path.bytes.length + data.length) % cfg.sizeRange =
      entryHeaderOverhead + path.bytes.length + data.length := by
    apply Nat.mod_eq_of_lt
    simp only [entryHeaderOverhead]
    omega
  simp only [writeEntry, noWrap, blockSpaceGet_of_le cfg block within] at write
  split_ifs at write with full
  simp only [entryHeaderOverhead] at full
  have typeFits : contentType.toNat < 65536 := contentType.toNat_lt
  refine ⟨⟨path.bytes, contentType.toNat, data, by omega, typeFits, by omega⟩, rfl, rfl, rfl, ?_⟩
  rw [← Option.some.inj write]
  constructor
  · simp [opened.contents, WireEntry.encode]
  · simp only [bufWrite_bytes, putBe16_length, List.length_cons, List.length_nil]
    omega

inductive EntryEvent where
  | accepted (call : EntryWrite)
  | enqueued (block : PouchBuf)

def entryStep (cfg : Config) (block : Option PouchBuf) (call : EntryWrite) :
    Option PouchBuf × List EntryEvent :=
  let result := pouchUplinkEntryWrite cfg block call
  (result.block, result.enqueued.map .enqueued ++ if result.status = none then [.accepted call] else [])

def enqueuedBlocks : List EntryEvent → List PouchBuf
  | [] => []
  | .enqueued block :: rest => block :: enqueuedBlocks rest
  | .accepted _ :: rest => enqueuedBlocks rest

def acceptedCalls : List EntryEvent → List EntryWrite
  | [] => []
  | .enqueued _ :: rest => acceptedCalls rest
  | .accepted call :: rest => call :: acceptedCalls rest

@[simp] theorem enqueuedBlocks_append (first second : List EntryEvent) :
    enqueuedBlocks (first ++ second) = enqueuedBlocks first ++ enqueuedBlocks second := by
  induction first with
  | nil => rfl
  | cons event rest ih => cases event <;> simp [enqueuedBlocks, ih]

@[simp] theorem acceptedCalls_append (first second : List EntryEvent) :
    acceptedCalls (first ++ second) = acceptedCalls first ++ acceptedCalls second := by
  induction first with
  | nil => rfl
  | cons event rest ih => cases event <;> simp [acceptedCalls, ih]

def EntryWrite.calls (call : EntryWrite) : List HandlerCall :=
  match call.path, call.data with
  | some path, some data => [.start 0 path.bytes call.contentType.toNat, .data 0 data true]
  | _, _ => []

structure EntryWrite.Valid (cfg : Config) (call : EntryWrite) : Prop where
  path : ∀ path, call.path = some path → path.bytes.length ≤ 255
  data : ∀ data, call.data = some data → data.length < cfg.sizeRange / 2

def PendingEntries (cfg : Config) (pending : List WireEntry) : Option PouchBuf → Prop
  | none => pending = []
  | some block => OpenEntries cfg block pending

/-- The accepted entries are those of the blocks passed on, followed by those of the open block. -/
def EntriesConserved (cfg : Config) (history : History (Option PouchBuf) EntryEvent) : Prop :=
  ∃ (done : List (List WireEntry)) (pending : List WireEntry),
    List.Forall₂ (SealedEntries cfg) (enqueuedBlocks history.log) done ∧
    PendingEntries cfg pending history.state ∧
    (done.flatten ++ pending).flatMap WireEntry.calls =
      (acceptedCalls history.log).flatMap EntryWrite.calls

theorem writeEntry_calls (cfg : Config) (call : EntryWrite) (target written : PouchBuf)
    (pending : List WireEntry) (path : CString) (data : List UInt8)
    (payload : cfg.maxBlockPayloadSize ≤ 32768) (valid : call.Valid cfg)
    (pathGiven : call.path = some path) (dataGiven : call.data = some data)
    (opened : OpenEntries cfg target pending)
    (write : writeEntry cfg target path call.contentType data = some written) :
    ∃ entry : WireEntry, OpenEntries cfg written (pending ++ [entry]) ∧ entry.calls = call.calls := by
  obtain ⟨entry, samePath, sameType, sameData, next⟩ := writeEntry_open cfg target written pending path
    call.contentType data payload (valid.path path pathGiven) (valid.data data dataGiven) opened write
  refine ⟨entry, next, ?_⟩
  simp [WireEntry.calls, EntryWrite.calls, pathGiven, dataGiven, samePath, sameType, sameData,
    cString_of_noNul path.bytes path.noNul]

theorem entryStep_conserved (cfg : Config) (payload : cfg.maxBlockPayloadSize ≤ 32768)
    (history : History (Option PouchBuf) EntryEvent) (call : EntryWrite) (valid : call.Valid cfg)
    (conserved : EntriesConserved cfg history) :
    EntriesConserved cfg (History.record (entryStep cfg) history call) := by
  obtain ⟨block, log⟩ := history
  obtain ⟨done, pending, sealedBlocks, opened, balance⟩ := conserved
  have step := entryWrite_step cfg block call
  simp only [History.record, entryStep]
  generalize pouchUplinkEntryWrite cfg block call = result at step
  simp only at opened balance sealedBlocks
  cases step with
  | refused _ err => exact ⟨done, pending, by simpa using sealedBlocks, opened, by simpa using balance⟩
  | opened fresh allocated =>
    obtain rfl : pending = [] := opened
    exact ⟨done, [], by simpa using sealedBlocks, blockAlloc_open cfg _ fresh allocated,
      by simpa using balance⟩
  | wrote _ target written path data pathGiven dataGiven room write =>
    have targetOpen : OpenEntries cfg target pending := by
      rcases room with rfl | ⟨rfl, allocated⟩
      · exact opened
      · obtain rfl : pending = [] := opened
        exact blockAlloc_open cfg _ target allocated
    obtain ⟨entry, next, same⟩ := writeEntry_calls cfg call target written pending path data payload
      valid pathGiven dataGiven targetOpen write
    refine ⟨done, pending ++ [entry], by simpa [enqueuedBlocks] using sealedBlocks, next, ?_⟩
    simp [acceptedCalls, ← balance, same]
  | flushed full next allocated =>
    refine ⟨done ++ [pending], [], ?_, ?_, ?_⟩
    · simpa [enqueuedBlocks] using
        List.rel_append sealedBlocks (.cons (blockFinish_sealed cfg full pending opened) .nil)
    · cases next with
      | none => rfl
      | some fresh => exact blockAlloc_open cfg _ fresh allocated
    · simpa [acceptedCalls] using balance
  | flushedWrote full fresh written path data pathGiven dataGiven allocated write =>
    obtain ⟨entry, next, same⟩ := writeEntry_calls cfg call fresh written [] path data payload
      valid pathGiven dataGiven (blockAlloc_open cfg _ fresh allocated) write
    refine ⟨done ++ [pending], [entry], ?_, next, ?_⟩
    · simpa [enqueuedBlocks] using
        List.rel_append sealedBlocks (.cons (blockFinish_sealed cfg full pending opened) .nil)
    · simp [acceptedCalls, ← balance, same]

theorem close_conserved (cfg : Config) (history : History (Option PouchBuf) EntryEvent)
    (conserved : EntriesConserved cfg history) :
    ∃ done : List (List WireEntry),
      List.Forall₂ (SealedEntries cfg)
        (enqueuedBlocks history.log ++ (entryBlockClose cfg history.state none).enqueued) done ∧
      done.flatten.flatMap WireEntry.calls =
        (acceptedCalls history.log).flatMap EntryWrite.calls := by
  obtain ⟨block, log⟩ := history
  obtain ⟨done, pending, sealedBlocks, opened, balance⟩ := conserved
  cases block with
  | none =>
    obtain rfl : pending = [] := opened
    exact ⟨done, by simpa [entryBlockClose] using sealedBlocks, by simpa using balance⟩
  | some block =>
    have finished := blockFinish_sealed cfg block pending opened
    have nonempty : 0 < blockSizeGet block := by
      have length := congrArg List.length opened.contents
      simp only [PouchBuf.contents_length, List.length_cons] at length
      simp only [blockSizeGet, bufSizeGet]
      omega
    refine ⟨done ++ [pending], ?_, by simpa using balance⟩
    simpa [entryBlockClose, nonempty] using List.rel_append sealedBlocks (.cons finished .nil)

theorem SealedEntries.encodes {cfg : Config} {block : PouchBuf} {entries : List WireEntry}
    (payload : cfg.maxBlockPayloadSize ≤ 32768) (sealedBlock : SealedEntries cfg block entries) :
    Encodes block (entryBlock entries) := by
  refine ⟨sealedBlock.contents, ?_⟩
  have length := congrArg List.length sealedBlock.contents
  have within := sealedBlock.within
  simp only [WireBlock.encode, List.length_append, putBe16_length, PouchBuf.contents_length] at length
  simp only [Config.maxPlaintextBlockSize, Config.blockHeaderSize] at within
  omega

/-- Whatever was accepted comes out of the decoder, in order and once, whichever calls failed. -/
theorem entry_round_trip (cfg : Config) (payload : cfg.maxBlockPayloadSize ≤ 32768)
    (calls : List EntryWrite) (valid : ∀ call ∈ calls, call.Valid cfg) :
    let written := History.run (entryStep cfg) ⟨none, []⟩ calls
    let blocks := enqueuedBlocks written.log ++ (entryBlockClose cfg written.state none).enqueued
    (∃ fuel, handleBlocks cfg fuel blocks =
        some ((acceptedCalls written.log).flatMap EntryWrite.calls)) ∧
      ∀ block ∈ blocks, sizeField block = some (block.bytes - 2) := by
  intro written blocks
  have conserved : EntriesConserved cfg written := by
    apply History.run_invariant (entryStep cfg) (fun _ call => call.Valid cfg)
    · exact ⟨[], [], .nil, rfl, rfl⟩
    · exact History.meets_of_forall _ _ _ _ (fun _ call member => valid call member)
    · exact fun reached call ok holds => entryStep_conserved cfg payload reached call ok holds
  obtain ⟨done, sealedBlocks, balance⟩ := close_conserved cfg written conserved
  have encodes : List.Forall₂ Encodes blocks (done.map entryBlock) := by
    rw [List.forall₂_map_right_iff]
    exact sealedBlocks.imp fun _ _ sealedBlock => sealedBlock.encodes payload
  have small : ∀ block ∈ blocks, block.bytes < cfg.maxPlaintextBlockSize + 1 :=
    forall_mem_of_forall₂ sealedBlocks fun _ _ sealedBlock => Nat.lt_succ_of_le sealedBlock.within
  refine ⟨⟨cfg.maxPlaintextBlockSize + 1, ?_⟩, ?_⟩
  · rw [handleBlocks_encoded blocks _ _ encodes small, ← balance]
    rw [List.flatMap_map, List.flatten_eq_flatMap, List.flatMap_assoc]
    rfl
  · exact forall_mem_of_forall₂ encodes fun _ _ encoded => encoded.sizeField

def sampleEntry : EntryWrite where
  path := some ⟨[0x61], by simp⟩
  contentType := 42
  data := some [1, 2, 3]
  lock := none
  malloc := some fun _ => 0

theorem sampleEntry_round_trip :
    let cfg := defaultConfig .none
    let written := History.run (entryStep cfg) ⟨none, []⟩ [sampleEntry, sampleEntry]
    let blocks := enqueuedBlocks written.log ++ (entryBlockClose cfg written.state none).enqueued
    (∃ fuel, handleBlocks cfg fuel blocks =
        some ((acceptedCalls written.log).flatMap EntryWrite.calls)) ∧
      ∀ block ∈ blocks, sizeField block = some (block.bytes - 2) := by
  apply entry_round_trip (defaultConfig .none)
  · exact (Config.maxBlockPayloadSize_le _).trans (by decide)
  · intro call member
    obtain rfl : call = sampleEntry := by simpa using member
    constructor
    · rintro path ⟨⟩
      decide
    · rintro data ⟨⟩
      decide

end Pouch
