import Pouch.BlockBounds

set_option autoImplicit false

/-!
# Which entries are accepted

The bytes of the entries are followed here as they are written, whether or not their fields can hold the
lengths.
-/

namespace Pouch

open ByteMemory

-- `struct pouch_entry`
structure PouchEntry where
  path : CString
  contentType : UInt16
  data : List UInt8

namespace PouchEntry

def bytes (entry : PouchEntry) : List UInt8 :=
  putBe16 entry.data.length ++ putBe16 entry.contentType.toNat ++
    UInt8.ofNat entry.path.bytes.length :: (entry.path.bytes ++ entry.data)

def size (entry : PouchEntry) : Nat := entryHeaderOverhead + entry.path.bytes.length + entry.data.length

theorem bytes_length (entry : PouchEntry) : entry.bytes.length = entry.size := by
  simp only [bytes, size, entryHeaderOverhead, List.length_append, putBe16_length, List.length_cons]
  omega

-- The size that `write_entry` compares.
def countedSize (cfg : Config) (entry : PouchEntry) : Nat := entry.size % cfg.sizeRange

end PouchEntry

def EntryWrite.entry? (call : EntryWrite) : Option PouchEntry :=
  match call.path, call.data with
  | some path, some data => if data.length = 0 then none else some ⟨path, call.contentType, data⟩
  | _, _ => none

theorem EntryWrite.entry?_some {call : EntryWrite} {entry : PouchEntry} (given : call.entry? = some entry) :
    call.path = some entry.path ∧ call.data = some entry.data ∧ call.contentType = entry.contentType ∧
      entry.data.length ≠ 0 := by
  unfold EntryWrite.entry? at given
  cases pathGiven : call.path with
  | none => simp [pathGiven] at given
  | some path =>
    cases dataGiven : call.data with
    | none => simp [pathGiven, dataGiven] at given
    | some data =>
      simp only [pathGiven, dataGiven] at given
      split_ifs at given with empty
      obtain rfl := Option.some.inj given
      exact ⟨rfl, rfl, rfl, empty⟩

section Writes

variable (cfg : Config) {block : PouchBuf} {call : EntryWrite} {entry : PouchEntry}

theorem writeEntry_bytes (block : PouchBuf) (entry : PouchEntry) :
    (blockSpaceGet cfg block < entry.countedSize cfg ∧
      writeEntry cfg block entry.path entry.contentType entry.data = none) ∨
    (entry.countedSize cfg ≤ blockSpaceGet cfg block ∧
      ∃ written, writeEntry cfg block entry.path entry.contentType entry.data = some written ∧
        written.contents = block.contents ++ entry.bytes) := by
  by_cases full : blockSpaceGet cfg block < entry.countedSize cfg
  next =>
    left
    exact ⟨full, if_pos full⟩
  next =>
    right
    refine ⟨Nat.not_lt.mp full, _, if_neg full, ?_⟩
    simp [PouchEntry.bytes]

inductive EntryPath (call : EntryWrite) (entry : PouchEntry) : Option PouchBuf → EntryResult → Prop where
  | unallocated (failed : blockAlloc call.malloc = none) : EntryPath call entry none ⟨some .enomem, none, []⟩
  | fitted (opened written : PouchBuf) (room : entry.countedSize cfg ≤ blockSpaceGet cfg opened)
      (contents : written.contents = opened.contents ++ entry.bytes) :
      EntryPath call entry (some opened) ⟨none, some written, []⟩
  | begun (fresh written : PouchBuf) (allocated : blockAlloc call.malloc = some fresh)
      (room : entry.countedSize cfg ≤ blockSpaceGet cfg fresh)
      (contents : written.contents = fresh.contents ++ entry.bytes) :
      EntryPath call entry none ⟨none, some written, []⟩
  | tooLarge (fresh : PouchBuf) (allocated : blockAlloc call.malloc = some fresh)
      (noRoom : blockSpaceGet cfg fresh < entry.countedSize cfg) :
      EntryPath call entry none ⟨some .enomem, some fresh, []⟩
  | spilled (opened : PouchBuf) (full : blockSpaceGet cfg opened < entry.countedSize cfg)
      (next : EntryResult) (rest : EntryPath call entry none next) :
      EntryPath call entry (some opened) { next with enqueued := [blockFinish cfg opened] }

theorem entryWrite_path (block : Option PouchBuf) (given : call.entry? = some entry) (locked : call.lock = none) :
    EntryPath cfg call entry block (pouchUplinkEntryWrite cfg block call) := by
  obtain ⟨pathGiven, dataGiven, sameType, empty⟩ := EntryWrite.entry?_some given
  have fresh : EntryPath cfg call entry none (pouchUplinkEntryWrite cfg none call) := by
    simp only [pouchUplinkEntryWrite, pathGiven, dataGiven, sameType, empty, if_false, locked, Option.isNone_none,
      if_true]
    cases allocated : blockAlloc call.malloc with
    | none => exact .unallocated allocated
    | some fresh =>
      rcases writeEntry_bytes cfg fresh entry with ⟨noRoom, failed⟩ | ⟨room, written, wrote, contents⟩
      · simp only [failed]
        exact .tooLarge fresh allocated noRoom
      · simp only [wrote]
        exact .begun fresh written allocated room contents
  cases block with
  | none => exact fresh
  | some opened =>
    rcases writeEntry_bytes cfg opened entry with ⟨full, failed⟩ | ⟨room, written, wrote, contents⟩
    · have spilled := EntryPath.spilled opened full _ fresh
      simp only [pouchUplinkEntryWrite, pathGiven, dataGiven, sameType, empty, if_false, locked, Option.isNone_some,
        Option.isNone_none, if_true, Bool.false_eq_true, failed] at spilled ⊢
      cases allocated : blockAlloc call.malloc with
      | none => simpa [allocated] using spilled
      | some fresh =>
        simp only [allocated] at spilled ⊢
        cases again : writeEntry cfg fresh entry.path entry.contentType entry.data with
        | none => simpa [again] using spilled
        | some written => simpa [again] using spilled
    · simp only [pouchUplinkEntryWrite, pathGiven, dataGiven, sameType, empty, if_false, locked, Option.isNone_some,
        Bool.false_eq_true, wrote]
      exact .fitted opened written room contents

theorem entryWrite_refused (block : Option PouchBuf) (refused : call.entry? = none ∨ call.lock ≠ none) :
    ∃ err, pouchUplinkEntryWrite cfg block call = ⟨some err, block, []⟩ := by
  unfold EntryWrite.entry? at refused
  unfold pouchUplinkEntryWrite
  cases pathGiven : call.path with
  | none => exact ⟨.einval, rfl⟩
  | some path =>
    cases dataGiven : call.data with
    | none => exact ⟨.einval, rfl⟩
    | some data =>
      by_cases empty : data.length = 0
      next => exact ⟨.einval, by simp [empty]⟩
      next =>
        cases lock : call.lock with
        | some err => exact ⟨err, by simp [empty]⟩
        | none => simp [pathGiven, dataGiven, empty, lock] at refused

theorem blockAlloc_space {malloc : Option Memory} (allocated : blockAlloc malloc = some block) :
    blockSpaceGet cfg block = cfg.maxBlockPayloadSize := by
  have within := blockAlloc_within cfg malloc allocated
  have bytes := blockAlloc_bytes malloc block allocated
  have space := within.space
  simp only [Config.maxPlaintextBlockSize, Config.blockHeaderSize] at space
  omega

theorem blockAlloc_isSome (malloc : Option Memory) : (blockAlloc malloc).isSome = malloc.isSome := by
  cases malloc <;> rfl

def HasRoom (block : Option PouchBuf) (malloc : Option Memory) (entry : PouchEntry) : Prop :=
  (∃ opened, block = some opened ∧ entry.countedSize cfg ≤ blockSpaceGet cfg opened) ∨
    malloc.isSome = true ∧ entry.countedSize cfg ≤ cfg.maxBlockPayloadSize

theorem EntryPath.accepted_iff {block : Option PouchBuf} {result : EntryResult}
    (path : EntryPath cfg call entry block result) :
    result.status = none ↔ HasRoom cfg block call.malloc entry := by
  induction path with
  | unallocated failed =>
    have none' : call.malloc.isSome = false := by rw [← blockAlloc_isSome, failed]; rfl
    simp [HasRoom, none']
  | fitted opened written room contents => simp [HasRoom, room]
  | begun fresh written allocated room contents =>
    have some' : call.malloc.isSome = true := by rw [← blockAlloc_isSome, allocated]; rfl
    rw [blockAlloc_space cfg allocated] at room
    simp [HasRoom, some', room]
  | tooLarge fresh allocated noRoom =>
    rw [blockAlloc_space cfg allocated] at noRoom
    simp [HasRoom, Nat.not_le.mpr noRoom]
  | spilled opened full next rest ih =>
    simp only [ih, HasRoom, Option.some.injEq, exists_eq_left', Nat.not_le.mpr full, false_or,
      reduceCtorEq, false_and, exists_false]

theorem entryWrite_accepted_iff (block : Option PouchBuf) (call : EntryWrite) :
    (pouchUplinkEntryWrite cfg block call).status = none ↔
      call.lock = none ∧ ∃ entry, call.entry? = some entry ∧ HasRoom cfg block call.malloc entry := by
  by_cases refused : call.entry? = none ∨ call.lock ≠ none
  next =>
    obtain ⟨err, result⟩ := entryWrite_refused cfg block refused
    rw [result]
    constructor
    · intro accepted
      simp at accepted
    · rintro ⟨locked, entry, given, _⟩
      simp [given, locked] at refused
  next =>
    simp only [not_or, not_not] at refused
    obtain ⟨entry, given⟩ := Option.ne_none_iff_exists'.mp refused.1
    rw [(entryWrite_path cfg block given refused.2).accepted_iff]
    simp [refused.2, given]

end Writes

structure HoldsEntries (block : PouchBuf) (entries : List PouchEntry) : Prop where
  header : Config.blockHeaderSize ≤ block.bytes
  payload : block.contents.drop Config.blockHeaderSize = entries.flatMap PouchEntry.bytes

section Blocks

variable {cfg : Config} {block written : PouchBuf} {entries : List PouchEntry}

theorem blockAlloc_holds {malloc : Option Memory} (allocated : blockAlloc malloc = some block) :
    HoldsEntries block [] := by
  have contents := blockAlloc_some malloc block allocated
  have bytes := blockAlloc_bytes malloc block allocated
  refine ⟨?_, by simp [contents, Config.blockHeaderSize]⟩
  simp only [Config.blockHeaderSize]
  omega

theorem HoldsEntries.write (holds : HoldsEntries block entries) (entry : PouchEntry)
    (contents : written.contents = block.contents ++ entry.bytes) : HoldsEntries written (entries ++ [entry]) := by
  have inside := holds.header
  have length := congrArg List.length contents
  simp only [List.length_append, PouchBuf.contents_length] at length
  refine ⟨by omega, ?_⟩
  rw [contents, List.drop_append_of_le_length (by simpa using inside), holds.payload]
  simp

theorem HoldsEntries.finish (holds : HoldsEntries block entries) : HoldsEntries (blockFinish cfg block) entries := by
  have inside := holds.header
  refine ⟨inside, ?_⟩
  rw [← holds.payload]
  change (load (store (store block.buf 0 (putBe16 _)) 2 [_]) 0 block.bytes).drop _ =
    (load block.buf 0 block.bytes).drop _
  rw [load_drop _ _ _ _ inside, load_drop _ _ _ _ inside]
  simp only [Config.blockHeaderSize]
  rw [load_store_frame _ _ _ _ _ (.inr (by simp)), load_store_frame _ _ _ _ _ (.inr (by simp))]

end Blocks

-- `entry_block_close` is what `pouch_uplink_close` calls, unless the pouch is already closing.
inductive EntryOp where
  | write (call : EntryWrite)
  | close (lock : Status)

def entryOpStep (cfg : Config) (block : Option PouchBuf) : EntryOp → Option PouchBuf × List EntryEvent
  | .write call => entryStep cfg block call
  | .close lock =>
    let result := entryBlockClose cfg block lock
    (result.block, result.enqueued.map .enqueued)

def acceptedEntries (log : List EntryEvent) : List PouchEntry :=
  (acceptedCalls log).filterMap EntryWrite.entry?

def OpenHolds (pending : List PouchEntry) : Option PouchBuf → Prop
  | none => pending = []
  | some block => HoldsEntries block pending

def EntriesInOrder (entries : List PouchEntry) (blocks : List PouchBuf) (opened : Option PouchBuf) : Prop :=
  ∃ (done : List (List PouchEntry)) (pending : List PouchEntry),
    List.Forall₂ HoldsEntries blocks done ∧ OpenHolds pending opened ∧ done.flatten ++ pending = entries

section Order

variable {cfg : Config} {call : EntryWrite} {entry : PouchEntry} {entries : List PouchEntry}
  {blocks : List PouchBuf} {opened : Option PouchBuf}

theorem EntriesInOrder.flush (cfg : Config) {block : PouchBuf} (inOrder : EntriesInOrder entries blocks (some block)) :
    EntriesInOrder entries (blocks ++ [blockFinish cfg block]) none := by
  obtain ⟨done, pending, sealedBlocks, holds, split⟩ := inOrder
  refine ⟨done ++ [pending], [], List.rel_append sealedBlocks (.cons holds.finish .nil), rfl, ?_⟩
  simpa using split

theorem EntriesInOrder.append {block written : PouchBuf} (inOrder : EntriesInOrder entries blocks (some block))
    (entry : PouchEntry) (contents : written.contents = block.contents ++ entry.bytes) :
    EntriesInOrder (entries ++ [entry]) blocks (some written) := by
  obtain ⟨done, pending, sealedBlocks, holds, rfl⟩ := inOrder
  exact ⟨done, pending ++ [entry], sealedBlocks, holds.write entry contents, by simp⟩

theorem EntriesInOrder.alloc {fresh : PouchBuf} (inOrder : EntriesInOrder entries blocks none)
    {malloc : Option Memory} (allocated : blockAlloc malloc = some fresh) :
    EntriesInOrder entries blocks (some fresh) := by
  obtain ⟨done, pending, sealedBlocks, rfl, split⟩ := inOrder
  exact ⟨done, [], sealedBlocks, blockAlloc_holds allocated, split⟩

theorem EntryPath.inOrder {result : EntryResult} (path : EntryPath cfg call entry opened result)
    (inOrder : EntriesInOrder entries blocks opened) :
    EntriesInOrder (entries ++ if result.status = none then [entry] else []) (blocks ++ result.enqueued)
      result.block := by
  induction path generalizing blocks with
  | unallocated failed => simpa using inOrder
  | fitted block written room contents => simpa using inOrder.append entry contents
  | begun fresh written allocated room contents => simpa using (inOrder.alloc allocated).append entry contents
  | tooLarge fresh allocated noRoom => simpa using inOrder.alloc allocated
  | spilled block full next rest ih =>
    have nothing : next.enqueued = [] := by cases rest <;> rfl
    have later := ih (inOrder.flush cfg)
    simpa [nothing] using later

theorem entryWrite_inOrder (cfg : Config) (call : EntryWrite) (block : Option PouchBuf)
    (inOrder : EntriesInOrder entries blocks block) :
    let result := pouchUplinkEntryWrite cfg block call
    EntriesInOrder (entries ++ if result.status = none then call.entry?.toList else [])
      (blocks ++ result.enqueued) result.block := by
  intro result
  by_cases refused : call.entry? = none ∨ call.lock ≠ none
  next =>
    obtain ⟨err, same⟩ := entryWrite_refused cfg block refused
    simpa [result, same] using inOrder
  next =>
    simp only [not_or, not_not] at refused
    obtain ⟨entry, given⟩ := Option.ne_none_iff_exists'.mp refused.1
    simpa [given] using (entryWrite_path cfg block given refused.2).inOrder inOrder

theorem entryBlockClose_inOrder (cfg : Config) (block : Option PouchBuf) (lock : Status)
    (inOrder : EntriesInOrder entries blocks block) :
    EntriesInOrder entries (blocks ++ (entryBlockClose cfg block lock).enqueued)
      (entryBlockClose cfg block lock).block := by
  unfold entryBlockClose
  cases lock with
  | some err => simpa using inOrder
  | none =>
    cases block with
    | none => simpa using inOrder
    | some opened =>
      simp only
      split_ifs
      · exact inOrder.flush cfg
      · simpa using inOrder

theorem enqueuedBlocks_map (sent : List PouchBuf) : enqueuedBlocks (sent.map .enqueued) = sent := by
  induction sent with
  | nil => rfl
  | cons first rest ih => simp [enqueuedBlocks, ih]

theorem acceptedCalls_map (sent : List PouchBuf) : acceptedCalls (sent.map .enqueued) = [] := by
  induction sent with
  | nil => rfl
  | cons first rest ih => simpa [acceptedCalls] using ih

theorem entryOpStep_inOrder (reached : History (Option PouchBuf) EntryEvent) (op : EntryOp)
    (inOrder : EntriesInOrder (acceptedEntries reached.log) (enqueuedBlocks reached.log) reached.state) :
    let next := History.record (entryOpStep cfg) reached op
    EntriesInOrder (acceptedEntries next.log) (enqueuedBlocks next.log) next.state := by
  cases op with
  | write call =>
    have next := entryWrite_inOrder cfg call reached.state inOrder
    by_cases accepted : (pouchUplinkEntryWrite cfg reached.state call).status = none
    next =>
      have given : call.entry?.toList = [call].filterMap EntryWrite.entry? := by
        cases entry : call.entry? <;> simp [entry]
      simp only [accepted, if_true, given] at next
      simpa [History.record, entryOpStep, entryStep, acceptedEntries, accepted, acceptedCalls_map,
        enqueuedBlocks_map, acceptedCalls, enqueuedBlocks] using next
    next =>
      simp only [accepted, if_false, List.append_nil] at next
      simpa [History.record, entryOpStep, entryStep, acceptedEntries, accepted, acceptedCalls_map,
        enqueuedBlocks_map] using next
  | close lock =>
    have next := entryBlockClose_inOrder cfg reached.state lock inOrder
    simpa [History.record, entryOpStep, acceptedEntries, acceptedCalls_map, enqueuedBlocks_map] using next

end Order

/-- The arguments are objects of the program: the data takes less than half the range of `size_t`, and so
does the string, with the bytes of the entry header to spare. -/
structure EntryWrite.InMemory (cfg : Config) (call : EntryWrite) : Prop where
  path : ∀ path, call.path = some path → entryHeaderOverhead + path.bytes.length ≤ cfg.sizeRange / 2
  data : ∀ data, call.data = some data → data.length < cfg.sizeRange / 2

section Acceptance

variable {cfg : Config}

theorem EntryWrite.InMemory.sum {call : EntryWrite} (inMemory : call.InMemory cfg) (path : CString)
    (data : List UInt8) (pathGiven : call.path = some path) (dataGiven : call.data = some data) :
    entryHeaderOverhead + path.bytes.length + data.length < cfg.sizeRange := by
  have pathBound := inMemory.path path pathGiven
  have dataBound := inMemory.data data dataGiven
  omega

structure EntriesKept (cfg : Config) (history : History (Option PouchBuf) EntryEvent) : Prop where
  within : ∀ block, history.state = some block → BlockWithin cfg block
  inOrder : EntriesInOrder (acceptedEntries history.log) (enqueuedBlocks history.log) history.state

theorem entryOpStep_kept (reached : History (Option PouchBuf) EntryEvent) (op : EntryOp)
    (inMemory : ∀ call, op = .write call → call.InMemory cfg) (kept : EntriesKept cfg reached) :
    EntriesKept cfg (History.record (entryOpStep cfg) reached op) := by
  refine ⟨?_, entryOpStep_inOrder reached op kept.inOrder⟩
  cases op with
  | write call =>
    exact (pouchUplinkEntryWrite_within reached.state call kept.within (inMemory call rfl).sum).1
  | close lock => exact (entryBlockClose_within reached.state lock kept.within).1

theorem run_kept (ops : List EntryOp) (inMemory : ∀ call, .write call ∈ ops → call.InMemory cfg) :
    EntriesKept cfg (History.run (entryOpStep cfg) ⟨none, []⟩ ops) := by
  apply History.run_invariant _ fun _ op => ∀ call, op = .write call → call.InMemory cfg
  · exact ⟨by simp, [], [], .nil, rfl, rfl⟩
  · apply History.meets_of_forall
    rintro _ op member call rfl
    exact inMemory call member
  · exact fun reached op inMemory kept => entryOpStep_kept reached op inMemory kept

theorem EntriesKept.space {history : History (Option PouchBuf) EntryEvent} (kept : EntriesKept cfg history)
    {block : PouchBuf} (opened : history.state = some block) :
    blockSpaceGet cfg block ≤ cfg.maxBlockPayloadSize := by
  obtain ⟨_, pending, _, holds, _⟩ := kept.inOrder
  rw [opened] at holds
  have header := HoldsEntries.header holds
  have space := (kept.within block opened).space
  simp only [Config.maxPlaintextBlockSize] at space
  omega

/-- With the mutex and memory for a block, an entry is accepted if and only if it fits a block: whatever
was written, refused and passed on before. A refused entry leaves the accepted ones in order. -/
theorem entry_accepted_iff_fits (ops : List EntryOp)
    (earlier : ∀ call, .write call ∈ ops → call.InMemory cfg) (call : EntryWrite)
    (inMemory : call.InMemory cfg) (path : CString) (data : List UInt8) (pathGiven : call.path = some path)
    (dataGiven : call.data = some data) (nonempty : 1 ≤ data.length) (locked : call.lock = none)
    (allocated : call.malloc.isSome = true) :
    let reached := History.run (entryOpStep cfg) ⟨none, []⟩ ops
    let result := pouchUplinkEntryWrite cfg reached.state call
    (result.status = none ↔
        entryHeaderOverhead + path.bytes.length + data.length ≤ cfg.maxBlockPayloadSize) ∧
      (result.status ≠ none →
        EntriesInOrder (acceptedEntries reached.log) (enqueuedBlocks reached.log ++ result.enqueued)
          result.block) := by
  intro reached result
  have kept : EntriesKept cfg reached := run_kept ops earlier
  have given : call.entry? = some ⟨path, call.contentType, data⟩ := by
    simp [EntryWrite.entry?, pathGiven, dataGiven, Nat.ne_of_gt nonempty]
  have counted : PouchEntry.countedSize cfg ⟨path, call.contentType, data⟩ =
      entryHeaderOverhead + path.bytes.length + data.length :=
    Nat.mod_eq_of_lt (inMemory.sum path data pathGiven dataGiven)
  constructor
  · rw [entryWrite_accepted_iff]
    simp only [locked, given, Option.some.injEq, exists_eq_left', true_and, HasRoom, allocated, counted]
    constructor
    · rintro (⟨opened, held, room⟩ | room)
      · exact room.trans (kept.space held)
      · exact room
    · intro room
      exact .inr room
  · intro refused
    have next := entryWrite_inOrder cfg call reached.state kept.inOrder
    have unaccepted : (pouchUplinkEntryWrite cfg reached.state call).status ≠ none := refused
    simpa only [if_neg unaccepted, List.append_nil] using next

end Acceptance

-- The largest entry with a path of one byte, in a block of 512 bytes, and one byte more.
def largeEntry (extra : Nat) : EntryWrite where
  path := some samplePath
  contentType := 42
  data := some (List.replicate (506 + extra) 7)
  lock := none
  malloc := some fun _ => 0

theorem largeEntry_inMemory (extra : Nat) (little : extra ≤ 1) :
    (largeEntry extra).InMemory (defaultConfig .none) := by
  refine ⟨?_, ?_⟩
  · rintro path ⟨⟩
    decide
  · rintro data ⟨⟩
    rw [List.length_replicate]
    have half : (defaultConfig .none).sizeRange / 2 = 2 ^ 31 := by decide
    omega

theorem largeEntry_refused_inOrder :
    let cfg := defaultConfig .none
    let reached := History.run (entryOpStep cfg) ⟨none, []⟩ [.write sampleEntry, .write (largeEntry 0)]
    let result := pouchUplinkEntryWrite cfg reached.state (largeEntry 1)
    result.status ≠ none ∧
      EntriesInOrder (acceptedEntries reached.log) (enqueuedBlocks reached.log ++ result.enqueued)
        result.block := by
  intro cfg reached result
  have earlier : ∀ call, .write call ∈ [EntryOp.write sampleEntry, .write (largeEntry 0)] →
      call.InMemory cfg := by
    intro call member
    simp only [List.mem_cons, EntryOp.write.injEq, List.not_mem_nil, or_false] at member
    rcases member with rfl | rfl
    · refine ⟨?_, ?_⟩
      · rintro path ⟨⟩
        decide
      · rintro data ⟨⟩
        decide
    · exact largeEntry_inMemory 0 (by decide)
  obtain ⟨fits, kept⟩ := entry_accepted_iff_fits _ earlier (largeEntry 1)
    (largeEntry_inMemory 1 (by decide)) samplePath (List.replicate (506 + 1) 7) rfl rfl
    (by rw [List.length_replicate]; decide) rfl rfl
  have refused : result.status ≠ none := by
    intro accepted
    have room := fits.mp accepted
    rw [List.length_replicate] at room
    exact absurd room (by decide)
  exact ⟨refused, kept refused⟩

section EmptyBlocks

variable (cfg : Config)

def ContainsEntry (block : PouchBuf) : Prop :=
  ∃ entries, entries ≠ [] ∧ HoldsEntries block entries

def PassesOn (block : PouchBuf) : EntryOp → Prop
  | .close lock => lock = none
  | .write call => call.lock = none ∧
      ∃ entry, call.entry? = some entry ∧ blockSpaceGet cfg block < entry.countedSize cfg

def PassesEntries (reached : History (Option PouchBuf) EntryEvent) (op : EntryOp) : Prop :=
  ∀ block, reached.state = some block → PassesOn cfg block op → Config.blockHeaderSize < block.bytes

variable {cfg} {block : PouchBuf} {entries : List PouchEntry}

theorem ContainsEntry.more (contains : ContainsEntry block) : Config.blockHeaderSize < block.bytes := by
  obtain ⟨entries, some', holds⟩ := contains
  obtain ⟨entry, rest, rfl⟩ := List.exists_cons_of_ne_nil some'
  have length := congrArg List.length holds.payload
  simp only [List.length_drop, PouchBuf.contents_length, List.flatMap_cons, List.length_append,
    PouchEntry.bytes_length, PouchEntry.size, entryHeaderOverhead] at length
  omega

theorem HoldsEntries.containsEntry_iff (holds : HoldsEntries block entries) :
    ContainsEntry block ↔ Config.blockHeaderSize < block.bytes := by
  constructor
  · exact ContainsEntry.more
  · intro more
    refine ⟨entries, ?_, holds⟩
    rintro rfl
    have length := congrArg List.length holds.payload
    simp only [List.length_drop, PouchBuf.contents_length, List.flatMap_nil, List.length_nil] at length
    omega

theorem EntryPath.mem_enqueued {call : EntryWrite} {entry : PouchEntry} {opened : Option PouchBuf}
    {result : EntryResult} (path : EntryPath cfg call entry opened result) (sent : PouchBuf) :
    sent ∈ result.enqueued ↔ ∃ block, opened = some block ∧
      blockSpaceGet cfg block < entry.countedSize cfg ∧ sent = blockFinish cfg block := by
  cases path with
  | unallocated failed => simp
  | fitted block written room contents => simp [Nat.not_lt.mpr room]
  | begun fresh written allocated room contents => simp
  | tooLarge fresh allocated noRoom => simp
  | spilled block full next rest => simp [full]

theorem entryOpStep_enqueued (cfg : Config) (opened : Option PouchBuf) (op : EntryOp) (sent : PouchBuf)
    (header : ∀ block, opened = some block → Config.blockHeaderSize ≤ block.bytes) :
    .enqueued sent ∈ (entryOpStep cfg opened op).2 ↔
      ∃ block, opened = some block ∧ PassesOn cfg block op ∧ sent = blockFinish cfg block := by
  cases op with
  | write call =>
    have events : .enqueued sent ∈ (entryOpStep cfg opened (.write call)).2 ↔
        sent ∈ (pouchUplinkEntryWrite cfg opened call).enqueued := by
      simp only [entryOpStep, entryStep]
      split_ifs <;> simp
    rw [events]
    by_cases refused : call.entry? = none ∨ call.lock ≠ none
    next =>
      obtain ⟨err, same⟩ := entryWrite_refused cfg opened refused
      rw [same]
      constructor
      · intro member
        simp at member
      · rintro ⟨_, _, ⟨locked, _, given, _⟩, _⟩
        simp [given, locked] at refused
    next =>
      simp only [not_or, not_not] at refused
      obtain ⟨entry, given⟩ := Option.ne_none_iff_exists'.mp refused.1
      rw [(entryWrite_path cfg opened given refused.2).mem_enqueued]
      simp [PassesOn, given, refused.2]
  | close lock =>
    cases opened with
    | none => cases lock <;> simp [entryOpStep, entryBlockClose]
    | some block =>
      have inUse : 0 < blockSizeGet block := Nat.lt_of_lt_of_le (by decide) (header block rfl)
      cases lock <;> simp [entryOpStep, entryBlockClose, PassesOn, inUse]

theorem entryOpStep_holds (opened : Option PouchBuf) (op : EntryOp) (holds : ∃ pending, OpenHolds pending opened) :
    ∃ pending, OpenHolds pending (entryOpStep cfg opened op).1 := by
  obtain ⟨pending, held⟩ := holds
  have inOrder : EntriesInOrder pending [] opened := ⟨[], pending, .nil, held, rfl⟩
  cases op with
  | write call =>
    obtain ⟨_, next, _, held, _⟩ := entryWrite_inOrder cfg call opened inOrder
    exact ⟨next, held⟩
  | close lock =>
    obtain ⟨_, next, _, held, _⟩ := entryBlockClose_inOrder cfg opened lock inOrder
    exact ⟨next, held⟩

theorem entryOpStep_passes_iff (reached : History (Option PouchBuf) EntryEvent) (op : EntryOp)
    (holds : ∃ pending, OpenHolds pending reached.state) :
    (∀ event ∈ (entryOpStep cfg reached.state op).2,
      ∀ block, event = .enqueued block → ContainsEntry block) ↔ PassesEntries cfg reached op := by
  obtain ⟨pending, held⟩ := holds
  have opened (block : PouchBuf) (state : reached.state = some block) : HoldsEntries block pending := by
    rw [state] at held
    exact held
  have enqueued (sent : PouchBuf) := entryOpStep_enqueued cfg reached.state op sent fun block state =>
    (opened block state).header
  constructor
  · intro every block state passes
    have sent := every _ ((enqueued _).mpr ⟨block, state, passes, rfl⟩) _ rfl
    rwa [(opened block state).finish.containsEntry_iff] at sent
  · rintro passes _ member sent rfl
    obtain ⟨block, state, passed, rfl⟩ := (enqueued sent).mp member
    rw [(opened block state).finish.containsEntry_iff]
    exact passes block state passed

theorem mem_enqueuedBlocks (log : List EntryEvent) (block : PouchBuf) :
    block ∈ enqueuedBlocks log ↔ .enqueued block ∈ log := by
  induction log with
  | nil => simp [enqueuedBlocks]
  | cons event rest ih => cases event <;> simp [enqueuedBlocks, ih]

/-- Every block that is passed on contains an entry exactly in the runs in which no open block is passed
on while it is only a header. Such a block is left behind by an entry that is too large for any. -/
theorem enqueued_contain_entries_iff (ops : List EntryOp) :
    (∀ block ∈ enqueuedBlocks (History.run (entryOpStep cfg) ⟨none, []⟩ ops).log, ContainsEntry block) ↔
      History.Meets (entryOpStep cfg) (PassesEntries cfg) ⟨none, []⟩ ops := by
  have run := History.log_forall_iff (entryOpStep cfg)
    (fun event => ∀ block, event = .enqueued block → ContainsEntry block) (PassesEntries cfg)
    (fun state => ∃ pending, OpenHolds pending state) ⟨none, []⟩ ops ⟨[], rfl⟩ entryOpStep_passes_iff
    entryOpStep_holds
  simp only [List.not_mem_nil, false_implies, implies_true, true_and] at run
  rw [← run]
  constructor
  · rintro every _ member block rfl
    exact every block ((mem_enqueuedBlocks _ _).mpr member)
  · intro every block member
    exact every _ ((mem_enqueuedBlocks _ _).mp member) block rfl

end EmptyBlocks

/-- An entry of 513 bytes is refused, and with the close a block without an entry is passed on. -/
theorem refused_entry_leaves_empty_block :
    ¬ ∀ ops, ∀ block ∈ enqueuedBlocks
        (History.run (entryOpStep (defaultConfig .none)) ⟨none, []⟩ ops).log, ContainsEntry block := by
  intro every
  have sizes : (enqueuedBlocks (History.run (entryOpStep (defaultConfig .none)) ⟨none, []⟩
      [.write (largeEntry 1), .close none]).log).map PouchBuf.bytes = [3] := by decide +kernel
  obtain ⟨block, sent, bytes⟩ := List.mem_map.mp (sizes.symm ▸ List.mem_singleton_self 3)
  have more := (every _ block sent).more
  rw [bytes] at more
  exact absurd more (by decide)

end Pouch
