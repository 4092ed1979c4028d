import Pouch.EntryAcceptance

set_option autoImplicit false

/-!
# The length fields of uplink headers

A path has a length field of one byte and the data of an entry one of two. Neither writer compares the
lengths with what their fields can hold.
-/

namespace Pouch

open ByteMemory

def entryLengths : List UInt8 → Option (Nat × Nat)
  | high :: low :: _ :: _ :: pathLen :: _ => some (getBe16 high low, pathLen.toNat)
  | _ => none

def streamPathLength (block : PouchBuf) : Option Nat :=
  block.contents[Config.blockHeaderSize + 2]?.map UInt8.toNat

/-- An accepted entry, at the end of the open block, has the lengths it was given, and a path that is too
long for its field is not accepted. -/
def EntryRepresented (cfg : Config) (block : Option PouchBuf) (call : EntryWrite) : Prop :=
  ∀ path data, call.path = some path → call.data = some data →
    let result := pouchUplinkEntryWrite cfg block call
    (result.status = none → ∃ written, result.block = some written ∧
      entryLengths (written.contents.drop
          (written.bytes - (entryHeaderOverhead + path.bytes.length + data.length))) =
        some (data.length, path.bytes.length)) ∧
      (255 < path.bytes.length → result.status ≠ none)

def StreamRepresented (state : Writers) (path : CString) (contentType : UInt16) (structAllocated : Bool)
    (malloc : Option Memory) : Prop :=
  let result := pouchUplinkStreamOpen state path contentType structAllocated malloc
  (∀ stream, result.1 = some stream → streamPathLength stream.buf = some path.bytes.length) ∧
    (255 < path.bytes.length → result.1 = none)

section Fields

variable {cfg : Config}

theorem PouchEntry.bytes_lengths (entry : PouchEntry) :
    entryLengths entry.bytes = some (entry.data.length % 65536, entry.path.bytes.length % 256) := by
  simp [PouchEntry.bytes, putBe16, entryLengths, getBe16_put]

theorem entryLengths_exact_iff (entry : PouchEntry) :
    entryLengths entry.bytes = some (entry.data.length, entry.path.bytes.length) ↔
      entry.path.bytes.length ≤ 255 ∧ entry.data.length ≤ 65535 := by
  rw [entry.bytes_lengths, Option.some.injEq, Prod.mk.injEq]
  omega

theorem EntryPath.written {call : EntryWrite} {entry : PouchEntry} {opened : Option PouchBuf}
    {result : EntryResult} (path : EntryPath cfg call entry opened result) (accepted : result.status = none) :
    ∃ written, result.block = some written ∧
      written.contents.drop (written.bytes - entry.size) = entry.bytes := by
  have tail (before : List UInt8) (written : PouchBuf) (contents : written.contents = before ++ entry.bytes) :
      written.contents.drop (written.bytes - entry.size) = entry.bytes := by
    have length := congrArg List.length contents
    simp only [PouchBuf.contents_length, List.length_append, entry.bytes_length] at length
    rw [contents, List.drop_left' (by omega)]
  induction path with
  | unallocated failed => simp at accepted
  | fitted block written room contents => exact ⟨written, rfl, tail _ written contents⟩
  | begun fresh written allocated room contents => exact ⟨written, rfl, tail _ written contents⟩
  | tooLarge fresh allocated noRoom => simp at accepted
  | spilled block full next rest ih => exact ih accepted

theorem entryRepresented_iff (block : Option PouchBuf) (call : EntryWrite) :
    EntryRepresented cfg block call ↔
      ∀ entry, call.entry? = some entry → call.lock = none → HasRoom cfg block call.malloc entry →
        entry.path.bytes.length ≤ 255 ∧ entry.data.length ≤ 65535 := by
  constructor
  · intro represented entry given locked room
    obtain ⟨pathGiven, dataGiven, _, _⟩ := EntryWrite.entry?_some given
    have path := entryWrite_path cfg block given locked
    have accepted := path.accepted_iff.mpr room
    obtain ⟨written, opened, stands⟩ := path.written accepted
    obtain ⟨same, opened', lengths⟩ := (represented entry.path entry.data pathGiven dataGiven).1 accepted
    obtain rfl : written = same := Option.some.inj (opened.symm.trans opened')
    change entryLengths (written.contents.drop (written.bytes - entry.size)) = _ at lengths
    rwa [stands, entryLengths_exact_iff] at lengths
  · intro exact' path data pathGiven dataGiven
    suffices sound : (pouchUplinkEntryWrite cfg block call).status = none →
        path.bytes.length ≤ 255 ∧ ∃ written, (pouchUplinkEntryWrite cfg block call).block = some written ∧
          entryLengths (written.contents.drop
              (written.bytes - (entryHeaderOverhead + path.bytes.length + data.length))) =
            some (data.length, path.bytes.length) by
      refine ⟨fun accepted => (sound accepted).2, fun long accepted => ?_⟩
      exact absurd (sound accepted).1 (Nat.not_le.mpr long)
    intro accepted
    obtain ⟨locked, entry, given, room⟩ := (entryWrite_accepted_iff cfg block call).mp accepted
    obtain ⟨samePath, sameData, _, _⟩ := EntryWrite.entry?_some given
    obtain rfl : path = entry.path := Option.some.inj (pathGiven.symm.trans samePath)
    obtain rfl : data = entry.data := Option.some.inj (dataGiven.symm.trans sameData)
    have short := exact' entry given locked room
    obtain ⟨written, opened, stands⟩ := (entryWrite_path cfg block given locked).written accepted
    refine ⟨short.1, written, opened, ?_⟩
    change entryLengths (written.contents.drop (written.bytes - entry.size)) = _
    rw [stands, entryLengths_exact_iff]
    exact short

theorem streamOpen_pathLength (state : Writers) (path : CString) (contentType : UInt16)
    (structAllocated : Bool) (malloc : Option Memory) (stream : PouchStream)
    (opened : (pouchUplinkStreamOpen state path contentType structAllocated malloc).1 = some stream) :
    streamPathLength stream.buf = some (path.bytes.length % 256) := by
  obtain ⟨_, _, cases'⟩ := streamOpen_cases state path contentType structAllocated malloc
  obtain ⟨_, _, block, allocated, buf⟩ := cases' stream opened
  have contents := blockAllocStream_some malloc stream.id true block allocated
  simp [streamPathLength, buf, writeStreamHeader, contents, Config.blockHeaderSize, putBe16]

theorem streamRepresented_iff (state : Writers) (path : CString) (contentType : UInt16)
    (structAllocated : Bool) (malloc : Option Memory) :
    StreamRepresented state path contentType structAllocated malloc ↔
      (WriterOp.opens state (.streamOpen path contentType structAllocated malloc) = true →
        path.bytes.length ≤ 255) := by
  have opens := streamOpen_opens state path contentType structAllocated malloc
  have length := streamOpen_pathLength state path contentType structAllocated malloc
  simp only [StreamRepresented, ← opens]
  generalize (pouchUplinkStreamOpen state path contentType structAllocated malloc).1 = result at length
  cases result with
  | none => simp
  | some stream =>
    simp only [Option.some.injEq, forall_eq', length stream rfl, reduceCtorEq, imp_false, Option.isSome_some,
      forall_true_left]
    omega

/-- The headers have the lengths they were given exactly for the calls that are refused for another
reason or have lengths that their fields can hold. -/
theorem header_lengths_iff (cfg : Config) (state : Writers) :
    (∀ call, EntryRepresented cfg state.block call ↔
      ∀ entry, call.entry? = some entry → call.lock = none → HasRoom cfg state.block call.malloc entry →
        entry.path.bytes.length ≤ 255 ∧ entry.data.length ≤ 65535) ∧
      ∀ path contentType structAllocated malloc,
        StreamRepresented state path contentType structAllocated malloc ↔
          (WriterOp.opens state (.streamOpen path contentType structAllocated malloc) = true →
            path.bytes.length ≤ 255) :=
  ⟨entryRepresented_iff state.block, streamRepresented_iff state⟩

end Fields

-- One byte more than the field of a path can count.
def uncountablePath : CString where
  bytes := List.replicate 256 1
  noNul := by
    intro byte member
    rw [List.eq_of_mem_replicate member]
    decide

/-- With a path of 256 bytes an entry is accepted and a stream opened, both with a path length of 0. -/
theorem long_path_accepted :
    ¬ EntryRepresented (defaultConfig .none) none
        ⟨some uncountablePath, 42, some [7], none, some fun _ => 0⟩ ∧
      ¬ StreamRepresented (.boot 0) uncountablePath 42 true (some fun _ => 0) := by
  have long : 255 < uncountablePath.bytes.length := by
    rw [show uncountablePath.bytes.length = 256 from List.length_replicate]
    decide
  constructor
  · intro represented
    exact (represented uncountablePath [7] rfl rfl).2 long (by decide +kernel)
  · intro represented
    have refused := represented.2 long
    simp [pouchUplinkStreamOpen, Writers.boot, pouchStreamsMax, blockAllocStream, bufAlloc] at refused

end Pouch
