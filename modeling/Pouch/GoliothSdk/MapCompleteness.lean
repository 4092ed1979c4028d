import Pouch.GoliothSdk.ItemDecoder
import Pouch.GoliothSdk.Manifest
import Pouch.GoliothSdk.MapRuns
import Pouch.GoliothSdk.OtaOffsets
import Pouch.Shared.Selection

set_option autoImplicit false

/-!
# Which entries are decoded

`zcbor_map_decode` counts the entries it decodes. It returns 0 once there are as many as are expected, whichever
they are.
-/

namespace Pouch

open ByteMemory

section Model

variable (zcbor : Zcbor) (memory : Memory) (items : CborItems) {Values : Type} (entries : List (MapEntry Values))

-- The successful calls of callbacks, each with the address of the value and the key of the entry.
def mapDecodeCalls (fuel : Nat) (key : MapKey) (zsd : ZcborState) (values : Values) : List (Nat × EntryKey) :=
  (zcborMapDecode zcbor memory (entries.map MapEntry.logged) fuel key zsd (values, [])).2.2

def valuesAt : Nat → List (List UInt8 × List UInt8) → List (List UInt8 × Nat)
  | _, [] => []
  | address, (item, value) :: pairs =>
    (item, address + item.length) :: valuesAt (address + item.length + value.length) pairs

-- Each entry's callback succeeded on the value of a key that equals the entry's.
def Complete (address : Nat) (pairs : List (List UInt8 × List UInt8)) (calls : List (Nat × EntryKey)) : Prop :=
  ∀ entry ∈ entries, ∃ value ∈ valuesAt address pairs,
    items.entryKey value.1 = some entry.key ∧ (value.2, entry.key) ∈ calls

def firstTaken (address : Nat) (key : MapKey) (pairs : List (List UInt8 × List UInt8)) : List Mark :=
  ((marks items memory entries address key pairs).filter fun mark => mark.taken.isSome).take entries.length

def TakenOnce (address : Nat) (key : MapKey) (pairs : List (List UInt8 × List UInt8)) : Prop :=
  (∀ mark ∈ firstTaken memory items entries address key pairs, items.entryKey mark.item = mark.taken) ∧
    ((firstTaken memory items entries address key pairs).map (·.taken)).Nodup

end Model

section Marks

variable {zcbor : Zcbor} {memory : Memory} {items : CborItems} {Values : Type} {entries : List (MapEntry Values)}
  {zsd : ZcborState}

theorem logged_status (zcbor : Zcbor) (memory : Memory) (entries : List (MapEntry Values)) (fuel : Nat)
    (key : MapKey) (zsd : ZcborState) (values : Values) (log : List (Nat × EntryKey)) :
    (zcborMapDecode zcbor memory entries fuel key zsd values).1 =
        (zcborMapDecode zcbor memory (entries.map MapEntry.logged) fuel key zsd (values, log)).1 ∧
      (zcborMapDecode zcbor memory entries fuel key zsd values).2 =
        (zcborMapDecode zcbor memory (entries.map MapEntry.logged) fuel key zsd (values, log)).2.1 := by
  have simulates : List.Forall₂ (Simulates fun values (state : Values × List (Nat × EntryKey)) => values = state.1)
      entries (entries.map MapEntry.logged) := by
    rw [List.forall₂_map_right_iff]
    apply List.forall₂_same.mpr
    intro entry _
    refine ⟨rfl, ?_, ?_⟩
    all_goals
      rintro zsd values ⟨_, log⟩ rfl
      simp only [MapEntry.logged]
      cases entry.decode zsd values with
      | mk status values => cases status <;> rfl
  exact zcborMapDecode_simulates zcbor memory simulates fuel key zsd rfl

theorem marks_known (address : Nat) (key : MapKey) (pairs : List (List UInt8 × List UInt8)) :
    ∀ mark ∈ marks items memory entries address key pairs, ∀ entryKey, mark.taken = some entryKey →
      entryKey ∈ entries.map (·.key) := by
  induction pairs generalizing address key with
  | nil => simp [marks]
  | cons pair pairs ih =>
    simp only [marks]
    cases items.readKey address key pair.1 with
    | none => simp
    | some read =>
      simp only [List.mem_cons, forall_eq_or_imp, Option.map_eq_some_iff]
      refine ⟨?_, ih _ read⟩
      rintro _ ⟨entry, found, rfl⟩
      exact List.mem_map_of_mem (List.mem_of_find?_eq_some found)

theorem marks_valuesAt (address : Nat) (key : MapKey) (pairs : List (List UInt8 × List UInt8)) :
    (marks items memory entries address key pairs).map (fun mark => (mark.item, mark.value)) <+:
      valuesAt address pairs := by
  induction pairs generalizing address key with
  | nil => simp [marks, valuesAt]
  | cons pair pairs ih =>
    simp only [marks, valuesAt]
    cases items.readKey address key pair.1 with
    | none => exact List.nil_prefix
    | some read => exact List.cons_prefix_cons.mpr ⟨rfl, ih _ read⟩

theorem valuesAt_above (address : Nat) (pairs : List (List UInt8 × List UInt8)) :
    ∀ value ∈ valuesAt address pairs, address ≤ value.2 := by
  induction pairs generalizing address with
  | nil => simp [valuesAt]
  | cons pair pairs ih =>
    simp only [valuesAt, List.mem_cons, forall_eq_or_imp]
    refine ⟨Nat.le_add_right .., ?_⟩
    intro value member
    have behind := ih _ value member
    omega

theorem valuesAt_unique (address : Nat) (pairs : List (List UInt8 × List UInt8))
    (areItems : ∀ pair ∈ pairs, items.Item pair.1 ∧ items.Item pair.2) :
    ∀ first ∈ valuesAt address pairs, ∀ second ∈ valuesAt address pairs, first.2 = second.2 → first.1 = second.1 := by
  induction pairs generalizing address with
  | nil => simp [valuesAt]
  | cons pair pairs ih =>
    have length := items.length_pos (areItems pair (List.mem_cons_self ..)).2
    have above := valuesAt_above (address + pair.1.length + pair.2.length) pairs
    have rest := ih (address + pair.1.length + pair.2.length) fun other member =>
      areItems other (List.mem_cons_of_mem _ member)
    simp only [valuesAt, List.mem_cons]
    rintro first (rfl | isFirst) second (rfl | isSecond) same
    · rfl
    · have behind := above second isSecond
      simp only at same
      omega
    · have behind := above first isFirst
      simp only at same
      omega
    · exact rest first isFirst second isSecond same

end Marks

section Completeness

variable {zcbor : Zcbor} {memory : Memory} {items : CborItems} {Values : Type} {entries : List (MapEntry Values)}
  {zsd next : ZcborState} {rest : List UInt8}

theorem takenIn_filter (marks : List Mark) :
    takenIn (marks.filter fun mark => mark.taken.isSome) = takenIn marks := by
  induction marks with
  | nil => rfl
  | cons mark marks ih =>
    rw [takenIn] at ih ⊢
    cases taken : mark.taken <;> simp [taken, ih, takenIn]

theorem takenIn_length (marks : List Mark) :
    (takenIn marks).length = (marks.filter fun mark => mark.taken.isSome).length := by
  induction marks with
  | nil => rfl
  | cons mark marks ih =>
    rw [takenIn] at ih ⊢
    cases taken : mark.taken <;> simp [taken, ih]

theorem mem_takenIn (marks : List Mark) (address : Nat) (key : EntryKey) :
    (address, key) ∈ takenIn marks ↔ ∃ mark ∈ marks, mark.value = address ∧ mark.taken = some key := by
  simp only [takenIn, List.mem_filterMap, Option.map_eq_some_iff, Prod.mk.injEq]
  constructor
  · rintro ⟨mark, member, key, taken, rfl, rfl⟩
    exact ⟨mark, member, rfl, taken⟩
  · rintro ⟨mark, member, rfl, taken⟩
    exact ⟨mark, member, key, taken, rfl, rfl⟩

theorem MapRan.firstTaken {map : CborMap items} {calls : List (Nat × EntryKey)} {count address : Nat} {key : MapKey}
    (ran : MapRan map entries zsd (marks items memory entries address key map.pairs) next calls count) :
    calls = takenIn (firstTaken memory items entries address key map.pairs) ∧
      (firstTaken memory items entries address key map.pairs).length = entries.length := by
  have all := ran.all
  rw [takenIn_length] at all
  have first : Pouch.firstTaken memory items entries address key map.pairs =
      ((marks items memory entries address key map.pairs).take count).filter fun mark => mark.taken.isSome := by
    rw [Pouch.firstTaken, ← List.take_append_drop count (marks items memory entries address key map.pairs),
      List.filter_append, List.take_append_drop, ← all, List.take_left]
  rw [first, takenIn_filter]
  exact ⟨ran.calls, all⟩

theorem firstTaken_known {address : Nat} {key : MapKey} {pairs : List (List UInt8 × List UInt8)} :
    ∀ mark ∈ firstTaken memory items entries address key pairs,
      mark.taken ∈ entries.map fun entry => some entry.key := by
  intro mark member
  obtain ⟨isMark, isTaken⟩ := List.mem_filter.mp (List.mem_of_mem_take member)
  obtain ⟨entryKey, taken⟩ := Option.isSome_iff_exists.mp isTaken
  obtain ⟨entry, isEntry, same⟩ := List.mem_map.mp (marks_known address key pairs mark isMark entryKey taken)
  exact List.mem_map.mpr ⟨entry, isEntry, by rw [taken, same]⟩

theorem complete_takenIn_iff {address : Nat} {key : MapKey} (map : CborMap items) :
    Complete items entries address map.pairs (takenIn (firstTaken memory items entries address key map.pairs)) ↔
      ∀ wanted ∈ entries.map fun entry => some entry.key,
        ∃ mark ∈ firstTaken memory items entries address key map.pairs,
          mark.taken = wanted ∧ items.entryKey mark.item = mark.taken := by
  have placed (mark : Mark) (member : mark ∈ firstTaken memory items entries address key map.pairs) :
      (mark.item, mark.value) ∈ valuesAt address map.pairs := by
    have isMark := (List.mem_filter.mp (List.mem_of_mem_take member)).1
    exact (marks_valuesAt address key map.pairs).subset (List.mem_map_of_mem isMark)
  simp only [List.mem_map, forall_exists_index, and_imp, forall_apply_eq_imp_iff₂]
  constructor
  · intro complete entry member
    obtain ⟨value, isValue, equals, called⟩ := complete entry member
    obtain ⟨mark, isMark, sameValue, taken⟩ := (mem_takenIn _ _ _).mp called
    have sameItem : mark.item = value.1 :=
      valuesAt_unique address map.pairs map.areItems _ (placed mark isMark) value isValue sameValue
    exact ⟨mark, isMark, taken, by rw [sameItem, equals, taken]⟩
  · intro covered entry member
    obtain ⟨mark, isMark, taken, equals⟩ := covered entry member
    exact ⟨_, placed mark isMark, equals.trans taken, (mem_takenIn _ _ _).mpr ⟨mark, isMark, rfl, taken⟩⟩

theorem mapDecode_ran (reads : zcbor.Reads items) (advances : ∀ entry ∈ entries, Advances items memory entry)
    (map : CborMap items) (atMap : zsd.AtMap memory map rest) {fuel : Nat} {key : MapKey} {values after : Values}
    (decoded : zcborMapDecode zcbor memory entries fuel key zsd values = (.ok next, after)) :
    ∃ count, MapRan map entries zsd (marks items memory entries (zsd.payload + map.head.length) key map.pairs) next
      (mapDecodeCalls zcbor memory entries fuel key zsd values) count := by
  have status := (logged_status zcbor memory entries fuel key zsd values []).1
  cases run : zcborMapDecode zcbor memory (entries.map MapEntry.logged) fuel key zsd (values, []) with
  | mk result state =>
    obtain ⟨after', calls⟩ := state
    rw [decoded, run] at status
    obtain rfl : .ok next = result := status
    rw [mapDecodeCalls, run]
    exact zcborMapDecode_ran reads advances map atMap.before atMap.elem atMap.backup fuel key run

end Completeness

/-- A map is decoded successfully with every expected entry decoded if and only if, of its keys that are taken for
one of the `n` entries, the first `n` equal those of the entries they are taken for, each for another entry. -/
theorem map_decode_complete_iff (zcbor : Zcbor) (items : CborItems) (reads : zcbor.Reads items) {Values : Type}
    (memory : Memory) (entries : List (MapEntry Values)) (distinct : (entries.map (·.key)).Nodup)
    (advances : ∀ entry ∈ entries, Advances items memory entry) (map : CborMap items) (zsd next : ZcborState)
    (rest : List UInt8) (atMap : zsd.AtMap memory map rest) (fuel : Nat) (key : MapKey) (values after : Values)
    (decoded : zcborMapDecode zcbor memory entries fuel key zsd values = (.ok next, after)) :
    Complete items entries (zsd.payload + map.head.length) map.pairs
        (mapDecodeCalls zcbor memory entries fuel key zsd values) ↔
      TakenOnce memory items entries (zsd.payload + map.head.length) key map.pairs := by
  obtain ⟨count, ran⟩ := mapDecode_ran reads advances map atMap decoded
  obtain ⟨first, length⟩ := ran.firstTaken
  have wanted : (entries.map fun entry => some entry.key).Nodup := by
    simpa [Function.comp_def] using List.Nodup.map (Option.some_injective EntryKey) distinct
  have covers := Selection.covers_iff Mark.taken (fun mark => items.entryKey mark.item = mark.taken) wanted
    (by rw [length, List.length_map]) firstTaken_known
  rw [first, complete_takenIn_iff map, covers]
  rfl

theorem componentEntries_distinct (zcbor : Zcbor) (memory : Memory) (cfg : OtaConfig) :
    ((componentEntries zcbor memory cfg).map (·.key)).Nodup := by
  simp [componentEntries, componentKeyPackage, componentKeyVersion, componentKeySize, componentKeyHash]

theorem textEntry_advances {zcbor : Zcbor} {items : CborItems} (reads : zcbor.Reads items) (memory : Memory)
    (key : EntryKey) (valueLen : Nat) (get : ComponentFields → List UInt8)
    (put : ComponentFields → List UInt8 → ComponentFields) :
    Advances items memory ⟨key, componentEntryDecodeValue zcbor memory valueLen get put⟩ := by
  intro zsd next item rest fields after isItem before elem decoded
  simp only [componentEntryDecodeValue, reads.tstr isItem before elem] at decoded
  cases read : items.text item with
  | none => simp [read] at decoded
  | some text =>
    simp only [read, Option.map_some] at decoded
    split_ifs at decoded
    · simp at decoded
    · exact (Except.ok.inj (Prod.mk.inj decoded).1).symm

theorem intEntry_advances {items : CborItems} {Values : Type} (memory : Memory) (key : EntryKey)
    {decode : Memory → ZcborState → Option (Int × ZcborState)} {read : List UInt8 → Option Int}
    (accepts : Accepts items decode read) (put : Values → Int → Values) :
    Advances items memory ⟨key, zcborMapIntDecode memory decode put⟩ := by
  intro zsd next item rest fields after isItem before elem decoded
  simp only [zcborMapIntDecode, accepts isItem before elem] at decoded
  cases is : read item with
  | none => simp [is] at decoded
  | some value =>
    simp only [is, Option.map_some] at decoded
    exact (Except.ok.inj (Prod.mk.inj decoded).1).symm

theorem componentEntries_advance {zcbor : Zcbor} {items : CborItems} (reads : zcbor.Reads items) (memory : Memory)
    (cfg : OtaConfig) : ∀ entry ∈ componentEntries zcbor memory cfg, Advances items memory entry := by
  intro entry member
  simp only [componentEntries, List.mem_cons, List.not_mem_nil, or_false] at member
  rcases member with rfl | rfl | rfl | rfl
  · exact textEntry_advances reads memory _ _ _ _
  · exact textEntry_advances reads memory _ _ _ _
  · exact intEntry_advances memory _ reads.int32 _
  · exact textEntry_advances reads memory _ _ _ _

-- Package "a" in version "1", with its size in front of its hash.
def completeComponent : CborMap definiteItems where
  head := [0xa4]
  indefinite := false
  pairs := [([1], [0x61, 0x61]), ([2], [0x61, 0x31]), ([4], [5]), ([3], [0x61, 0x68])]
  isHead := ⟨rfl, rfl⟩
  areItems := by decide +kernel

-- The package is there twice, and the hash is missing.
def repeatedComponent : CborMap definiteItems where
  head := [0xa4]
  indefinite := false
  pairs := [([1], [0x61, 0x61]), ([1], [0x61, 0x61]), ([2], [0x61, 0x31]), ([4], [5])]
  isHead := ⟨rfl, rfl⟩
  areItems := by decide +kernel

section Samples

variable (map : CborMap definiteItems)

def sampleEntries : List (MapEntry ComponentFields) :=
  componentEntries cborDecoder (memoryOf map.bytes) sampleOtaConfig

def blankFields : ComponentFields := ⟨List.replicate 33 0, List.replicate 33 0, List.replicate 65 0xff, 0⟩

def sampleDecode : Except DecodeError ZcborState × ComponentFields :=
  zcborMapDecode cborDecoder (memoryOf map.bytes) (sampleEntries map) (map.bytes.length + 1) ⟨.u32, 0, 0⟩
    (zcborStateD 3 0 map.bytes.length) blankFields

def sampleCalls : List (Nat × EntryKey) :=
  mapDecodeCalls cborDecoder (memoryOf map.bytes) (sampleEntries map) (map.bytes.length + 1) ⟨.u32, 0, 0⟩
    (zcborStateD 3 0 map.bytes.length) blankFields

end Samples

theorem complete_component_decoded :
    (∃ next after, sampleDecode completeComponent = (.ok next, after)) ∧
      Complete definiteItems (sampleEntries completeComponent) 1 completeComponent.pairs
        (sampleCalls completeComponent) := by
  refine ⟨⟨_, _, rfl⟩, ?_⟩
  exact (map_decode_complete_iff cborDecoder definiteItems cborDecoder_reads _ (sampleEntries completeComponent)
    (componentEntries_distinct ..) (componentEntries_advance cborDecoder_reads _ sampleOtaConfig) completeComponent
    (zcborStateD 3 0 completeComponent.bytes.length) _ []
    ⟨by simpa using memoryOf_before completeComponent.bytes 3, by decide, by decide⟩ _ _ _ _ rfl).mpr
    ⟨by decide +kernel, by decide +kernel⟩

/-- A component with its package twice and without a hash is decoded successfully. -/
theorem repeated_component_decoded :
    ((sampleEntries repeatedComponent).map (·.key)).Nodup ∧
      (∃ next after, sampleDecode repeatedComponent = (.ok next, after)) ∧
      (∀ call ∈ sampleCalls repeatedComponent, call.2 ≠ .u32 componentKeyHash) ∧
      ¬ Complete definiteItems (sampleEntries repeatedComponent) 1 repeatedComponent.pairs
        (sampleCalls repeatedComponent) := by
  have missing : ∀ call ∈ sampleCalls repeatedComponent, call.2 ≠ .u32 componentKeyHash := by decide +kernel
  refine ⟨componentEntries_distinct .., ⟨_, _, rfl⟩, missing, ?_⟩
  intro complete
  have isEntry : ∃ entry ∈ sampleEntries repeatedComponent, entry.key = .u32 componentKeyHash := by
    simp [sampleEntries, componentEntries]
  obtain ⟨entry, isEntry, key⟩ := isEntry
  obtain ⟨value, _, _, called⟩ := complete entry isEntry
  exact missing _ called key

end Pouch
