import Pouch.GoliothSdk.ItemDecoder
import Pouch.GoliothSdk.MapRuns
import Pouch.GoliothSdk.Settings
import Pouch.Shared.Selection

set_option autoImplicit false

/-!
# Types of keys

All keys of a map are decoded into one variable, which holds a number and a text in the same place. Entries are
compared with it as what they are themselves, and so a number may be read through as an address. Not at every address
is there memory to read.
-/

namespace Pouch

open ByteMemory

section Comparison

variable (memory : Memory) (readable : Nat → Bool) {Values : Type}

-- `none` is a read where there is no memory, which does not return.
def EntryKey.compare (entry : EntryKey) (key : MapKey) : Option Bool :=
  match entry with
  | .u32 value => some (value = key.u32)
  | .tstr text =>
    if key.len = text.length then
      if ∀ index < text.length, readable (key.word + index) = true then
        some (load memory key.word text.length = text)
      else
        none
    else
      some false

-- `map_entry_get` on this memory.
def mapEntryGetReadable (key : MapKey) : List (MapEntry Values) → Option (Option (MapEntry Values))
  | [] => some none
  | entry :: entries =>
    match entry.key.compare memory readable key with
    | none => none
    | some true => some (some entry)
    | some false => mapEntryGetReadable key entries

end Comparison

/-- A key as the library decodes it. -/
inductive DecodedKey where
  | u32 (value : Nat)
  | tstr (text : ZcborString)

namespace DecodedKey

variable (memory : Memory) (readable : Nat → Bool)

def entryKey : DecodedKey → EntryKey
  | .u32 value => .u32 value
  | .tstr text => .tstr (text.bytes memory)

def put (before : MapKey) : DecodedKey → MapKey
  | .u32 value => before.putU32 value
  | .tstr text => .putTstr text

/-- The variable also holds this key of the other type: a number, as the lower half of the address of the text, or a
text, which has the length of the text before and is where its address leads with this lower half. -/
def Resembles (before : MapKey) : DecodedKey → EntryKey → Prop
  | .tstr text, .u32 value => value = text.value % 2 ^ 32
  | .u32 value, .tstr label => before.len = label.length ∧
      load memory (before.word / 2 ^ 32 * 2 ^ 32 + value) label.length = label
  | _, _ => False

/-- The text is compared with what is at an address where not all of it is memory. -/
def LeadsAstray (before : MapKey) : DecodedKey → EntryKey → Prop
  | .u32 value, .tstr label => before.len = label.length ∧
      ¬ ∀ index < label.length, readable (before.word / 2 ^ 32 * 2 ^ 32 + value + index) = true
  | _, _ => False

instance decidableResembles (before : MapKey) :
    (read : DecodedKey) → (entryKey : EntryKey) → Decidable (read.Resembles memory before entryKey)
  | .tstr _, .u32 _ => inferInstanceAs (Decidable (_ = _))
  | .u32 _, .tstr _ => inferInstanceAs (Decidable (_ ∧ _))
  | .u32 _, .u32 _ => .isFalse id
  | .tstr _, .tstr _ => .isFalse id

instance decidableLeadsAstray (before : MapKey) :
    (read : DecodedKey) → (entryKey : EntryKey) → Decidable (read.LeadsAstray readable before entryKey)
  | .u32 _, .tstr _ => inferInstanceAs (Decidable (_ ∧ _))
  | .u32 _, .u32 _ => .isFalse id
  | .tstr _, _ => .isFalse id

end DecodedKey

section Model

variable (zcbor : Zcbor) (memory : Memory) (readable : Nat → Bool) {Values : Type} (entries : List (MapEntry Values))

def decodedKey (zsd : ZcborState) : Option DecodedKey :=
  if zsd.majorType memory = 3 then (zcbor.tstrDecode memory zsd).map fun decoded => .tstr decoded.1
  else if zsd.majorType memory = 0 then (zcbor.uint32Decode memory zsd).map fun decoded => .u32 decoded.1
  else none

-- The lookups for keys that are decoded into one variable, until one of them cannot be decoded or does not return.
def keyLookups : MapKey → List ZcborState → List (Option (Option (MapEntry Values)))
  | _, [] => []
  | key, zsd :: rest =>
    match zcborMapKeyDecode zcbor memory zsd key with
    | .error _ => []
    | .ok (key, _) =>
      match mapEntryGetReadable memory readable key entries with
      | none => [none]
      | some found => some found :: keyLookups key rest

def typedLookups : List ZcborState → List (Option (MapEntry Values))
  | [] => []
  | zsd :: rest =>
    match decodedKey zcbor memory zsd with
    | none => []
    | some read => (entries.find? fun entry => entry.key = read.entryKey memory) :: typedLookups rest

-- Every entry that the key is taken for, or leads astray with, is behind one that has it.
def Distinguished (before : MapKey) (read : DecodedKey) : Prop :=
  ∀ (index : Nat) (entry : MapEntry Values), entries[index]? = some entry →
    read.Resembles memory before entry.key ∨ read.LeadsAstray readable before entry.key →
      ∃ earlier < index, ∃ other, entries[earlier]? = some other ∧ other.key = read.entryKey memory

def AllDistinguished : MapKey → List ZcborState → Prop
  | _, [] => True
  | before, zsd :: rest =>
    match decodedKey zcbor memory zsd with
    | none => True
    | some read => Distinguished memory readable entries before read ∧ AllDistinguished (read.put before) rest

def keyStates : ZcborState → List (List UInt8 × List UInt8) → List ZcborState
  | _, [] => []
  | zsd, pair :: pairs => zsd :: keyStates (zsd.pastPair pair) pairs

def ZcborState.Readable (zsd : ZcborState) : Prop :=
  ∀ address, zsd.payload ≤ address → address < zsd.payloadEnd → readable address = true

end Model

section Lookups

variable {zcbor : Zcbor} {memory : Memory} {readable : Nat → Bool} {Values : Type} {entries : List (MapEntry Values)}
  {key : MapKey}

theorem compare_text (label : List UInt8) (key : MapKey) :
    (EntryKey.tstr label).compare memory readable key ≠ some false ↔ key.len = label.length ∧
      ((∀ index < label.length, readable (key.word + index) = true) → load memory key.word label.length = label) := by
  simp only [EntryKey.compare]
  split_ifs with length there
  · rw [ne_eq, Option.some.injEq, decide_eq_false_iff_not, not_not]
    exact ⟨fun same => ⟨length, fun _ => same⟩, fun both => both.2 there⟩
  · simp [length, there]
  · simp [length]

theorem isAt_of_compare {entryKey : EntryKey} {is : Bool}
    (compared : entryKey.compare memory readable key = some is) : entryKey.isAt memory key = is := by
  cases entryKey with
  | u32 value => exact Option.some.inj compared
  | tstr text =>
    simp only [EntryKey.compare] at compared
    split_ifs at compared with length there
    · simpa [EntryKey.isAt, length] using compared
    · simpa [EntryKey.isAt, length] using compared

theorem mapEntryGet_of_readable {found : Option (MapEntry Values)}
    (lookup : mapEntryGetReadable memory readable key entries = some found) :
    mapEntryGet memory entries key = found := by
  induction entries with
  | nil => exact Option.some.inj lookup
  | cons entry entries ih =>
    simp only [mapEntryGetReadable] at lookup
    rw [mapEntryGet, List.find?_cons]
    cases compared : entry.key.compare memory readable key with
    | none => simp [compared] at lookup
    | some is =>
      rw [isAt_of_compare compared]
      cases is with
      | true => simpa [compared] using lookup
      | false => exact ih (by simpa [compared] using lookup)

theorem mapEntryGetReadable_eq_some {found : Option (MapEntry Values)} :
    mapEntryGetReadable memory readable key entries = some found ↔
      (entries.find? fun entry => entry.key.compare memory readable key ≠ some false) = found ∧
        ∀ entry ∈ found, entry.key.compare memory readable key = some true := by
  induction entries with
  | nil => cases found <;> simp [mapEntryGetReadable]
  | cons entry entries ih =>
    rw [mapEntryGetReadable, List.find?_cons]
    cases compared : entry.key.compare memory readable key with
    | none =>
      simp only [ne_eq, reduceCtorEq, not_false_eq_true, decide_true, false_iff, not_and]
      rintro rfl
      simp [compared]
    | some is =>
      cases is with
      | true =>
        simp only [Option.some.injEq, ne_eq, Bool.true_eq_false, not_false_eq_true, decide_true]
        constructor
        · rintro rfl
          simp [compared]
        · exact And.left
      | false => simpa using ih

theorem Distinguished.of_first {before : MapKey} {read : DecodedKey} {entry : MapEntry Values}
    {others : List (MapEntry Values)} (own : entry.key = read.entryKey memory) :
    Distinguished memory readable (entry :: others) before read := by
  intro index other found taken
  cases index with
  | zero =>
    obtain rfl : entry = other := Option.some.inj found
    rw [own] at taken
    cases read <;> exact absurd taken (by simp [DecodedKey.entryKey, DecodedKey.Resembles, DecodedKey.LeadsAstray])
  | succ index => exact ⟨0, Nat.succ_pos _, entry, rfl, own⟩

theorem Distinguished.of_forall {before : MapKey} {read : DecodedKey}
    (different : ∀ entry ∈ entries,
      ¬ (read.Resembles memory before entry.key ∨ read.LeadsAstray readable before entry.key)) :
    Distinguished memory readable entries before read := by
  intro index entry found taken
  exact absurd taken (different entry (List.mem_of_getElem? found))

theorem zcborMapKeyDecode_put (zcbor : Zcbor) (memory : Memory) (zsd : ZcborState) (key : MapKey) :
    match decodedKey zcbor memory zsd with
    | none => zcborMapKeyDecode zcbor memory zsd key = .error .ebadmsg
    | some read => ∃ next, zcborMapKeyDecode zcbor memory zsd key = .ok (read.put key, next) := by
  unfold decodedKey zcborMapKeyDecode
  split_ifs
  · cases zcbor.tstrDecode memory zsd with
    | none => rfl
    | some read => exact ⟨read.2, rfl⟩
  · cases zcbor.uint32Decode memory zsd with
    | none => rfl
    | some read => exact ⟨read.2, rfl⟩
  · rfl

def DecodedKey.Valid (readable : Nat → Bool) : DecodedKey → Prop
  | .u32 value => value < 2 ^ 32
  | .tstr text => ∀ index < text.len, readable (text.value + index) = true

theorem putU32_u32 (before : MapKey) {value : Nat} (bound : value < 2 ^ 32) : (before.putU32 value).u32 = value := by
  simp only [MapKey.u32, MapKey.putU32]
  omega

theorem compare_own {read : DecodedKey} (valid : read.Valid readable) (before : MapKey) :
    (read.entryKey memory).compare memory readable (read.put before) = some true := by
  cases read with
  | u32 value => simp [DecodedKey.entryKey, DecodedKey.put, EntryKey.compare, putU32_u32 before valid]
  | tstr text =>
    have there : ∀ index < text.len, readable (text.value + index) = true := valid
    simpa [DecodedKey.entryKey, DecodedKey.put, EntryKey.compare, MapKey.putTstr, ZcborString.bytes] using there

theorem compare_other {read : DecodedKey} (valid : read.Valid readable) (before : MapKey) {entryKey : EntryKey}
    (other : entryKey ≠ read.entryKey memory) :
    entryKey.compare memory readable (read.put before) ≠ some false ↔
      read.Resembles memory before entryKey ∨ read.LeadsAstray readable before entryKey := by
  cases read with
  | u32 value =>
    cases entryKey with
    | u32 wanted =>
      have different : wanted ≠ value := fun same => other (by rw [same, DecodedKey.entryKey])
      simp [EntryKey.compare, DecodedKey.put, DecodedKey.Resembles, DecodedKey.LeadsAstray, putU32_u32 before valid,
        different]
    | tstr label =>
      rw [compare_text, imp_iff_not_or, and_or_left, or_comm]
      rfl
  | tstr text =>
    cases entryKey with
    | u32 wanted =>
      simp only [EntryKey.compare, DecodedKey.put, MapKey.putTstr, MapKey.u32, DecodedKey.Resembles,
        DecodedKey.LeadsAstray, or_false, ne_eq, Option.some.injEq, Bool.not_eq_false]
      exact decide_eq_true_iff
    | tstr label =>
      rw [compare_text]
      simp only [DecodedKey.put, MapKey.putTstr, DecodedKey.Resembles, DecodedKey.LeadsAstray, or_self, iff_false]
      rintro ⟨length, same⟩
      rw [← length] at same
      exact other (by rw [DecodedKey.entryKey, ZcborString.bytes, same valid])

theorem mapEntryGetReadable_typed_iff {read : DecodedKey} (valid : read.Valid readable) (before : MapKey) :
    mapEntryGetReadable memory readable (read.put before) entries =
        some (entries.find? fun entry => entry.key = read.entryKey memory) ↔
      Distinguished memory readable entries before read := by
  have own : ∀ entry ∈ entries.find? fun entry => entry.key = read.entryKey memory,
      entry.key.compare memory readable (read.put before) = some true := by
    intro entry found
    have same := List.find?_some (Option.mem_def.mp found)
    rw [of_decide_eq_true same]
    exact compare_own valid before
  have other (entry : MapEntry Values) :
      (entry.key.compare memory readable (read.put before) ≠ some false ∧
          decide (entry.key = read.entryKey memory) = false) ↔
        read.Resembles memory before entry.key ∨ read.LeadsAstray readable before entry.key := by
    rw [decide_eq_false_iff_not]
    by_cases same : entry.key = read.entryKey memory
    · simp only [same, not_true_eq_false, and_false, false_iff]
      cases read <;> simp [DecodedKey.entryKey, DecodedKey.Resembles, DecodedKey.LeadsAstray]
    · simp only [same, not_false_eq_true, and_true]
      exact compare_other valid before same
  rw [mapEntryGetReadable_eq_some, and_iff_left own, Selection.find?_eq_iff]
  · simp only [decide_eq_true_iff, other, Distinguished]
  · intro entry _ same
    rw [of_decide_eq_true same, compare_own valid]
    rfl

theorem keyLookups_typed_iff (key : MapKey) (zsds : List ZcborState)
    (valid : ∀ zsd ∈ zsds, ∀ read, decodedKey zcbor memory zsd = some read → read.Valid readable) :
    keyLookups zcbor memory readable entries key zsds = (typedLookups zcbor memory entries zsds).map some ↔
      AllDistinguished zcbor memory readable entries key zsds := by
  induction zsds generalizing key with
  | nil => simp [keyLookups, typedLookups, AllDistinguished]
  | cons zsd rest ih =>
    rw [List.forall_mem_cons] at valid
    have decoded := zcborMapKeyDecode_put zcbor memory zsd key
    simp only [keyLookups, typedLookups, AllDistinguished]
    cases isKey : decodedKey zcbor memory zsd with
    | none =>
      simp only [isKey] at decoded
      simp [decoded]
    | some read =>
      simp only [isKey] at decoded
      obtain ⟨next, decoded⟩ := decoded
      simp only [decoded, List.map_cons]
      rw [← mapEntryGetReadable_typed_iff (valid.1 read isKey), ← ih _ valid.2]
      cases mapEntryGetReadable memory readable (read.put key) entries <;> simp

theorem marks_lookups {items : CborItems} (reads : zcbor.Reads items) (pairs : List (List UInt8 × List UInt8))
    (areItems : ∀ pair ∈ pairs, items.Item pair.1 ∧ items.Item pair.2) {zsd : ZcborState} {indefinite : Bool}
    {rest : List UInt8} (inMap : zsd.InMap memory pairs indefinite rest) (key : MapKey)
    (returns : none ∉ keyLookups zcbor memory readable entries key (keyStates zsd pairs)) :
    (marks items memory entries zsd.payload key pairs).map (some ∘ (·.taken)) =
      (keyLookups zcbor memory readable entries key (keyStates zsd pairs)).map
        (Option.map (Option.map (·.key))) := by
  induction pairs generalizing zsd key with
  | nil => rfl
  | cons pair pairs ih =>
    have isPair := areItems pair (List.mem_cons_self ..)
    have next := inMap.next isPair
    have decoded := keyDecode_item reads isPair.1 inMap.key inMap.keyElem key
    simp only [marks, keyStates, keyLookups, decoded] at returns ⊢
    cases keyRead : items.readKey zsd.payload key pair.1 with
    | none => rfl
    | some read =>
      simp only [keyRead] at returns ⊢
      cases lookup : mapEntryGetReadable memory readable read entries with
      | none => simp [lookup] at returns
      | some found =>
        simp only [lookup, List.mem_cons, reduceCtorEq, false_or] at returns
        simp only [List.map_cons, Function.comp_apply, Option.map_some, mapEntryGet_of_readable lookup]
        congr 1
        exact ih (fun other member => areItems other (List.mem_cons_of_mem _ member)) next read returns

end Lookups

/-- Every key that is decoded into the variable is looked up by its type and value if and only if, for all of them, the
entries that the key is taken for or leads astray with are behind one that has it. -/
theorem map_entry_get_typed_iff (zcbor : Zcbor) (memory : Memory) (readable : Nat → Bool) {Values : Type}
    (entries : List (MapEntry Values))
    (numbers : ∀ zsd value next, zcbor.uint32Decode memory zsd = some (value, next) → value < 2 ^ 32)
    (texts : ∀ zsd text next, zcbor.tstrDecode memory zsd = some (text, next) →
      zsd.payload ≤ text.value ∧ text.value + text.len ≤ zsd.payloadEnd)
    (key : MapKey) (zsds : List ZcborState) (payloads : ∀ zsd ∈ zsds, zsd.Readable readable) :
    keyLookups zcbor memory readable entries key zsds = (typedLookups zcbor memory entries zsds).map some ↔
      AllDistinguished zcbor memory readable entries key zsds := by
  apply keyLookups_typed_iff
  intro zsd member read isKey
  unfold decodedKey at isKey
  split_ifs at isKey
  · obtain ⟨⟨text, next⟩, decoded, rfl⟩ := Option.map_eq_some_iff.mp isKey
    obtain ⟨above, below⟩ := texts zsd text next decoded
    intro index (inside : index < text.len)
    exact payloads zsd member (text.value + index) (by omega) (by omega)
  · obtain ⟨⟨number, next⟩, decoded, rfl⟩ := Option.map_eq_some_iff.mp isKey
    exact numbers zsd number next decoded

theorem cborDecoder_uint32_lt {memory : Memory} {zsd next : ZcborState} {value : Nat}
    (decoded : cborDecoder.uint32Decode memory zsd = some (value, next)) : value < 2 ^ 32 := by
  have taken : takeItem uint32Reader memory zsd = some (value, next) := decoded
  unfold takeItem at taken
  split_ifs at taken
  obtain ⟨⟨number, behind⟩, read, same⟩ := Option.map_eq_some_iff.mp taken
  obtain rfl : number = value := (Prod.mk.inj same).1
  simp only [uint32Reader, Cbor.Reader.ofHead] at read
  cases head : Cbor.readHead (zsd.rest memory) with
  | none => simp [head] at read
  | some found =>
    simp only [head] at read
    split_ifs at read with short
    · simp only [Option.map_some, Option.some.injEq, Prod.mk.injEq] at read
      omega
    · simp at read

theorem cborDecoder_text_inside {memory : Memory} {zsd next : ZcborState} {text : ZcborString}
    (decoded : cborDecoder.tstrDecode memory zsd = some (text, next)) :
    zsd.payload ≤ text.value ∧ text.value + text.len ≤ zsd.payloadEnd := by
  obtain ⟨⟨⟨headLength, length⟩, behind⟩, taken, same⟩ := Option.map_eq_some_iff.mp decoded
  obtain ⟨rfl, rfl⟩ := Prod.mk.inj same
  unfold takeItem at taken
  split_ifs at taken
  obtain ⟨⟨_, rest⟩, read, same⟩ := Option.map_eq_some_iff.mp taken
  obtain ⟨rfl, rfl⟩ := Prod.mk.inj same
  simp only [Cbor.Reader.text] at read
  cases head : Cbor.readHead (zsd.rest memory) with
  | none => simp [head] at read
  | some found =>
    obtain ⟨major, argument, behind⟩ := found
    have takes := Cbor.readHead_takes head
    simp only [head] at read
    split_ifs at read
    · obtain ⟨⟨_, last⟩, enough, same⟩ := Option.map_eq_some_iff.mp read
      simp only [Prod.mk.injEq] at same
      simp only [Cbor.readBytes] at enough
      split_ifs at enough
      simp only [ZcborState.rest, load_length] at takes same
      change zsd.payload ≤ zsd.payload + headLength ∧ zsd.payload + headLength + length ≤ zsd.payloadEnd
      omega

section Samples

-- Where the payload lies in memory, as on a target with its RAM there.
def payloadAddress : Nat := 0x20000000

def payloadMemory (bytes : List UInt8) : Memory := fun address =>
  if address < payloadAddress then 0 else bytes[address - payloadAddress]?.getD 0

def sampleKeyStates (pairs : List (List UInt8 × List UInt8)) : List ZcborState :=
  keyStates ((zcborStateD 2 payloadAddress (1 + (pairsBytes pairs).length)).entered 1 (2 * pairs.length) false) pairs

def keyEntry (key : EntryKey) : MapEntry Unit := ⟨key, fun zsd values => (.ok zsd, values)⟩

def sampleRam (address : Nat) : Bool := payloadAddress ≤ address ∧ address < payloadAddress + 2 ^ 18

-- The number 1, "settings", and the number 1 once more.
def mixedPairs : List (List UInt8 × List UInt8) :=
  [([1], [5]), (Cbor.encodeHead 3 8 ++ settingsLabel, [5]), ([1], [5])]

def mixedMemory : Memory := payloadMemory ([0xa3] ++ pairsBytes mixedPairs)

def mixedEntries : List (MapEntry Unit) := [keyEntry (.u32 1), keyEntry (.tstr settingsLabel)]

-- "settings", and the number that is the address of this text.
def addressPairs : List (List UInt8 × List UInt8) :=
  [(Cbor.encodeHead 3 8 ++ settingsLabel, [0xa0]), ([0x1a, 0x20, 0, 0, 2], [0xa0])]

def addressCall : DataCall where
  memory := payloadMemory ([0xa2] ++ pairsBytes addressPairs)
  data := payloadAddress
  len := 1 + (pairsBytes addressPairs).length
  isLast := true
  unset _ := ⟨⟨.u32, 0, 0⟩, []⟩

end Samples

theorem mixed_keys_typed :
    (keyLookups cborDecoder mixedMemory sampleRam mixedEntries ⟨.u32, 0, 0⟩ (sampleKeyStates mixedPairs)).map
        (Option.map (Option.map (·.key))) =
          [some (some (.u32 1)), some (some (.tstr settingsLabel)), some (some (.u32 1))] ∧
      keyLookups cborDecoder mixedMemory sampleRam mixedEntries ⟨.u32, 0, 0⟩ (sampleKeyStates mixedPairs) =
        (typedLookups cborDecoder mixedMemory mixedEntries (sampleKeyStates mixedPairs)).map some := by
  refine ⟨by decide +kernel, ?_⟩
  apply (map_entry_get_typed_iff cborDecoder mixedMemory sampleRam mixedEntries (fun _ _ _ => cborDecoder_uint32_lt)
    (fun _ _ _ => cborDecoder_text_inside) ⟨.u32, 0, 0⟩ (sampleKeyStates mixedPairs) ?_).mpr
  · exact ⟨.of_first rfl, .of_forall (by decide +kernel), .of_first rfl, trivial⟩
  · intro zsd member address above below
    have inside : ∀ zsd ∈ sampleKeyStates mixedPairs, payloadAddress ≤ zsd.payload ∧
        zsd.payloadEnd ≤ payloadAddress + 2 ^ 18 := by decide +kernel
    obtain ⟨first, last⟩ := inside zsd member
    apply decide_eq_true
    omega

-- With the text in front, the number after it is read through.
example : (keyLookups cborDecoder mixedMemory sampleRam mixedEntries.reverse ⟨.u32, 0, 0⟩
    (sampleKeyStates mixedPairs)).map (Option.map (Option.map (·.key))) =
      [some (some (.u32 1)), some (some (.tstr settingsLabel)), none] := by decide +kernel

/-- After "settings" the number of its address is looked up as that text. -/
theorem address_taken_for_text :
    (keyLookups cborDecoder addressCall.memory sampleRam (settingsEntries cborDecoder [] addressCall)
        (addressCall.unset 0).key (sampleKeyStates addressPairs)).map (Option.map (Option.map (·.key))) =
          [some (some (.tstr settingsLabel)), some (some (.tstr settingsLabel))] ∧
      (typedLookups cborDecoder addressCall.memory (settingsEntries cborDecoder [] addressCall)
        (sampleKeyStates addressPairs)).map (Option.map (·.key)) = [some (.tstr settingsLabel), none] ∧
      keyLookups cborDecoder addressCall.memory sampleRam (settingsEntries cborDecoder [] addressCall)
          (addressCall.unset 0).key (sampleKeyStates addressPairs) ≠
        (typedLookups cborDecoder addressCall.memory (settingsEntries cborDecoder [] addressCall)
          (sampleKeyStates addressPairs)).map some := by
  have found : (keyLookups cborDecoder addressCall.memory sampleRam (settingsEntries cborDecoder [] addressCall)
      (addressCall.unset 0).key (sampleKeyStates addressPairs)).map (Option.map (Option.map (·.key))) =
        [some (some (.tstr settingsLabel)), some (some (.tstr settingsLabel))] := by decide +kernel
  have expected : (typedLookups cborDecoder addressCall.memory (settingsEntries cborDecoder [] addressCall)
      (sampleKeyStates addressPairs)).map (Option.map (·.key)) = [some (.tstr settingsLabel), none] := by decide +kernel
  refine ⟨found, expected, ?_⟩
  intro same
  have both : Option.map (Option.map fun entry : MapEntry SettingsEffects => entry.key) ∘ some =
      some ∘ Option.map (·.key) := rfl
  rw [same, List.map_map, both, ← List.map_map, expected] at found
  simp at found

end Pouch
