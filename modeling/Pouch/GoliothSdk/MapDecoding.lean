import Pouch.GoliothSdk.Zcbor

set_option autoImplicit false

namespace Pouch

open ByteMemory

theorem beginning_cases {part more first second : List UInt8} (split : part ++ more = first ++ second)
    (missing : more ≠ []) :
    (∃ others, part ++ others = first ∧ others ≠ []) ∨
      ∃ behind, part = first ++ behind ∧ behind ++ more = second := by
  rcases List.append_eq_append_iff.mp split with ⟨others, same, rfl⟩ | ⟨behind, same, rest⟩
  · cases others with
    | nil => exact .inr ⟨[], by simpa using same.symm, rfl⟩
    | cons byte others => exact .inl ⟨byte :: others, same.symm, by simp⟩
  · exact .inr ⟨behind, same, rest.symm⟩

theorem cut_byte {part more whole : List UInt8} (byte : whole.length = 1) (split : part ++ more = whole)
    (missing : more ≠ []) : part = [] := by
  have length := congrArg List.length split
  have some' := List.length_pos_iff.mpr missing
  rw [List.length_append, byte] at length
  exact List.length_eq_zero_iff.mp (by omega)

section Maps

variable (zcbor : Zcbor) (memory : Memory) {Values : Type} (entries : List (MapEntry Values))

def textItem (text : List UInt8) : List UInt8 := Cbor.encodeHead 3 text.length ++ text

def valueDecode (key : MapKey) (zsd : ZcborState) (values : Values) : Except DecodeError ZcborState × Values :=
  match mapEntryGet memory entries key with
  | some entry => entry.decode zsd values
  | none =>
    match zcbor.anySkip memory zsd with
    | none => (.error .ebadmsg, values)
    | some zsd => (.ok zsd, values)

/-- The value of a key with this text is decoded with this effect, and without any if its end is missing. -/
structure Handles (text item : List UInt8) (known : Bool) (effect : Values → Values) : Prop where
  entry : ∀ read : ZcborString, read.bytes memory = text →
    (mapEntryGet memory entries (.putTstr read)).isSome = known
  whole : ∀ (read : ZcborString) (zsd : ZcborState) (rest : List UInt8) (count : Nat) (values : Values),
    read.bytes memory = text → zsd.At memory (item ++ rest) (count + 1) → 0 < zsd.backups →
      ∃ next, valueDecode zcbor memory entries (.putTstr read) zsd values = (.ok next, effect values) ∧
        next.At memory rest count ∧ next.backups = zsd.backups
  cut : ∀ (read : ZcborString) (zsd : ZcborState) (part more : List UInt8) (count : Nat) (values : Values),
    read.bytes memory = text → part ++ more = item → more ≠ [] → zsd.At memory part count →
      ∃ err, valueDecode zcbor memory entries (.putTstr read) zsd values = (.error err, values)

variable {zcbor memory entries} {text item rest : List UInt8} {count : Nat}

theorem valueDecode_entry {key : MapKey} {entry : MapEntry Values} (found : mapEntryGet memory entries key = some entry)
    (zsd : ZcborState) (values : Values) :
    valueDecode zcbor memory entries key zsd values = entry.decode zsd values := by
  simp only [valueDecode, found]

theorem mapDecodeLoop_succ (fuel numDecoded : Nat) (zsd : ZcborState) (key : MapKey) (values : Values) :
    mapDecodeLoop zcbor memory entries (fuel + 1) numDecoded zsd key values =
      if numDecoded < entries.length ∧ zcborListOrMapEnd memory zsd = false then
        match zcborMapKeyDecode zcbor memory zsd key with
        | .error err => (.error err, values)
        | .ok (key, zsd) =>
          match valueDecode zcbor memory entries key zsd values with
          | (.error err, values) => (.error err, values)
          | (.ok zsd, values) =>
            let found := if (mapEntryGet memory entries key).isSome then 1 else 0
            mapDecodeLoop zcbor memory entries fuel (numDecoded + found) zsd key values
      else
        (.ok (numDecoded, zsd), values) := by
  rw [mapDecodeLoop]
  split_ifs with more
  · cases zcborMapKeyDecode zcbor memory zsd key with
    | error err => rfl
    | ok decoded =>
      obtain ⟨key, zsd⟩ := decoded
      simp only [valueDecode]
      cases mapEntryGet memory entries key with
      | some entry => rfl
      | none =>
        cases zcbor.anySkip memory zsd with
        | none => rfl
        | some zsd => rfl
  · rfl

theorem isAt_putTstr (label : List UInt8) (read : ZcborString) :
    (EntryKey.tstr label).isAt memory (.putTstr read) = decide (read.bytes memory = label) := by
  apply decide_eq_decide.mpr
  simp only [MapKey.putTstr, ZcborString.bytes]
  constructor
  · rintro ⟨length, text⟩
    rw [length, text]
  · intro text
    have length := congrArg List.length text
    rw [load_length] at length
    exact ⟨length, by rw [← length, text]⟩

theorem textItem_major (text : List UInt8) :
    ∃ first tail, textItem text = first :: tail ∧ first.toNat / 32 = 3 := by
  obtain ⟨first, tail, head, major⟩ := Cbor.encodeHead_major 3 text.length (by decide)
  exact ⟨first, tail ++ text, by simp [textItem, head], major⟩

theorem keyDecode_text (lawful : zcbor.Lawful) (short : text.length < 2 ^ 32) (zsd : ZcborState) (key : MapKey)
    (at' : zsd.At memory (textItem text ++ rest) (count + 1)) :
    ∃ read next, zcborMapKeyDecode zcbor memory zsd key = .ok (.putTstr read, next) ∧
      read.bytes memory = text ∧ next.At memory rest count ∧ next.backups = zsd.backups := by
  obtain ⟨read, next, decoded, bytes, behind, _, backups⟩ :=
    (lawful.tstr text short).whole memory zsd rest count at'
  obtain ⟨first, tail, item, major⟩ := textItem_major text
  rw [item, List.cons_append] at at'
  refine ⟨read, next, ?_, bytes, behind, backups⟩
  simp only [zcborMapKeyDecode, at'.majorType, major, if_true, decoded]

theorem keyDecode_cut (lawful : zcbor.Lawful) (short : text.length < 2 ^ 32) (zsd : ZcborState) (key : MapKey)
    {part more : List UInt8} (split : part ++ more = textItem text) (missing : more ≠ [])
    (at' : zsd.At memory part count) : ∃ err, zcborMapKeyDecode zcbor memory zsd key = .error err := by
  have noText := (lawful.tstr text short).cut memory zsd part more count split missing at'
  unfold zcborMapKeyDecode
  split_ifs with isText isNumber
  · exact ⟨_, by rw [noText]⟩
  · -- Only an empty payload may look like anything.
    cases part with
    | nil =>
      have noNumber := (lawful.uint32 0 (by decide)).cut memory zsd [] _ count rfl (by decide) at'
      exact ⟨_, by rw [noNumber]⟩
    | cons byte part =>
      obtain ⟨first, tail, item, major⟩ := textItem_major text
      rw [item, List.cons_append, List.cons.injEq] at split
      rw [at'.majorType, split.1, major] at isNumber
      exact absurd isNumber (by decide)
  · exact ⟨_, rfl⟩

theorem mapDecodeLoop_pair (lawful : zcbor.Lawful) (short : text.length < 2 ^ 32) {known : Bool}
    {effect : Values → Values} (handles : Handles zcbor memory entries text item known effect)
    (fuel numDecoded : Nat) (zsd : ZcborState) (key : MapKey) (values : Values)
    (wanted : numDecoded < entries.length) (backups : 0 < zsd.backups)
    (at' : zsd.At memory (textItem text ++ (item ++ rest)) (count + 2)) :
    ∃ next nextKey, mapDecodeLoop zcbor memory entries (fuel + 1) numDecoded zsd key values =
        mapDecodeLoop zcbor memory entries fuel (numDecoded + if known then 1 else 0) next nextKey
          (effect values) ∧
      next.At memory rest count ∧ next.backups = zsd.backups := by
  obtain ⟨read, inside, decoded, bytes, atValue, same⟩ := keyDecode_text lawful short zsd key at'
  obtain ⟨next, handled, behind, same'⟩ :=
    handles.whole read inside rest count values bytes atValue (by omega)
  refine ⟨next, .putTstr read, ?_, behind, by omega⟩
  have more : numDecoded < entries.length ∧ zcborListOrMapEnd memory zsd = false :=
    ⟨wanted, by rw [at'.listOrMapEnd]; simp⟩
  rw [mapDecodeLoop_succ, if_pos more, decoded]
  simp only [handled, handles.entry read bytes]

def Idle (zcbor : Zcbor) (memory : Memory) (entries : List (MapEntry Values)) (payload : List UInt8)
    (count : Nat) : Prop :=
  ∀ (fuel numDecoded : Nat) (zsd : ZcborState) (key : MapKey) (values : Values), zsd.At memory payload count →
    0 < zsd.backups → (mapDecodeLoop zcbor memory entries fuel numDecoded zsd key values).2 = values

def CutIdle (zcbor : Zcbor) (memory : Memory) (entries : List (MapEntry Values)) (payload : List UInt8)
    (count : Nat) : Prop :=
  ∀ part more, part ++ more = payload → more ≠ [] → Idle zcbor memory entries part count

theorem idle_key (lawful : zcbor.Lawful) (short : text.length < 2 ^ 32) {part more : List UInt8}
    (split : part ++ more = textItem text) (missing : more ≠ []) : Idle zcbor memory entries part count := by
  intro fuel numDecoded zsd key values at' _
  cases fuel with
  | zero => rfl
  | succ fuel =>
    obtain ⟨err, failed⟩ := keyDecode_cut lawful short zsd key split missing at'
    rw [mapDecodeLoop_succ, failed]
    split_ifs <;> rfl

theorem idle_value (lawful : zcbor.Lawful) (short : text.length < 2 ^ 32) {known : Bool}
    {effect : Values → Values} (handles : Handles zcbor memory entries text item known effect)
    {part more : List UInt8} (split : part ++ more = item) (missing : more ≠ []) :
    Idle zcbor memory entries (textItem text ++ part) (count + 1) := by
  intro fuel numDecoded zsd key values at' _
  cases fuel with
  | zero => rfl
  | succ fuel =>
    obtain ⟨read, inside, decoded, bytes, atValue, _⟩ := keyDecode_text lawful short zsd key at'
    obtain ⟨err, failed⟩ := handles.cut read inside part more count values bytes split missing atValue
    rw [mapDecodeLoop_succ, decoded]
    simp only [failed]
    split_ifs <;> rfl

theorem idle_pair (lawful : zcbor.Lawful) (short : text.length < 2 ^ 32) {known : Bool}
    (handles : Handles zcbor memory entries text item known id) (idle : Idle zcbor memory entries rest count) :
    Idle zcbor memory entries (textItem text ++ (item ++ rest)) (count + 2) := by
  intro fuel numDecoded zsd key values at' backups
  cases fuel with
  | zero => rfl
  | succ fuel =>
    by_cases wanted : numDecoded < entries.length
    next =>
      obtain ⟨next, nextKey, loop, behind, same⟩ :=
        mapDecodeLoop_pair lawful short handles fuel numDecoded zsd key values wanted backups at'
      rw [loop]
      exact idle fuel _ next nextKey values behind (by omega)
    next => rw [mapDecodeLoop_succ, if_neg (by simp [wanted])]

theorem cutIdle_last (lawful : zcbor.Lawful) (short : text.length < 2 ^ 32) {known : Bool}
    {effect : Values → Values} (handles : Handles zcbor memory entries text item known effect) :
    CutIdle zcbor memory entries (textItem text ++ item) (count + 1) := by
  intro part more split missing
  rcases beginning_cases split missing with ⟨others, inKey, missing⟩ | ⟨behind, rfl, inValue⟩
  · exact idle_key lawful short inKey missing
  · exact idle_value lawful short handles inValue missing

theorem cutIdle_pair (lawful : zcbor.Lawful) (short : text.length < 2 ^ 32) {known : Bool}
    (handles : Handles zcbor memory entries text item known id) (idle : CutIdle zcbor memory entries rest count) :
    CutIdle zcbor memory entries (textItem text ++ (item ++ rest)) (count + 2) := by
  intro part more split missing
  rcases beginning_cases split missing with ⟨others, inKey, missing'⟩ | ⟨behind, rfl, inValue⟩
  · exact idle_key lawful short inKey missing'
  · rcases beginning_cases inValue missing with ⟨others, inItem, missing'⟩ | ⟨later, rfl, inRest⟩
    · exact idle_value lawful short handles inItem missing'
    · exact idle_pair lawful short handles (idle later more inRest missing)

theorem Zcbor.Lawful.startMap (lawful : zcbor.Lawful) {call : DataCall} (backups items : Nat) (few : items < 2 ^ 16)
    (bytes : call.bytes = Cbor.encodeHead 5 items ++ rest) :
    ∃ zsd, zcbor.mapStartDecode call.memory (zcborStateD (backups + 1) call.data call.len) = some zsd ∧
      zsd.At call.memory rest (2 * items) ∧ zsd.backups = backups := by
  have start : (zcborStateD (backups + 1) call.data call.len).At call.memory call.bytes 1 :=
    .start (backups + 1) call.data call.len
  rw [bytes] at start
  obtain ⟨zsd, entered, inside, _, used⟩ :=
    lawful.mapStart.enters call.memory _ rest items 0 few start (by simp [zcborStateD])
  exact ⟨zsd, entered, inside, Nat.succ.inj used⟩

theorem Zcbor.Lawful.startOther (lawful : zcbor.Lawful) {call : DataCall} (backups : Nat)
    (other : ∀ first ∈ call.bytes.head?, first.toNat / 32 ≠ 5) :
    zcbor.mapStartDecode call.memory (zcborStateD backups call.data call.len) = none := by
  have start : (zcborStateD backups call.data call.len).At call.memory call.bytes 1 := .start backups call.data call.len
  exact lawful.mapStart.other call.memory _ _ _ start other

theorem zcborMapDecode_values (fuel : Nat) (key : MapKey) (zsd : ZcborState) (values : Values) :
    (zcborMapDecode zcbor memory entries fuel key zsd values).2 =
      match zcbor.mapStartDecode memory zsd with
      | none => values
      | some zsd => (mapDecodeLoop zcbor memory entries fuel 0 zsd key values).2 := by
  unfold zcborMapDecode
  cases zcbor.mapStartDecode memory zsd with
  | none => rfl
  | some inside =>
    simp only
    generalize mapDecodeLoop zcbor memory entries fuel 0 inside key values = loop
    obtain ⟨status, values⟩ := loop
    cases status with
    | error err => rfl
    | ok decoded =>
      simp only
      split_ifs
      · rfl
      all_goals cases zcbor.listMapEndForceDecode memory decoded.2 <;> rfl

end Maps

end Pouch
