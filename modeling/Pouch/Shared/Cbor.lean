import Mathlib.Tactic.Ring
import Mathlib.Tactic.SplitIfs

set_option autoImplicit false

/-!
# Canonical CBOR

Unsigned integers, byte and text strings and arrays of definite length (RFC 8949), each with the
shortest head that its argument fits. The decoder takes no other heads.
-/

namespace Cbor

inductive Item where
  | uint (value : Nat)
  | bytes (value : List UInt8)
  | text (value : List UInt8)
  | array (items : List Item)

-- The big-endian bytes of a number; higher ones are cut off.
def wordBytes : Nat → Nat → List UInt8
  | 0, _ => []
  | count + 1, value => UInt8.ofNat (value / 256 ^ count) :: wordBytes count value

def wordValue (bytes : List UInt8) : Nat := bytes.foldl (fun value byte => value * 256 + byte.toNat) 0

def encodeHead (major argument : Nat) : List UInt8 :=
  if argument < 24 then
    [UInt8.ofNat (major * 32 + argument)]
  else if argument < 2 ^ 8 then
    UInt8.ofNat (major * 32 + 24) :: wordBytes 1 argument
  else if argument < 2 ^ 16 then
    UInt8.ofNat (major * 32 + 25) :: wordBytes 2 argument
  else if argument < 2 ^ 32 then
    UInt8.ofNat (major * 32 + 26) :: wordBytes 4 argument
  else
    UInt8.ofNat (major * 32 + 27) :: wordBytes 8 argument

mutual

def encode : Item → List UInt8
  | .uint value => encodeHead 0 value
  | .bytes value => encodeHead 2 value.length ++ value
  | .text value => encodeHead 3 value.length ++ value
  | .array items => encodeHead 4 items.length ++ encodeAll items

def encodeAll : List Item → List UInt8
  | [] => []
  | item :: rest => encode item ++ encodeAll rest

end

def readBytes (count : Nat) (raw : List UInt8) : Option (List UInt8 × List UInt8) :=
  if count ≤ raw.length then some (raw.take count, raw.drop count) else none

-- The number of bytes behind the first one of a head; the other codes are for indefinite lengths, or
-- reserved.
def argumentWidth (code : Nat) : Option Nat :=
  if code < 24 then some 0
  else if code = 24 then some 1
  else if code = 25 then some 2
  else if code = 26 then some 4
  else if code = 27 then some 8
  else none

def readHead : List UInt8 → Option (Nat × Nat × List UInt8)
  | [] => none
  | first :: raw =>
    let code := first.toNat % 32
    match argumentWidth code with
    | none => none
    | some 0 => some (first.toNat / 32, code, raw)
    | some width => (readBytes width raw).map fun read => (first.toNat / 32, wordValue read.1, read.2)

-- The head is the one that the encoder gives its argument.
def readShortHead (raw : List UInt8) : Option (Nat × Nat × List UInt8) :=
  (readHead raw).filter fun head => encodeHead head.1 head.2.1 ++ head.2.2 = raw

def readMany (read : List UInt8 → Option (Item × List UInt8)) :
    Nat → List UInt8 → Option (List Item × List UInt8)
  | 0, raw => some ([], raw)
  | count + 1, raw =>
    match read raw with
    | none => none
    | some (item, raw) => (readMany read count raw).map fun read => (item :: read.1, read.2)

def decodeDepth : Nat → List UInt8 → Option (Item × List UInt8)
  | 0, _ => none
  | depth + 1, raw =>
    match readShortHead raw with
    | none => none
    | some (major, argument, raw) =>
      if major = 0 then some (.uint argument, raw)
      else if major = 2 then (readBytes argument raw).map fun read => (.bytes read.1, read.2)
      else if major = 3 then (readBytes argument raw).map fun read => (.text read.1, read.2)
      else if major = 4 then (readMany (decodeDepth depth) argument raw).map fun read => (.array read.1, read.2)
      else none

-- The item at the start of the bytes, and what is behind it. Every level has a byte of its own.
def decode (raw : List UInt8) : Option (Item × List UInt8) := decodeDepth raw.length raw

section Heads

@[simp] theorem wordBytes_length (count value : Nat) : (wordBytes count value).length = count := by
  induction count with
  | zero => rfl
  | succ count ih => simp [wordBytes, ih]

theorem encodeHead_length (major argument : Nat) :
    (encodeHead major argument).length =
      if argument < 24 then 1
      else if argument < 2 ^ 8 then 2
      else if argument < 2 ^ 16 then 3
      else if argument < 2 ^ 32 then 5
      else 9 := by
  unfold encodeHead
  split_ifs <;> simp

theorem encodeHead_length_small (major argument : Nat) (small : argument < 24) :
    (encodeHead major argument).length = 1 := by
  rw [encodeHead_length, if_pos small]

theorem encodeHead_length_pos (major argument : Nat) : 0 < (encodeHead major argument).length := by
  rw [encodeHead_length]
  split_ifs <;> omega

theorem encodeHead_major (major argument : Nat) (bound : major < 8) :
    ∃ first tail, encodeHead major argument = first :: tail ∧ first.toNat / 32 = major := by
  have first (code : Nat) (small : code < 32) : (UInt8.ofNat (major * 32 + code)).toNat / 32 = major := by
    rw [UInt8.toNat_ofNat']
    omega
  unfold encodeHead
  split_ifs
  · exact ⟨_, _, rfl, first argument (by omega)⟩
  · exact ⟨_, _, rfl, first 24 (by omega)⟩
  · exact ⟨_, _, rfl, first 25 (by omega)⟩
  · exact ⟨_, _, rfl, first 26 (by omega)⟩
  · exact ⟨_, _, rfl, first 27 (by omega)⟩

theorem wordValue_wordBytes (count value : Nat) (fits : value < 256 ^ count) :
    wordValue (wordBytes count value) = value := by
  have folded (start : Nat) : (wordBytes count value).foldl (fun value byte => value * 256 + byte.toNat) start =
      start * 256 ^ count + value % 256 ^ count := by
    clear fits
    induction count generalizing start with
    | zero => simp [wordBytes, Nat.mod_one]
    | succ count ih =>
      have split : value % 256 ^ (count + 1) = value % 256 ^ count + 256 ^ count * (value / 256 ^ count % 256) :=
        Nat.mod_pow_succ
      have byte : (UInt8.ofNat (value / 256 ^ count)).toNat = value / 256 ^ count % 256 := UInt8.toNat_ofNat'
      rw [wordBytes, List.foldl_cons, ih, byte, split]
      ring
  rw [wordValue, folded, Nat.mod_eq_of_lt fits]
  omega

theorem readBytes_append (bytes rest : List UInt8) :
    readBytes bytes.length (bytes ++ rest) = some (bytes, rest) := by
  simp [readBytes]

theorem readHead_encodeHead (major argument : Nat) (rest : List UInt8) (majorBound : major < 8)
    (fits : argument < 2 ^ 64) :
    readHead (encodeHead major argument ++ rest) = some (major, argument, rest) := by
  have wide (code width : Nat) (codes : code < 32) (isWidth : argumentWidth code = some (width + 1))
      (holds : argument < 256 ^ (width + 1)) :
      readHead (UInt8.ofNat (major * 32 + code) :: wordBytes (width + 1) argument ++ rest) =
        some (major, argument, rest) := by
    have first : (UInt8.ofNat (major * 32 + code)).toNat = major * 32 + code := by
      rw [UInt8.toNat_ofNat']
      omega
    have isCode : (major * 32 + code) % 32 = code := by omega
    have isMajor : (major * 32 + code) / 32 = major := by omega
    have read := readBytes_append (wordBytes (width + 1) argument) rest
    rw [wordBytes_length] at read
    simp only [List.cons_append, readHead, first, isCode, isMajor, isWidth, read, Option.map_some,
      wordValue_wordBytes _ _ holds]
  unfold encodeHead
  split_ifs with small byte half word
  · have first : (UInt8.ofNat (major * 32 + argument)).toNat = major * 32 + argument := by
      rw [UInt8.toNat_ofNat']
      omega
    have isCode : (major * 32 + argument) % 32 = argument := by omega
    have isMajor : (major * 32 + argument) / 32 = major := by omega
    simp only [List.cons_append, List.nil_append, readHead, first, isCode, isMajor, argumentWidth, small, if_true]
  · exact wide 24 0 (by omega) rfl (by simpa using byte)
  · exact wide 25 1 (by omega) rfl (by simpa using half)
  · exact wide 26 3 (by omega) rfl (by simpa using word)
  · exact wide 27 7 (by omega) rfl (by simpa using fits)

theorem readShortHead_encodeHead (major argument : Nat) (rest : List UInt8) (majorBound : major < 8)
    (fits : argument < 2 ^ 64) :
    readShortHead (encodeHead major argument ++ rest) = some (major, argument, rest) := by
  simp [readShortHead, readHead_encodeHead major argument rest majorBound fits]

theorem readShortHead_eq_some {raw rest : List UInt8} {major argument : Nat} :
    readShortHead raw = some (major, argument, rest) ↔
      readHead raw = some (major, argument, rest) ∧ encodeHead major argument ++ rest = raw := by
  simp [readShortHead, Option.filter_eq_some_iff]

end Heads

section Items

mutual

def Item.Encodable : Item → Prop
  | .uint value => value < 2 ^ 64
  | .bytes value => value.length < 2 ^ 64
  | .text value => value.length < 2 ^ 64
  | .array items => items.length < 2 ^ 64 ∧ AllEncodable items

def AllEncodable : List Item → Prop
  | [] => True
  | item :: rest => item.Encodable ∧ AllEncodable rest

end

mutual

def Item.height : Item → Nat
  | .uint _ => 1
  | .bytes _ => 1
  | .text _ => 1
  | .array items => heights items + 1

def heights : List Item → Nat
  | [] => 0
  | item :: rest => max item.height (heights rest)

end

mutual

theorem height_le_length : (item : Item) → item.height ≤ (encode item).length
  | .uint value => encodeHead_length_pos 0 value
  | .bytes value => by
    have head := encodeHead_length_pos 2 value.length
    simp only [Item.height, encode, List.length_append]
    omega
  | .text value => by
    have head := encodeHead_length_pos 3 value.length
    simp only [Item.height, encode, List.length_append]
    omega
  | .array items => by
    have head := encodeHead_length_pos 4 items.length
    have inner := heights_le_length items
    simp only [Item.height, encode, List.length_append]
    omega

theorem heights_le_length : (items : List Item) → heights items ≤ (encodeAll items).length
  | [] => Nat.zero_le _
  | item :: rest => by
    have first := height_le_length item
    have others := heights_le_length rest
    simp only [heights, encodeAll, List.length_append]
    omega

end

mutual

theorem decodeDepth_encode : (item : Item) → (depth : Nat) → (rest : List UInt8) → item.Encodable →
    item.height ≤ depth → decodeDepth depth (encode item ++ rest) = some (item, rest)
  | .uint value, depth + 1, rest, fits, _ => by
    simp [decodeDepth, encode, readShortHead_encodeHead 0 value rest (by omega) fits]
  | .bytes value, depth + 1, rest, fits, _ => by
    simp [decodeDepth, encode, readShortHead_encodeHead 2 _ _ (by omega) fits, readBytes_append]
  | .text value, depth + 1, rest, fits, _ => by
    simp [decodeDepth, encode, readShortHead_encodeHead 3 _ _ (by omega) fits, readBytes_append]
  | .array items, depth + 1, rest, fits, deep => by
    have inner := readMany_encodeAll items depth rest fits.2 (Nat.le_of_succ_le_succ deep)
    simp [decodeDepth, encode, readShortHead_encodeHead 4 _ _ (by omega) fits.1, inner]

theorem readMany_encodeAll : (items : List Item) → (depth : Nat) → (rest : List UInt8) → AllEncodable items →
    heights items ≤ depth → readMany (decodeDepth depth) items.length (encodeAll items ++ rest) = some (items, rest)
  | [], _, _, _, _ => rfl
  | item :: others, depth, rest, fits, deep => by
    simp only [heights, Nat.max_le] at deep
    have first := decodeDepth_encode item depth (encodeAll others ++ rest) fits.1 deep.1
    have later := readMany_encodeAll others depth rest fits.2 deep.2
    simp [encodeAll, readMany, first, later]

end

theorem decode_encode (item : Item) (rest : List UInt8) (fits : item.Encodable) :
    decode (encode item ++ rest) = some (item, rest) := by
  apply decodeDepth_encode item _ rest fits
  have height := height_le_length item
  simp only [List.length_append]
  omega

end Items

section WellFormed

def skipMany (skipOne : List UInt8 → Option (List UInt8)) : Nat → List UInt8 → Option (List UInt8)
  | 0, raw => some raw
  | count + 1, raw => (skipOne raw).bind (skipMany skipOne count)

def skipDepth (readHead : List UInt8 → Option (Nat × Nat × List UInt8)) : Nat → List UInt8 → Option (List UInt8)
  | 0, _ => none
  | depth + 1, raw =>
    match readHead raw with
    | none => none
    | some (major, argument, raw) =>
      if major = 2 ∨ major = 3 then (readBytes argument raw).map Prod.snd
      else if major = 4 then skipMany (skipDepth readHead depth) argument raw
      else if major = 5 then skipMany (skipDepth readHead depth) (2 * argument) raw
      else if major = 6 then skipDepth readHead depth raw
      else some raw

def skip (raw : List UInt8) : Option (List UInt8) := skipDepth readHead raw.length raw

def WellFormed (raw : List UInt8) : Prop := skip raw = some []

instance (raw : List UInt8) : Decidable (WellFormed raw) := inferInstanceAs (Decidable (skip raw = some []))

-- Tags are numbers of 32 bits.
def readCanonicalHead (raw : List UInt8) : Option (Nat × Nat × List UInt8) :=
  (readShortHead raw).filter fun head => head.1 = 6 → head.2.1 < 2 ^ 32

def Canonical (raw : List UInt8) : Prop := skipDepth readCanonicalHead raw.length raw = some []

instance (raw : List UInt8) : Decidable (Canonical raw) :=
  inferInstanceAs (Decidable (skipDepth readCanonicalHead raw.length raw = some []))

variable {raw rest : List UInt8}

theorem readBytes_extend {count : Nat} {bytes : List UInt8} (read : readBytes count raw = some (bytes, rest))
    (more : List UInt8) : readBytes count (raw ++ more) = some (bytes, rest ++ more) := by
  unfold readBytes at read ⊢
  split_ifs at read with enough
  simp only [Option.some.injEq, Prod.mk.injEq] at read
  rw [if_pos (by rw [List.length_append]; omega), List.take_append_of_le_length enough,
    List.drop_append_of_le_length enough, read.1, read.2]

theorem readBytes_takes {count : Nat} {bytes : List UInt8} (read : readBytes count raw = some (bytes, rest)) :
    rest.length ≤ raw.length := by
  unfold readBytes at read
  split_ifs at read
  simp only [Option.some.injEq, Prod.mk.injEq] at read
  rw [← read.2, List.length_drop]
  omega

theorem readHead_takes {major argument : Nat} (read : readHead raw = some (major, argument, rest)) :
    rest.length < raw.length := by
  cases raw with
  | nil => simp [readHead] at read
  | cons first raw =>
    simp only [readHead] at read
    rw [List.length_cons]
    split at read
    · simp at read
    · simp only [Option.some.injEq, Prod.mk.injEq] at read
      rw [read.2.2]
      exact Nat.lt_succ_self _
    · simp only [Option.map_eq_some_iff, Prod.exists, Prod.mk.injEq] at read
      obtain ⟨bytes, behind, enough, _, _, rfl⟩ := read
      exact Nat.lt_succ_of_le (readBytes_takes enough)

theorem readHead_major {major argument : Nat} (read : readHead raw = some (major, argument, rest)) :
    ∃ first ∈ raw.head?, major = first.toNat / 32 := by
  cases raw with
  | nil => simp [readHead] at read
  | cons first raw =>
    refine ⟨first, rfl, ?_⟩
    simp only [readHead] at read
    split at read
    · simp at read
    · exact (Prod.mk.inj (Option.some.inj read)).1.symm
    · obtain ⟨_, _, same⟩ := Option.map_eq_some_iff.mp read
      exact (Prod.mk.inj same).1.symm

theorem readHead_extend {major argument : Nat} (read : readHead raw = some (major, argument, rest))
    (more : List UInt8) : readHead (raw ++ more) = some (major, argument, rest ++ more) := by
  cases raw with
  | nil => simp [readHead] at read
  | cons first raw =>
    simp only [readHead, List.cons_append] at read ⊢
    cases width : argumentWidth (first.toNat % 32) with
    | none => simp [width] at read
    | some width' =>
      cases width' with
      | zero =>
        simp only [width, Option.some.injEq, Prod.mk.injEq] at read ⊢
        exact ⟨read.1, read.2.1, by rw [read.2.2]⟩
      | succ count =>
        simp only [width, Option.map_eq_some_iff, Prod.exists, Prod.mk.injEq] at read ⊢
        obtain ⟨bytes, behind, enough, rfl, rfl, rfl⟩ := read
        exact ⟨bytes, behind ++ more, readBytes_extend enough more, rfl, rfl, rfl⟩

theorem skipMany_extend {skipOne : List UInt8 → Option (List UInt8)} {more : List UInt8}
    (extend : ∀ {raw rest : List UInt8}, skipOne raw = some rest → skipOne (raw ++ more) = some (rest ++ more))
    (count : Nat) (skipped : skipMany skipOne count raw = some rest) :
    skipMany skipOne count (raw ++ more) = some (rest ++ more) := by
  induction count generalizing raw with
  | zero =>
    obtain rfl := Option.some.inj skipped
    rfl
  | succ count ih =>
    obtain ⟨behind, first, others⟩ := Option.bind_eq_some_iff.mp skipped
    simp only [skipMany, extend first, Option.bind_some, ih others]

theorem skipDepth_extend (depth : Nat) (skipped : skipDepth readHead depth raw = some rest) (more : List UInt8) :
    skipDepth readHead depth (raw ++ more) = some (rest ++ more) := by
  induction depth generalizing raw rest with
  | zero => simp [skipDepth] at skipped
  | succ depth ih =>
    simp only [skipDepth] at skipped ⊢
    cases head : readHead raw with
    | none => simp [head] at skipped
    | some read =>
      obtain ⟨major, argument, behind⟩ := read
      simp only [head, readHead_extend head more] at skipped ⊢
      split_ifs at skipped ⊢
      · simp only [Option.map_eq_some_iff, Prod.exists, exists_eq_right] at skipped ⊢
        obtain ⟨bytes, enough⟩ := skipped
        exact ⟨bytes, readBytes_extend enough more⟩
      · exact skipMany_extend (fun found => ih found) argument skipped
      · exact skipMany_extend (fun found => ih found) (2 * argument) skipped
      · exact ih skipped
      · obtain rfl := Option.some.inj skipped
        rfl

theorem skipMany_takes {skipOne : List UInt8 → Option (List UInt8)}
    (takes : ∀ {raw rest : List UInt8}, skipOne raw = some rest → rest.length < raw.length) (count : Nat)
    (skipped : skipMany skipOne count raw = some rest) : rest.length ≤ raw.length := by
  induction count generalizing raw with
  | zero =>
    obtain rfl := Option.some.inj skipped
    exact Nat.le_refl _
  | succ count ih =>
    obtain ⟨behind, first, others⟩ := Option.bind_eq_some_iff.mp skipped
    have one := takes first
    have many := ih others
    omega

theorem skipDepth_takes (depth : Nat) (skipped : skipDepth readHead depth raw = some rest) :
    rest.length < raw.length := by
  induction depth generalizing raw rest with
  | zero => simp [skipDepth] at skipped
  | succ depth ih =>
    simp only [skipDepth] at skipped
    cases head : readHead raw with
    | none => simp [head] at skipped
    | some read =>
      obtain ⟨major, argument, behind⟩ := read
      have shorter := readHead_takes head
      simp only [head] at skipped
      split_ifs at skipped
      · simp only [Option.map_eq_some_iff, Prod.exists, exists_eq_right] at skipped
        obtain ⟨bytes, enough⟩ := skipped
        have content := readBytes_takes enough
        omega
      · have items := skipMany_takes (fun found => ih found) argument skipped
        omega
      · have items := skipMany_takes (fun found => ih found) (2 * argument) skipped
        omega
      · have item := ih skipped
        omega
      · obtain rfl := Option.some.inj skipped
        exact shorter

theorem skipMany_imp {skipOne other : List UInt8 → Option (List UInt8)}
    (imp : ∀ {raw rest : List UInt8}, skipOne raw = some rest → other raw = some rest) (count : Nat)
    (skipped : skipMany skipOne count raw = some rest) : skipMany other count raw = some rest := by
  induction count generalizing raw with
  | zero => exact skipped
  | succ count ih =>
    obtain ⟨behind, first, others⟩ := Option.bind_eq_some_iff.mp skipped
    simp only [skipMany, imp first, Option.bind_some, ih others]

theorem skipDepth_imp {readOne other : List UInt8 → Option (Nat × Nat × List UInt8)}
    (imp : ∀ {raw : List UInt8} {head}, readOne raw = some head → other raw = some head) (depth more : Nat)
    (skipped : skipDepth readOne depth raw = some rest) : skipDepth other (depth + more) raw = some rest := by
  induction depth generalizing raw rest with
  | zero => simp [skipDepth] at skipped
  | succ depth ih =>
    rw [Nat.add_right_comm]
    simp only [skipDepth] at skipped ⊢
    cases head : readOne raw with
    | none => simp [head] at skipped
    | some read =>
      obtain ⟨major, argument, behind⟩ := read
      simp only [head, imp head] at skipped ⊢
      split_ifs at skipped ⊢
      · exact skipped
      · exact skipMany_imp (fun found => ih found) argument skipped
      · exact skipMany_imp (fun found => ih found) (2 * argument) skipped
      · exact ih skipped
      · exact skipped

theorem WellFormed.length_pos {item : List UInt8} (formed : WellFormed item) : 0 < item.length := by
  cases item with
  | nil => simp [WellFormed, skip, skipDepth] at formed
  | cons first item => exact Nat.succ_pos _

theorem Canonical.wellFormed {item : List UInt8} (canonical : Canonical item) : WellFormed item := by
  apply skipDepth_imp (fun read => ?_) item.length 0 canonical
  exact (Option.filter_eq_some_iff.mp (Option.filter_eq_some_iff.mp read).1).1

theorem Canonical.tagged {item : List UInt8} (canonical : Canonical item) : Canonical (0xc6 :: item) := by
  have short : readShortHead (0xc6 :: item) = some (6, 6, item) :=
    readShortHead_encodeHead 6 6 item (by decide) (by decide)
  have head : readCanonicalHead (0xc6 :: item) = some (6, 6, item) := by
    simp [readCanonicalHead, short]
  simpa [Canonical, skipDepth, head] using canonical

theorem canonical_tags (count : Nat) : Canonical (List.replicate count 0xc6 ++ [0]) := by
  induction count with
  | zero => decide
  | succ count ih =>
    rw [List.replicate_succ, List.cons_append]
    exact ih.tagged

end WellFormed

end Cbor
