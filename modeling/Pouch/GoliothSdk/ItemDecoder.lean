import Pouch.GoliothSdk.CborDecoder
import Pouch.GoliothSdk.CborItems

set_option autoImplicit false

namespace Pouch

open ByteMemory

section Decoder

variable {Value : Type}

def valueOf (reader : Cbor.Reader Value) (item : List UInt8) : Option Value :=
  match reader.read item with
  | some (value, []) => some value
  | _ => none

def uint32Reader : Cbor.Reader Nat :=
  .ofHead fun major argument => if major = 0 ∧ argument < 2 ^ 32 then some argument else none

def boolReader : Cbor.Reader Bool :=
  .ofByte fun byte => if byte = 0xf4 then some false else if byte = 0xf5 then some true else none

def nilReader : Cbor.Reader Unit := .ofByte fun byte => if byte = 0xf6 then some () else none

def doubleReader : Cbor.Reader UInt64 := .ofHead fun _ bits => some (UInt64.ofNat bits)

end Decoder

section Readers

variable {Value : Type} {reader : Cbor.Reader Value} {memory : Memory} {zsd : ZcborState} {item rest : List UInt8}

theorem ZcborState.Before.rest_eq (before : zsd.Before memory rest) : zsd.rest memory = rest := by
  have within := before.within
  rw [ZcborState.rest, show zsd.payloadEnd - zsd.payload = rest.length by omega]
  exact before.bytes

theorem valueOf_eq_some {value : Value} (is : valueOf reader item = some value) :
    reader.read item = some (value, []) := by
  unfold valueOf at is
  split at is
  · rename_i found read
    obtain rfl := Option.some.inj is
    exact read
  · simp at is

theorem takeItem_item (before : zsd.Before memory (item ++ rest)) (elem : 0 < zsd.elemCount)
    (exact : valueOf reader item = none → reader.read (item ++ rest) = none) :
    takeItem reader memory zsd = (valueOf reader item).map (·, zsd.past item.length) := by
  have within := before.within
  rw [List.length_append] at within
  rw [takeItem, if_neg (by omega), before.rest_eq]
  cases is : valueOf reader item with
  | none => rw [exact is]; rfl
  | some value =>
    rw [reader.whole (valueOf_eq_some is) rest]
    simp only [Option.map_some, ZcborState.past]
    rw [show zsd.payloadEnd - rest.length = zsd.payload + item.length by omega]

theorem readHead_item (isItem : Cbor.Canonical item) :
    ∃ major argument behind, Cbor.readHead item = some (major, argument, behind) ∧ majorOf item = some major ∧
      (major = 0 ∨ major = 1 ∨ major = 7 → behind = []) ∧
        (major = 3 → Cbor.readBytes argument behind = some (behind, [])) := by
  have formed := isItem.wellFormed
  cases item with
  | nil => simp [Cbor.WellFormed, Cbor.skip, Cbor.skipDepth] at formed
  | cons first tail =>
    rw [Cbor.WellFormed, Cbor.skip, List.length_cons, Cbor.skipDepth] at formed
    cases head : Cbor.readHead (first :: tail) with
    | none => simp [head] at formed
    | some read =>
      obtain ⟨major, argument, behind⟩ := read
      obtain ⟨first', isFirst, is⟩ := Cbor.readHead_major head
      obtain rfl : first = first' := Option.some.inj isFirst
      refine ⟨major, argument, behind, rfl, by simp [majorOf, is], ?_, ?_⟩
      · rintro (rfl | rfl | rfl) <;> simpa [head] using formed
      · rintro rfl
        simp only [head, Nat.reduceEqDiff, or_true, if_true, Option.map_eq_some_iff, Cbor.readBytes] at formed ⊢
        obtain ⟨read, found, rest⟩ := formed
        split_ifs at found ⊢ with enough
        obtain rfl := Option.some.inj found
        have full := List.drop_eq_nil_iff.mp rest
        rw [List.take_of_length_le full, List.drop_of_length_le full]

theorem ofHead_exact {value : Nat → Nat → Option Value} (isItem : Cbor.Canonical item)
    (scalar : ∀ major argument read, majorOf item = some major → value major argument = some read →
      major = 0 ∨ major = 1 ∨ major = 7)
    (other : valueOf (.ofHead value) item = none) (rest : List UInt8) :
    (Cbor.Reader.ofHead value).read (item ++ rest) = none := by
  obtain ⟨major, argument, behind, head, type, whole, _⟩ := readHead_item isItem
  cases read : value major argument with
  | none => simp only [Cbor.Reader.ofHead, Cbor.readHead_extend head, read, Option.map_none]
  | some found =>
    obtain rfl := whole (scalar major argument found type read)
    simp [valueOf, Cbor.Reader.ofHead, head, read] at other

theorem ofHead_major {value : Nat → Nat → Option Value} {read : Value}
    (is : valueOf (.ofHead value) item = some read) :
    ∃ major argument, majorOf item = some major ∧ value major argument = some read := by
  have whole := valueOf_eq_some is
  simp only [Cbor.Reader.ofHead] at whole
  cases head : Cbor.readHead item with
  | none => simp [head] at whole
  | some found =>
    obtain ⟨major, argument, behind⟩ := found
    obtain ⟨first, isFirst, rfl⟩ := Cbor.readHead_major head
    simp only [head, Option.map_eq_some_iff, Prod.mk.injEq] at whole
    obtain ⟨read', decoded, rfl, _⟩ := whole
    refine ⟨_, argument, ?_, decoded⟩
    rw [majorOf, Option.mem_def.mp isFirst, Option.map_some]

theorem ofByte_exact {value : UInt8 → Option Value} (isItem : Cbor.Canonical item)
    (simple : ∀ byte read, value byte = some read → byte.toNat / 32 = 7 ∧ byte.toNat % 32 < 24)
    (other : valueOf (.ofByte value) item = none) (rest : List UInt8) :
    (Cbor.Reader.ofByte value).read (item ++ rest) = none := by
  cases item with
  | nil => simp [Cbor.Canonical, Cbor.skipDepth] at isItem
  | cons first tail =>
    cases read : value first with
    | none => simp only [Cbor.Reader.ofByte, List.cons_append, read, Option.map_none]
    | some found =>
      obtain ⟨major, small⟩ := simple first found read
      obtain ⟨_, argument, behind, head, _, whole, _⟩ := readHead_item isItem
      have width : Cbor.argumentWidth (first.toNat % 32) = some 0 := by
        rw [Cbor.argumentWidth, if_pos small]
      simp only [Cbor.readHead, width, Option.some.injEq, Prod.mk.injEq] at head
      obtain ⟨rfl, _, rfl⟩ := head
      obtain rfl := whole (.inr (.inr major))
      simp [valueOf, Cbor.Reader.ofByte, read] at other

theorem ofByte_major {value : UInt8 → Option Value} {read : Value} (is : valueOf (.ofByte value) item = some read) :
    ∃ first, item = [first] ∧ value first = some read := by
  have whole := valueOf_eq_some is
  cases item with
  | nil => simp [Cbor.Reader.ofByte] at whole
  | cons first tail =>
    simp only [Cbor.Reader.ofByte, Option.map_eq_some_iff, Prod.mk.injEq] at whole
    obtain ⟨read', decoded, rfl, rfl⟩ := whole
    exact ⟨first, rfl, decoded⟩

end Readers

def textOf (item : List UInt8) : Option (List UInt8) :=
  (valueOf Cbor.Reader.text item).map fun read => item.drop read.1

def doubleOf (item : List UInt8) : Option UInt64 :=
  if item.head? = some 0xfb then valueOf doubleReader item else none

section Values

variable {item rest : List UInt8}

theorem textOf_spec {read : Nat × Nat} (is : valueOf Cbor.Reader.text item = some read) :
    majorOf item = some 3 ∧ read.1 ≤ item.length ∧ read.2 = item.length - read.1 := by
  have whole := valueOf_eq_some is
  simp only [Cbor.Reader.text] at whole
  cases head : Cbor.readHead item with
  | none => simp [head] at whole
  | some found =>
    obtain ⟨major, length, behind⟩ := found
    obtain ⟨first, isFirst, rfl⟩ := Cbor.readHead_major head
    have takes := Cbor.readHead_takes head
    simp only [head, Cbor.readBytes] at whole
    split_ifs at whole with isText enough
    · simp only [Option.map_some, Option.some.injEq, Prod.mk.injEq, List.drop_eq_nil_iff] at whole
      obtain ⟨rfl, all⟩ := whole
      refine ⟨?_, by simp only; omega, by simp only; omega⟩
      rw [majorOf, Option.mem_def.mp isFirst, Option.map_some, isText]
    · simp at whole

theorem text_exact (isItem : Cbor.Canonical item) (other : valueOf Cbor.Reader.text item = none)
    (rest : List UInt8) : Cbor.Reader.text.read (item ++ rest) = none := by
  obtain ⟨major, argument, behind, head, _, _, text⟩ := readHead_item isItem
  simp only [Cbor.Reader.text, Cbor.readHead_extend head]
  split_ifs with isText
  · simp [valueOf, Cbor.Reader.text, head, text isText, isText] at other
  · rfl

theorem intValue_major {limit major argument : Nat} {read : Int} (is : intValue limit major argument = some read) :
    major = 0 ∨ major = 1 := by
  unfold intValue at is
  split_ifs at is with _ zero one
  · exact .inl zero
  · exact .inr one

theorem bool_simple {byte : UInt8} {read : Bool}
    (is : (if byte = 0xf4 then some false else if byte = 0xf5 then some true else none) = some read) :
    byte.toNat / 32 = 7 ∧ byte.toNat % 32 < 24 := by
  split_ifs at is with zero one
  · simp [zero]
  · simp [one]

theorem nil_simple {byte : UInt8} {read : Unit} (is : (if byte = 0xf6 then some () else none) = some read) :
    byte.toNat / 32 = 7 ∧ byte.toNat % 32 < 24 := by
  split_ifs at is with nil
  simp [nil]

theorem canonical_first (isItem : Cbor.Canonical item) : ∃ first tail, item = first :: tail ∧ first ≠ 0xff := by
  cases item with
  | nil => simp [Cbor.Canonical, Cbor.skipDepth] at isItem
  | cons first tail =>
    refine ⟨first, tail, rfl, ?_⟩
    rintro rfl
    obtain ⟨_, _, _, head, _⟩ := readHead_item isItem
    have none' : Cbor.readHead (0xff :: tail) = none := rfl
    simp [none'] at head

end Values

-- Items of definite length, with the shortest heads.
def definiteItems : CborItems where
  Item := Cbor.Canonical
  MapHead count head indefinite := indefinite = false ∧ Cbor.readShortHead head = some (5, count, [])
  text := textOf
  uint32 := valueOf uint32Reader
  int32 := valueOf (.ofHead (intValue (2 ^ 31)))
  int64 := valueOf (.ofHead (intValue (2 ^ 63)))
  float := doubleOf
  bool := valueOf boolReader
  nil item := (valueOf nilReader item).isSome
  mapHead isHead := by
    obtain ⟨rfl, short⟩ := isHead
    exact .definite (Cbor.readShortHead_eq_some.mp short).1
  first := canonical_first
  textEnd is := by
    obtain ⟨read, _, rfl⟩ := Option.map_eq_some_iff.mp is
    exact List.drop_suffix _ _
  textMajor is := by
    obtain ⟨read, is, _⟩ := Option.map_eq_some_iff.mp is
    exact (textOf_spec is).1
  uint32Bound is := by
    obtain ⟨major, argument, _, read⟩ := ofHead_major is
    split_ifs at read with small
    obtain rfl := Option.some.inj read
    exact small.2
  uint32Major is := by
    obtain ⟨major, argument, type, read⟩ := ofHead_major is
    split_ifs at read with small
    rw [type, small.1]
  int32Major is := by
    obtain ⟨major, argument, type, read⟩ := ofHead_major is
    rcases intValue_major read with rfl | rfl
    · exact .inl type
    · exact .inr type
  floatMajor is := by
    unfold doubleOf at is
    split_ifs at is with first
    simp [majorOf, first]
  boolMajor is := by
    obtain ⟨first, rfl, read⟩ := ofByte_major is
    simp [majorOf, (bool_simple read).1]
  floatOrBool is := by
    unfold doubleOf at is
    split_ifs at is with first
    cases bool : valueOf boolReader _ with
    | none => rfl
    | some read =>
      obtain ⟨byte, rfl, simple⟩ := ofByte_major bool
      obtain rfl : byte = 0xfb := by simpa using first
      simp at simple
  nilMajor is := by
    obtain ⟨read, is⟩ := Option.isSome_iff_exists.mp is
    obtain ⟨first, rfl, read⟩ := ofByte_major is
    simp [majorOf, (nil_simple read).1]

instance (item : List UInt8) : Decidable (definiteItems.Item item) :=
  inferInstanceAs (Decidable (Cbor.Canonical item))

section Laws

variable {memory : Memory} {zsd : ZcborState} {item rest : List UInt8}

theorem takeItem_accepts {Value : Type} {reader : Cbor.Reader Value}
    (exact : ∀ {item : List UInt8}, Cbor.Canonical item → valueOf reader item = none →
      ∀ rest, reader.read (item ++ rest) = none) :
    Accepts definiteItems (takeItem reader) (valueOf reader) :=
  fun isItem before elem => takeItem_item before elem fun other => exact isItem other _

theorem tstrDecode_item (isItem : definiteItems.Item item) (before : zsd.Before memory (item ++ rest))
    (elem : 0 < zsd.elemCount) :
    cborDecoder.tstrDecode memory zsd = (textOf item).map fun text =>
      (⟨zsd.payload + (item.length - text.length), text.length⟩, zsd.past item.length) := by
  have taken := takeItem_item before elem fun other => text_exact isItem other rest
  simp only [cborDecoder, taken, textOf, Option.map_map]
  cases is : valueOf Cbor.Reader.text item with
  | none => rfl
  | some read =>
    obtain ⟨_, within, length⟩ := textOf_spec is
    simp only [Option.map_some, Function.comp_apply, List.length_drop, length]
    rw [show item.length - (item.length - read.1) = read.1 by omega]

theorem enter_map {head : List UInt8} {count : Nat} (isHead : Cbor.readHead head = some (5, count, []))
    (before : zsd.Before memory (head ++ rest)) (elem : 0 < zsd.elemCount) (backup : 0 < zsd.backups) :
    enter 5 2 memory zsd = some (zsd.entered head.length (2 * count) false) := by
  have whole : valueOf (.ofHead fun found items => if found = 5 then some items else none) head = some count := by
    simp [valueOf, Cbor.Reader.ofHead, isHead]
  rw [enter, if_neg (by omega), takeItem_item before elem fun other => by simp [whole] at other, whole]
  rfl

theorem enter_other (isItem : definiteItems.Item item) (other : majorOf item ≠ some 5)
    (before : zsd.Before memory (item ++ rest)) : enter 5 2 memory zsd = none := by
  obtain ⟨major, argument, behind, head, type, _⟩ := readHead_item isItem
  rw [type, ne_eq, Option.some.injEq] at other
  have fails : (Cbor.Reader.ofHead fun found items => if found = 5 then some items else none).read (item ++ rest) =
      none := by
    simp [Cbor.Reader.ofHead, Cbor.readHead_extend head, other]
  rw [enter, takeItem, before.rest_eq, fails]
  split_ifs <;> rfl

theorem cborDecoder_reads : cborDecoder.Reads definiteItems where
  tstr := tstrDecode_item
  uint32 := takeItem_accepts fun isItem other => by
    apply ofHead_exact isItem _ other
    intro major argument read _ is
    split_ifs at is with small
    exact .inl small.1
  int32 := takeItem_accepts fun isItem other => by
    apply ofHead_exact isItem _ other
    intro major argument read _ is
    rcases intValue_major is with zero | one
    · exact .inl zero
    · exact .inr (.inl one)
  int64 := takeItem_accepts fun isItem other => by
    apply ofHead_exact isItem _ other
    intro major argument read _ is
    rcases intValue_major is with zero | one
    · exact .inl zero
    · exact .inr (.inl one)
  float {memory zsd item rest} isItem before elem := by
    have first : memory zsd.payload = 0xfb ↔ item.head? = some 0xfb := by
      obtain ⟨first, tail, rfl, _⟩ := definiteItems.first isItem
      rw [List.cons_append] at before
      simp [before.majorType]
    simp only [cborDecoder, definiteItems, doubleOf, first]
    split_ifs with double
    · apply takeItem_item before elem
      intro other
      apply ofHead_exact isItem _ other
      intro major argument read type _
      simp only [majorOf, double, Option.map_some, Option.some.injEq] at type
      exact .inr (.inr type.symm)
    · rfl
  bool := takeItem_accepts fun isItem other => ofByte_exact isItem (fun _ _ => bool_simple) other
  nilExpect {memory zsd item rest} isItem before elem := by
    have taken : takeItem nilReader memory zsd = (valueOf nilReader item).map (·, zsd.past item.length) :=
      takeItem_item before elem fun other => ofByte_exact isItem (fun _ _ => nil_simple) other rest
    change ((takeItem nilReader memory zsd).map Prod.snd).map _ = _
    rw [taken]
    change _ = Option.map _ (if (valueOf nilReader item).isSome then some () else none)
    cases valueOf nilReader item <;> rfl
  nilOther {memory zsd rest} before other := by
    have fails : nilReader.read rest = none := by
      cases rest with
      | nil => rfl
      | cons first rest =>
        have isOther : first ≠ 0xf6 := by
          rintro rfl
          exact other rfl
        simp [nilReader, Cbor.Reader.ofByte, isOther]
    change (takeItem nilReader memory zsd).map Prod.snd = none
    rw [takeItem, before.rest_eq, fails]
    split_ifs <;> rfl
  anySkip {memory zsd item rest} isItem before elem := by
    have whole : valueOf Cbor.Reader.anything item = some () := by
      have skipped : Cbor.skip item = some [] := isItem.wellFormed
      simp [valueOf, Cbor.Reader.anything, skipped]
    have taken : takeItem Cbor.Reader.anything memory zsd = _ :=
      takeItem_item before elem fun other => by simp [whole] at other
    simp [cborDecoder, taken, whole]
  mapStart {memory zsd head rest count indefinite} isHead before _ elem backup := by
    obtain ⟨rfl, short⟩ := isHead
    exact ⟨_, enter_map (Cbor.readShortHead_eq_some.mp short).1 before elem backup, rfl⟩
  mapStartOther := enter_other
  mapEnd {memory zsd head rest count indefinite outer enclosing} isHead inMap isIn := by
    obtain ⟨rfl, _⟩ := isHead
    have drained : zsd.elemCount = 0 := by simpa using inMap.elems
    simp only [cborDecoder, drained, if_true, leave, isIn]
    rfl
  listMapEndForce {memory zsd outer enclosing} isIn := by
    simp only [cborDecoder, leave, isIn]
    rfl

end Laws

def memoryOf (bytes : List UInt8) : Memory := fun address => bytes[address]?.getD 0

theorem memoryOf_before (bytes : List UInt8) (backups : Nat) :
    (zcborStateD backups 0 bytes.length).Before (memoryOf bytes) bytes := by
  refine ⟨by simp [zcborStateD], ?_⟩
  have same : memoryOf bytes = store (fun _ => 0) 0 bytes := by
    funext address
    simp [memoryOf, store]
  rw [same]
  exact load_store_same _ _ _

def documentCall (document : CborMap definiteItems) : DataCall :=
  ⟨memoryOf document.bytes, 0, document.bytes.length, true, fun _ => ⟨⟨.u32, 0, 0⟩, []⟩⟩

theorem documentCall_bytes (document : CborMap definiteItems) : (documentCall document).bytes = document.bytes :=
  (memoryOf_before document.bytes 2).bytes

end Pouch
