import Pouch.GoliothSdk.Zcbor
import Pouch.Shared.CborReader

set_option autoImplicit false

namespace Pouch

open ByteMemory

section Decoder

variable {Value : Type}

def ZcborState.rest (memory : Memory) (zsd : ZcborState) : List UInt8 :=
  load memory zsd.payload (zsd.payloadEnd - zsd.payload)

def takeItem (reader : Cbor.Reader Value) (memory : Memory) (zsd : ZcborState) : Option (Value × ZcborState) :=
  if zsd.elemCount = 0 then
    none
  else
    (reader.read (zsd.rest memory)).map fun read =>
      (read.1, { zsd with payload := zsd.payloadEnd - read.2.length, elemCount := zsd.elemCount - 1 })

def enter (major factor : Nat) (memory : Memory) (zsd : ZcborState) : Option ZcborState :=
  if zsd.backups = 0 then
    none
  else
    (takeItem (.ofHead fun found items => if found = major then some items else none) memory zsd).map fun read =>
      { read.2 with
        elemCount := factor * read.1
        indefiniteLengthArray := false
        enclosing := (read.2.elemCount, read.2.indefiniteLengthArray) :: read.2.enclosing
        backups := read.2.backups - 1 }

def leave (zsd : ZcborState) : Option ZcborState :=
  match zsd.enclosing with
  | [] => none
  | (elemCount, indefiniteLengthArray) :: enclosing =>
    some { zsd with
      elemCount := elemCount
      indefiniteLengthArray := indefiniteLengthArray
      enclosing := enclosing
      backups := zsd.backups + 1 }

def intValue (limit major argument : Nat) : Option Int :=
  if limit ≤ argument then none
  else if major = 0 then some argument
  else if major = 1 then some (-1 - argument)
  else none

/-- A decoder for items of definite length. Of floats it knows the doubles. -/
def cborDecoder : Zcbor where
  mapStartDecode := enter 5 2
  listStartDecode := enter 4 1
  mapEndDecode _ zsd := if zsd.elemCount = 0 then leave zsd else none
  listMapEndForceDecode _ zsd := leave zsd
  tstrDecode memory zsd :=
    (takeItem .text memory zsd).map fun read => (⟨zsd.payload + read.1.1, read.1.2⟩, read.2)
  uint32Decode :=
    takeItem (.ofHead fun major argument => if major = 0 ∧ argument < 2 ^ 32 then some argument else none)
  int32Decode := takeItem (.ofHead (intValue (2 ^ 31)))
  int64Decode := takeItem (.ofHead (intValue (2 ^ 63)))
  floatDecode memory zsd :=
    if memory zsd.payload = 0xfb then
      takeItem (.ofHead fun _ bits => some (UInt64.ofNat bits)) memory zsd
    else
      none
  boolDecode :=
    takeItem (.ofByte fun byte => if byte = 0xf4 then some false else if byte = 0xf5 then some true else none)
  nilExpect memory zsd :=
    (takeItem (.ofByte fun byte => if byte = 0xf6 then some () else none) memory zsd).map Prod.snd
  anySkip memory zsd := (takeItem .anything memory zsd).map Prod.snd

end Decoder

section Laws

variable {Value : Type} {reader : Cbor.Reader Value} {memory : Memory} {zsd : ZcborState} {rest : List UInt8}
  {count : Nat}

theorem ZcborState.At.rest_eq (at' : zsd.At memory rest count) : zsd.rest memory = rest := by
  have within := at'.within
  rw [ZcborState.rest, show zsd.payloadEnd - zsd.payload = rest.length by omega]
  exact at'.bytes

theorem takeItem_whole {item : List UInt8} {value : Value} (reads : reader.read item = some (value, []))
    (at' : zsd.At memory (item ++ rest) (count + 1)) :
    ∃ next, takeItem reader memory zsd = some (value, next) ∧ next.At memory rest count ∧
      next.enclosing = zsd.enclosing ∧ next.backups = zsd.backups := by
  have within := at'.within
  have items := at'.items
  have bytes := load_drop memory zsd.payload (item ++ rest).length item.length (by simp)
  rw [at'.bytes, List.drop_left, List.length_append, Nat.add_sub_cancel_left] at bytes
  rw [List.length_append] at within
  refine ⟨{ zsd with payload := zsd.payloadEnd - rest.length, elemCount := zsd.elemCount - 1 }, ?_, ⟨?_, ?_, ?_, ?_⟩,
    rfl, rfl⟩
  · rw [takeItem, if_neg (by omega), at'.rest_eq, reader.whole reads rest]
    rfl
  · simp only
    omega
  · simp only
    rw [show zsd.payloadEnd - rest.length = zsd.payload + item.length by omega, ← bytes]
  · simp only [items, Nat.add_sub_cancel]
  · exact at'.definite

theorem takeItem_none (at' : zsd.At memory rest count) (fails : reader.read rest = none) :
    takeItem reader memory zsd = none := by
  rw [takeItem, at'.rest_eq, fails]
  split_ifs <;> rfl

theorem takeItem_decodes {item : List UInt8} {value : Value} (reads : reader.read item = some (value, [])) :
    Decodes (takeItem reader) item fun _ read => read = value := by
  constructor
  · intro memory zsd rest count at'
    obtain ⟨next, taken, behind⟩ := takeItem_whole reads at'
    exact ⟨value, next, taken, rfl, behind⟩
  · intro memory zsd part more count split missing at'
    rw [← split] at reads
    exact takeItem_none at' (reader.cut reads missing)

theorem readHead_ofHead (value : Nat → Nat → Option Value) (major argument : Nat) (majorBound : major < 8)
    (fits : argument < 2 ^ 64) :
    (Cbor.Reader.ofHead value).read (Cbor.encodeHead major argument) =
      (value major argument).map (·, []) := by
  have head := Cbor.readHead_encodeHead major argument [] majorBound fits
  rw [List.append_nil] at head
  simp only [Cbor.Reader.ofHead, head]

theorem read_text (text : List UInt8) (short : text.length < 2 ^ 32) :
    Cbor.Reader.text.read (Cbor.encodeHead 3 text.length ++ text) =
      some (((Cbor.encodeHead 3 text.length).length, text.length), []) := by
  have head := Cbor.readHead_encodeHead 3 text.length text (by decide) (by omega)
  have bytes := Cbor.readBytes_append text []
  rw [List.append_nil] at bytes
  simp [Cbor.Reader.text, head, bytes]

theorem tstrDecode_decodes (text : List UInt8) (short : text.length < 2 ^ 32) :
    Decodes cborDecoder.tstrDecode (Cbor.encodeHead 3 text.length ++ text) fun memory read =>
      read.bytes memory = text := by
  have reads := read_text text short
  constructor
  · intro memory zsd rest count at'
    obtain ⟨next, taken, behind⟩ := takeItem_whole reads at'
    refine ⟨_, next, by simp only [cborDecoder, taken, Option.map_some]; rfl, ?_, behind⟩
    have bytes := at'.bytes
    rw [List.append_assoc, List.length_append, List.length_append, load_add] at bytes
    have inside := (List.append_inj bytes (load_length _ _ _)).2
    rw [load_add] at inside
    exact (List.append_inj inside (load_length _ _ _)).1
  · intro memory zsd part more count split missing at'
    rw [← split] at reads
    simp only [cborDecoder, takeItem_none at' (Cbor.Reader.text.cut reads missing), Option.map_none]

theorem enter_enters (major factor : Nat) (bound : major < 8) : Enters (enter major factor) major factor := by
  constructor
  · intro memory zsd rest items count few at' backups
    have reads := readHead_ofHead (fun found items => if found = major then some items else none) major items bound
      (by omega)
    rw [if_pos rfl, Option.map_some] at reads
    obtain ⟨next, taken, behind, enclosing, same⟩ := takeItem_whole reads at'
    refine ⟨{ next with
      elemCount := factor * items
      indefiniteLengthArray := false
      enclosing := (next.elemCount, next.indefiniteLengthArray) :: next.enclosing
      backups := next.backups - 1 }, ?_, ⟨behind.within, behind.bytes, rfl, rfl⟩, ?_, ?_⟩
    · rw [enter, if_neg (by omega), taken]
      rfl
    · simp only [behind.items, behind.definite, enclosing]
    · simp only
      omega
  · intro memory zsd rest count at' other
    have fails : (Cbor.Reader.ofHead fun found items => if found = major then some items else none).read rest =
        none := by
      simp only [Cbor.Reader.ofHead]
      cases head : Cbor.readHead rest with
      | none => rfl
      | some found =>
        obtain ⟨found, items, behind⟩ := found
        have different : found ≠ major := by
          obtain ⟨first, first', is⟩ := Cbor.readHead_major head
          rw [is]
          exact other first first'
        simp [different]
    rw [enter, takeItem_none at' fails]
    split_ifs <;> rfl

theorem cborDecoder_lawful : cborDecoder.Lawful where
  tstr := tstrDecode_decodes
  uint32 value small := by
    apply takeItem_decodes
    rw [readHead_ofHead _ 0 value (by decide) (by omega), if_pos ⟨rfl, small⟩]
    rfl
  int64 value small := by
    apply takeItem_decodes
    rw [readHead_ofHead _ 0 value (by decide) (by omega), intValue, if_neg (by omega), if_pos rfl]
    rfl
  anySkip item canonical := by
    have reads : Cbor.Reader.anything.read item = some ((), []) := by
      have formed : Cbor.skip item = some [] := canonical.wellFormed
      simp only [Cbor.Reader.anything, formed, Option.map_some]
    constructor
    · intro memory zsd rest count at'
      obtain ⟨next, taken, behind⟩ := takeItem_whole reads at'
      exact ⟨(), next, by simp only [cborDecoder, taken, Option.map_some], trivial, behind⟩
    · intro memory zsd part more count split missing at'
      rw [← split] at reads
      simp only [cborDecoder, takeItem_none at' (Cbor.Reader.anything.cut reads missing), Option.map_none]
  nilExpect memory zsd rest count at' other := by
    have fails : (Cbor.Reader.ofByte fun byte => if byte = 0xf6 then some () else none).read rest = none := by
      cases rest with
      | nil => rfl
      | cons first rest => simp [Cbor.Reader.ofByte, other first rfl]
    simp only [cborDecoder, takeItem_none at' fails, Option.map_none]
  mapStart := enter_enters 5 2 (by decide)
  listStart := enter_enters 4 1 (by decide)
  mapEnd memory zsd rest count outer at' enclosing := by
    refine ⟨{ zsd with
      elemCount := count
      indefiniteLengthArray := false
      enclosing := outer
      backups := zsd.backups + 1 }, ?_, ⟨at'.within, at'.bytes, rfl, rfl⟩, rfl, rfl⟩
    simp only [cborDecoder, at'.items, if_true, leave, enclosing]

end Laws

end Pouch
