import Pouch.GoliothSdk.Zcbor

set_option autoImplicit false

/-!
# Items in a payload

What the decoders of the library make of an item, and where they are behind it. Containers may be of definite or of
indefinite length.
-/

namespace Pouch

open ByteMemory

def majorOf (item : List UInt8) : Option Nat := item.head?.map fun first => first.toNat / 32

/-- The head of a container with `count` items, or pairs. -/
inductive HeadOf (major count : Nat) : List UInt8 → Bool → Prop where
  | definite {head : List UInt8} : Cbor.readHead head = some (major, count, []) → HeadOf major count head false
  | indefinite : HeadOf major count [UInt8.ofNat (major * 32 + 31)] true

/-- The items of CBOR that the library takes, and what its decoders read from each of them. -/
structure CborItems where
  Item : List UInt8 → Prop
  -- The heads of the maps that it enters.
  MapHead : Nat → List UInt8 → Bool → Prop
  text : List UInt8 → Option (List UInt8)
  uint32 : List UInt8 → Option Nat
  int32 : List UInt8 → Option Int
  int64 : List UInt8 → Option Int
  float : List UInt8 → Option UInt64
  bool : List UInt8 → Option Bool
  nil : List UInt8 → Bool
  mapHead : ∀ {count head indefinite}, MapHead count head indefinite → HeadOf 5 count head indefinite
  -- No item starts with the break of a container of indefinite length.
  first : ∀ {item}, Item item → ∃ first tail, item = first :: tail ∧ first ≠ 0xff
  textEnd : ∀ {item read}, text item = some read → read <:+ item
  textMajor : ∀ {item read}, text item = some read → majorOf item = some 3
  uint32Bound : ∀ {item read}, uint32 item = some read → read < 2 ^ 32
  uint32Major : ∀ {item read}, uint32 item = some read → majorOf item = some 0
  int32Major : ∀ {item read}, int32 item = some read → majorOf item = some 0 ∨ majorOf item = some 1
  floatMajor : ∀ {item read}, float item = some read → majorOf item = some 7
  boolMajor : ∀ {item read}, bool item = some read → majorOf item = some 7
  floatOrBool : ∀ {item read}, float item = some read → bool item = none
  nilMajor : ∀ {item}, nil item = true → majorOf item = some 7

def breakOf (indefinite : Bool) : List UInt8 := if indefinite then [0xff] else []

def pairsBytes (pairs : List (List UInt8 × List UInt8)) : List UInt8 := pairs.flatMap fun pair => pair.1 ++ pair.2

namespace ZcborState

structure Before (memory : Memory) (zsd : ZcborState) (rest : List UInt8) : Prop where
  within : zsd.payload + rest.length = zsd.payloadEnd
  bytes : load memory zsd.payload rest.length = rest

def past (zsd : ZcborState) (length : Nat) : ZcborState :=
  { zsd with payload := zsd.payload + length, elemCount := zsd.elemCount - 1 }

def entered (zsd : ZcborState) (length elems : Nat) (indefinite : Bool) : ZcborState :=
  { zsd with
    payload := zsd.payload + length
    elemCount := elems
    indefiniteLengthArray := indefinite
    enclosing := (zsd.elemCount - 1, zsd.indefiniteLengthArray) :: zsd.enclosing
    backups := zsd.backups - 1 }

def restored (zsd : ZcborState) (outer : Nat × Bool) (enclosing : List (Nat × Bool)) : ZcborState :=
  { zsd with
    elemCount := outer.1
    indefiniteLengthArray := outer.2
    enclosing := enclosing
    backups := zsd.backups + 1 }

structure InMap (memory : Memory) (zsd : ZcborState) (pairs : List (List UInt8 × List UInt8)) (indefinite : Bool)
    (rest : List UInt8) : Prop where
  before : zsd.Before memory (pairsBytes pairs ++ (breakOf indefinite ++ rest))
  form : zsd.indefiniteLengthArray = indefinite
  elems : if indefinite then (pairsBytes pairs).length < zsd.elemCount else zsd.elemCount = 2 * pairs.length

end ZcborState

/-- The decoder accepts exactly the items of its type, and advances past them. -/
def Accepts {Value : Type} (items : CborItems) (decode : Memory → ZcborState → Option (Value × ZcborState))
    (read : List UInt8 → Option Value) : Prop :=
  ∀ {memory : Memory} {zsd : ZcborState} {item rest : List UInt8}, items.Item item →
    zsd.Before memory (item ++ rest) → 0 < zsd.elemCount →
      decode memory zsd = (read item).map (·, zsd.past item.length)

/-- The behaviour of the library on these items. -/
structure Zcbor.Reads (zcbor : Zcbor) (items : CborItems) : Prop where
  -- A text is given by where it is in the payload.
  tstr : ∀ {memory : Memory} {zsd : ZcborState} {item rest : List UInt8}, items.Item item →
    zsd.Before memory (item ++ rest) → 0 < zsd.elemCount →
      zcbor.tstrDecode memory zsd = (items.text item).map fun text =>
        (⟨zsd.payload + (item.length - text.length), text.length⟩, zsd.past item.length)
  uint32 : Accepts items zcbor.uint32Decode items.uint32
  int32 : Accepts items zcbor.int32Decode items.int32
  int64 : Accepts items zcbor.int64Decode items.int64
  float : Accepts items zcbor.floatDecode items.float
  bool : Accepts items zcbor.boolDecode items.bool
  nilExpect : Accepts items (fun memory zsd => (zcbor.nilExpect memory zsd).map ((), ·)) fun item =>
    if items.nil item then some () else none
  nilOther : ∀ {memory : Memory} {zsd : ZcborState} {rest : List UInt8}, zsd.Before memory rest →
    majorOf rest ≠ some 7 → zcbor.nilExpect memory zsd = none
  anySkip : Accepts items (fun memory zsd => (zcbor.anySkip memory zsd).map ((), ·)) fun _ => some ()
  mapStart : ∀ {memory : Memory} {zsd : ZcborState} {head rest : List UInt8} {count : Nat} {indefinite : Bool},
    items.MapHead count head indefinite → zsd.Before memory (head ++ rest) → 2 * count ≤ rest.length →
      0 < zsd.elemCount → 0 < zsd.backups →
        ∃ elems, zcbor.mapStartDecode memory zsd = some (zsd.entered head.length elems indefinite) ∧
          if indefinite then rest.length ≤ elems else elems = 2 * count
  mapStartOther : ∀ {memory : Memory} {zsd : ZcborState} {item rest : List UInt8}, items.Item item →
    majorOf item ≠ some 5 → zsd.Before memory (item ++ rest) → zcbor.mapStartDecode memory zsd = none
  mapEnd : ∀ {memory : Memory} {zsd : ZcborState} {head rest : List UInt8} {count : Nat} {indefinite : Bool}
    {outer : Nat × Bool} {enclosing : List (Nat × Bool)}, items.MapHead count head indefinite →
      zsd.InMap memory [] indefinite rest → zsd.enclosing = outer :: enclosing →
        zcbor.mapEndDecode memory zsd = some ({ zsd with
          payload := zsd.payload + (breakOf indefinite).length }.restored outer enclosing)
  listMapEndForce : ∀ {memory : Memory} {zsd : ZcborState} {outer : Nat × Bool} {enclosing : List (Nat × Bool)},
    zsd.enclosing = outer :: enclosing →
      zcbor.listMapEndForceDecode memory zsd = some (zsd.restored outer enclosing)

structure CborMap (items : CborItems) where
  head : List UInt8
  indefinite : Bool
  pairs : List (List UInt8 × List UInt8)
  isHead : items.MapHead pairs.length head indefinite
  areItems : ∀ pair ∈ pairs, items.Item pair.1 ∧ items.Item pair.2

def CborMap.bytes {items : CborItems} (map : CborMap items) : List UInt8 :=
  map.head ++ (pairsBytes map.pairs ++ breakOf map.indefinite)

namespace ZcborState

def pastPair (zsd : ZcborState) (pair : List UInt8 × List UInt8) : ZcborState :=
  (zsd.past pair.1.length).past pair.2.length

def pastPairs (zsd : ZcborState) (pairs : List (List UInt8 × List UInt8)) : ZcborState := pairs.foldl pastPair zsd

structure AtMap {items : CborItems} (memory : Memory) (zsd : ZcborState) (map : CborMap items)
    (rest : List UInt8) : Prop where
  before : zsd.Before memory (map.bytes ++ rest)
  elem : 0 < zsd.elemCount
  backup : 0 < zsd.backups

end ZcborState

section Positions

variable {memory : Memory} {zsd : ZcborState} {item rest : List UInt8} {items : CborItems}

theorem ZcborState.Before.skip (before : zsd.Before memory (item ++ rest)) :
    load memory (zsd.payload + item.length) rest.length = rest ∧
      zsd.payload + item.length + rest.length = zsd.payloadEnd := by
  have bytes := before.bytes
  have within := before.within
  rw [List.length_append] at bytes within
  rw [load_add] at bytes
  exact ⟨(List.append_inj bytes (load_length _ _ _)).2, by omega⟩

theorem ZcborState.Before.past (before : zsd.Before memory (item ++ rest)) :
    (zsd.past item.length).Before memory rest :=
  ⟨before.skip.2, before.skip.1⟩

theorem ZcborState.Before.entered (before : zsd.Before memory (item ++ rest)) (elems : Nat) (indefinite : Bool) :
    (zsd.entered item.length elems indefinite).Before memory rest :=
  ⟨before.skip.2, before.skip.1⟩

theorem ZcborState.Before.majorType {first : UInt8} (before : zsd.Before memory (first :: rest)) :
    memory zsd.payload = first := by
  have bytes := before.bytes
  simp only [List.length_cons, load, List.cons.injEq] at bytes
  exact bytes.1

theorem CborItems.majorType (isItem : items.Item item) (before : zsd.Before memory (item ++ rest)) :
    some (zsd.majorType memory) = majorOf item := by
  obtain ⟨first, tail, rfl, _⟩ := items.first isItem
  rw [List.cons_append] at before
  simp only [ZcborState.majorType, before.majorType, majorOf, List.head?_cons, Option.map_some]

theorem CborItems.textBytes {text : List UInt8} (is : items.text item = some text)
    (before : zsd.Before memory (item ++ rest)) :
    load memory (zsd.payload + (item.length - text.length)) text.length = text := by
  obtain ⟨head, rfl⟩ := items.textEnd is
  rw [List.append_assoc] at before
  have behind := before.skip.1
  rw [List.length_append, load_add] at behind
  rw [List.length_append, Nat.add_sub_cancel]
  exact (List.append_inj behind (load_length _ _ _)).1

theorem Zcbor.Reads.skip {zcbor : Zcbor} (reads : zcbor.Reads items) (isItem : items.Item item)
    (before : zsd.Before memory (item ++ rest)) (elem : 0 < zsd.elemCount) :
    zcbor.anySkip memory zsd = some (zsd.past item.length) := by
  simpa using reads.anySkip isItem before elem

theorem CborItems.length_pos (isItem : items.Item item) : 0 < item.length := by
  obtain ⟨first, tail, rfl, _⟩ := items.first isItem
  simp

@[simp] theorem pairsBytes_nil : pairsBytes [] = [] := rfl

@[simp] theorem pairsBytes_cons (pair : List UInt8 × List UInt8) (pairs : List (List UInt8 × List UInt8)) :
    pairsBytes (pair :: pairs) = pair.1 ++ (pair.2 ++ pairsBytes pairs) := by
  simp [pairsBytes]

theorem pairsBytes_append (first second : List (List UInt8 × List UInt8)) :
    pairsBytes (first ++ second) = pairsBytes first ++ pairsBytes second := List.flatMap_append

theorem pairsBytes_length_ge (pairs : List (List UInt8 × List UInt8))
    (areItems : ∀ pair ∈ pairs, items.Item pair.1 ∧ items.Item pair.2) :
    2 * pairs.length ≤ (pairsBytes pairs).length := by
  induction pairs with
  | nil => simp
  | cons pair pairs ih =>
    have rest := ih fun other member => areItems other (List.mem_cons_of_mem _ member)
    have both := areItems pair (List.mem_cons_self ..)
    have key := items.length_pos both.1
    have value := items.length_pos both.2
    simp only [pairsBytes_cons, List.length_append, List.length_cons]
    omega

end Positions

section InMap

variable {zcbor : Zcbor} {memory : Memory} {zsd : ZcborState} {rest : List UInt8} {items : CborItems}
  {indefinite : Bool} {pair : List UInt8 × List UInt8} {pairs : List (List UInt8 × List UInt8)}

namespace ZcborState.InMap

theorem atEnd (inMap : zsd.InMap memory [] indefinite rest) : zcborListOrMapEnd memory zsd = true := by
  have elems := inMap.elems
  have before := inMap.before
  rw [zcborListOrMapEnd, inMap.form]
  cases indefinite with
  | false => simpa using elems
  | true =>
    rw [pairsBytes_nil, List.nil_append, breakOf, if_pos rfl, List.singleton_append] at before
    have within := before.within
    rw [List.length_cons] at within
    simp only [if_true, before.majorType, and_true, decide_eq_true_eq]
    omega

theorem notEnd (inMap : zsd.InMap memory (pair :: pairs) indefinite rest) (isItem : items.Item pair.1) :
    zcborListOrMapEnd memory zsd = false := by
  have elems := inMap.elems
  have before := inMap.before
  rw [zcborListOrMapEnd, inMap.form]
  cases indefinite with
  | false => simp_all
  | true =>
    obtain ⟨first, tail, item, other⟩ := items.first isItem
    rw [pairsBytes_cons, item, List.cons_append, List.cons_append] at before
    simp [before.majorType, other]

theorem key (inMap : zsd.InMap memory (pair :: pairs) indefinite rest) :
    zsd.Before memory (pair.1 ++ (pair.2 ++ (pairsBytes pairs ++ (breakOf indefinite ++ rest)))) := by
  simpa using inMap.before

theorem value (inMap : zsd.InMap memory (pair :: pairs) indefinite rest) :
    (zsd.past pair.1.length).Before memory (pair.2 ++ (pairsBytes pairs ++ (breakOf indefinite ++ rest))) :=
  inMap.key.past

theorem keyElem (inMap : zsd.InMap memory (pair :: pairs) indefinite rest) : 0 < zsd.elemCount := by
  have elems := inMap.elems
  split_ifs at elems
  · omega
  · simp only [List.length_cons] at elems
    omega

theorem valueElem (inMap : zsd.InMap memory (pair :: pairs) indefinite rest) (isItem : items.Item pair.1) :
    0 < (zsd.past pair.1.length).elemCount := by
  have elems := inMap.elems
  have length := items.length_pos isItem
  simp only [ZcborState.past]
  split_ifs at elems
  · simp only [pairsBytes_cons, List.length_append] at elems
    omega
  · simp only [List.length_cons] at elems
    omega

theorem next (inMap : zsd.InMap memory (pair :: pairs) indefinite rest)
    (areItems : items.Item pair.1 ∧ items.Item pair.2) :
    (zsd.pastPair pair).InMap memory pairs indefinite rest := by
  have elems := inMap.elems
  have key := items.length_pos areItems.1
  have value := items.length_pos areItems.2
  refine ⟨inMap.value.past, inMap.form, ?_⟩
  simp only [ZcborState.pastPair, ZcborState.past]
  split_ifs at elems ⊢
  · simp only [pairsBytes_cons, List.length_append] at elems
    omega
  · simp only [List.length_cons] at elems
    omega

end ZcborState.InMap

theorem Zcbor.Reads.enterMap (reads : zcbor.Reads items) (map : CborMap items)
    (before : zsd.Before memory (map.bytes ++ rest)) (elem : 0 < zsd.elemCount) (backup : 0 < zsd.backups) :
    ∃ elems, zcbor.mapStartDecode memory zsd = some (zsd.entered map.head.length elems map.indefinite) ∧
      (zsd.entered map.head.length elems map.indefinite).InMap memory map.pairs map.indefinite rest := by
  have few := pairsBytes_length_ge map.pairs map.areItems
  rw [CborMap.bytes, List.append_assoc, List.append_assoc] at before
  have enough : 2 * map.pairs.length ≤ (pairsBytes map.pairs ++ (breakOf map.indefinite ++ rest)).length := by
    rw [List.length_append]
    omega
  obtain ⟨elems, started, count⟩ := reads.mapStart map.isHead before enough elem backup
  refine ⟨elems, started, before.entered elems map.indefinite, rfl, ?_⟩
  split_ifs at count ⊢ with isIndefinite
  · simp only [isIndefinite, breakOf, if_true, List.length_append, List.length_singleton] at count
    simp only [ZcborState.entered]
    omega
  · exact count

theorem pastPairs_eq (zsd : ZcborState) (pairs : List (List UInt8 × List UInt8)) :
    zsd.pastPairs pairs = { zsd with
      payload := zsd.payload + (pairsBytes pairs).length
      elemCount := zsd.elemCount - 2 * pairs.length } := by
  induction pairs generalizing zsd with
  | nil => rfl
  | cons pair pairs ih =>
    have elems : zsd.elemCount - 1 - 1 - 2 * pairs.length = zsd.elemCount - 2 * (pairs.length + 1) := by omega
    rw [ZcborState.pastPairs, List.foldl_cons, ← ZcborState.pastPairs, ih]
    simp only [ZcborState.pastPair, ZcborState.past, pairsBytes_cons, List.length_append, List.length_cons,
      Nat.add_assoc, elems]

theorem ZcborState.InMap.pastPairs (inMap : zsd.InMap memory pairs indefinite rest)
    (areItems : ∀ pair ∈ pairs, items.Item pair.1 ∧ items.Item pair.2) :
    (zsd.pastPairs pairs).InMap memory [] indefinite rest := by
  induction pairs generalizing zsd with
  | nil => exact inMap
  | cons pair pairs ih =>
    exact ih (inMap.next (areItems pair (List.mem_cons_self ..))) fun other member =>
      areItems other (List.mem_cons_of_mem _ member)

theorem CborMap.majorOf_bytes (map : CborMap items) (rest : List UInt8) : majorOf (map.bytes ++ rest) = some 5 := by
  have type : ∃ first ∈ map.head.head?, first.toNat / 32 = 5 := by
    have isHead := items.mapHead map.isHead
    generalize map.indefinite = indefinite, map.head = head at isHead
    cases isHead with
    | definite read =>
      obtain ⟨first, isFirst, type⟩ := Cbor.readHead_major read
      exact ⟨first, isFirst, type.symm⟩
    | indefinite => exact ⟨_, rfl, rfl⟩
  obtain ⟨first, isFirst, type⟩ := type
  obtain ⟨tail, head⟩ := List.head?_eq_some_iff.mp isFirst
  simp [CborMap.bytes, head, majorOf, type]

theorem Zcbor.Reads.endMap (reads : zcbor.Reads items) (map : CborMap items) (elems : Nat) (backup : 0 < zsd.backups)
    (inMap : (zsd.entered map.head.length elems map.indefinite).InMap memory map.pairs map.indefinite rest) :
    zcbor.mapEndDecode memory ((zsd.entered map.head.length elems map.indefinite).pastPairs map.pairs) =
      some (zsd.past map.bytes.length) := by
  have atEnd := inMap.pastPairs map.areItems
  have enclosing : ((zsd.entered map.head.length elems map.indefinite).pastPairs map.pairs).enclosing =
      (zsd.elemCount - 1, zsd.indefiniteLengthArray) :: zsd.enclosing := by
    rw [pastPairs_eq]
    rfl
  rw [reads.mapEnd map.isHead atEnd enclosing, pastPairs_eq]
  simp only [ZcborState.restored, ZcborState.entered, ZcborState.past, CborMap.bytes, List.length_append, Nat.add_assoc,
    Nat.sub_add_cancel backup]

end InMap

end Pouch
