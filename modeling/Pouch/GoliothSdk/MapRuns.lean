import Mathlib.Data.List.Forall2
import Pouch.GoliothSdk.CborItems
import Pouch.GoliothSdk.MapDecoding

set_option autoImplicit false

/-!
# Runs of the map decoder

Which entry each key of a map is taken for, how far the loop goes, and which callbacks it calls on what.
-/

namespace Pouch

open ByteMemory

section Simulation

variable {First Second : Type} (zcbor : Zcbor) (memory : Memory)

/-- Entries for one key, whose callbacks do the same to related values. -/
structure Simulates (related : First → Second → Prop) (entry : MapEntry First) (other : MapEntry Second) : Prop where
  key : entry.key = other.key
  status : ∀ (zsd : ZcborState) {values others}, related values others →
    (entry.decode zsd values).1 = (other.decode zsd others).1
  values : ∀ (zsd : ZcborState) {values others}, related values others →
    related (entry.decode zsd values).2 (other.decode zsd others).2

variable {related : First → Second → Prop} {entries : List (MapEntry First)} {others : List (MapEntry Second)}

theorem mapEntryGet_simulates (simulates : List.Forall₂ (Simulates related) entries others) (key : MapKey) :
    (mapEntryGet memory entries key = none ∧ mapEntryGet memory others key = none) ∨
      ∃ entry other, mapEntryGet memory entries key = some entry ∧ mapEntryGet memory others key = some other ∧
        Simulates related entry other := by
  induction simulates with
  | nil => exact .inl ⟨rfl, rfl⟩
  | @cons entry other entries others both rest ih =>
    simp only [mapEntryGet, List.find?_cons, ← both.key]
    cases entry.key.isAt memory key with
    | true => exact .inr ⟨entry, other, rfl, rfl, both⟩
    | false => exact ih

theorem mapDecodeLoop_simulates (simulates : List.Forall₂ (Simulates related) entries others) (fuel : Nat) :
    ∀ (numDecoded : Nat) (zsd : ZcborState) (key : MapKey) (values : First) (state : Second), related values state →
      (mapDecodeLoop zcbor memory entries fuel numDecoded zsd key values).1 =
          (mapDecodeLoop zcbor memory others fuel numDecoded zsd key state).1 ∧
        related (mapDecodeLoop zcbor memory entries fuel numDecoded zsd key values).2
          (mapDecodeLoop zcbor memory others fuel numDecoded zsd key state).2 := by
  induction fuel with
  | zero => exact fun _ _ _ _ _ same => ⟨rfl, same⟩
  | succ fuel ih =>
    intro numDecoded zsd key values state same
    simp only [mapDecodeLoop, simulates.length_eq]
    split_ifs
    · cases zcborMapKeyDecode zcbor memory zsd key with
      | error err => exact ⟨rfl, same⟩
      | ok read =>
        obtain ⟨read, inside⟩ := read
        simp only
        rcases mapEntryGet_simulates memory simulates read with ⟨absent, absent'⟩ | ⟨entry, other, found, found', both⟩
        · simp only [absent, absent']
          cases zcbor.anySkip memory inside with
          | none => exact ⟨rfl, same⟩
          | some behind => exact ih numDecoded behind read values state same
        · have status := both.status inside same
          have after := both.values inside same
          simp only [found, found']
          generalize entry.decode inside values = first at status after
          generalize other.decode inside state = second at status after
          obtain ⟨result, values⟩ := first
          obtain ⟨result', state⟩ := second
          obtain rfl : result = result' := status
          cases result with
          | error err => exact ⟨rfl, after⟩
          | ok behind => exact ih (numDecoded + 1) behind read values state after
    · exact ⟨rfl, same⟩

theorem zcborMapDecode_simulates (simulates : List.Forall₂ (Simulates related) entries others) (fuel : Nat)
    (key : MapKey) (zsd : ZcborState) {values : First} {state : Second} (same : related values state) :
    (zcborMapDecode zcbor memory entries fuel key zsd values).1 =
        (zcborMapDecode zcbor memory others fuel key zsd state).1 ∧
      related (zcborMapDecode zcbor memory entries fuel key zsd values).2
        (zcborMapDecode zcbor memory others fuel key zsd state).2 := by
  simp only [zcborMapDecode, simulates.length_eq]
  cases zcbor.mapStartDecode memory zsd with
  | none => exact ⟨rfl, same⟩
  | some inside =>
    have loop := mapDecodeLoop_simulates zcbor memory simulates fuel 0 inside key values state same
    simp only
    generalize mapDecodeLoop zcbor memory entries fuel 0 inside key values = first at loop
    generalize mapDecodeLoop zcbor memory others fuel 0 inside key state = second at loop
    obtain ⟨result, values⟩ := first
    obtain ⟨result', state⟩ := second
    obtain ⟨status, after⟩ := loop
    obtain rfl : result = result' := status
    cases result with
    | error err => exact ⟨rfl, after⟩
    | ok decoded =>
      simp only
      split_ifs
      · exact ⟨rfl, after⟩
      all_goals cases zcbor.listMapEndForceDecode memory decoded.2 <;> exact ⟨rfl, after⟩

end Simulation

section Keys

variable (items : CborItems) (memory : Memory) {Values : Type}

def CborItems.entryKey (item : List UInt8) : Option EntryKey :=
  match items.text item with
  | some text => some (.tstr text)
  | none => (items.uint32 item).map .u32

-- What the variable of the key holds when an item at this address was decoded into it.
def CborItems.readKey (address : Nat) (key : MapKey) (item : List UInt8) : Option MapKey :=
  match items.text item with
  | some text => some (.putTstr ⟨address + (item.length - text.length), text.length⟩)
  | none => (items.uint32 item).map key.putU32

structure Mark where
  item : List UInt8
  value : Nat
  taken : Option EntryKey

-- The keys of the map as far as they can be decoded, with what the variable of the key holds at first.
def marks (entries : List (MapEntry Values)) : Nat → MapKey → List (List UInt8 × List UInt8) → List Mark
  | _, _, [] => []
  | address, key, (item, value) :: pairs =>
    match items.readKey address key item with
    | none => []
    | some key =>
      ⟨item, address + item.length, (mapEntryGet memory entries key).map (·.key)⟩ ::
        marks entries (address + item.length + value.length) key pairs

def takenIn (marks : List Mark) : List (Nat × EntryKey) :=
  marks.filterMap fun mark => mark.taken.map (mark.value, ·)

def MapEntry.logged (entry : MapEntry Values) : MapEntry (Values × List (Nat × EntryKey)) where
  key := entry.key
  decode zsd state :=
    match entry.decode zsd state.1 with
    | (.error err, values) => (.error err, values, state.2)
    | (.ok next, values) => (.ok next, values, state.2 ++ [(zsd.payload, entry.key)])

def Advances (entry : MapEntry Values) : Prop :=
  ∀ (zsd next : ZcborState) (item rest : List UInt8) (values after : Values), items.Item item →
    zsd.Before memory (item ++ rest) → 0 < zsd.elemCount → entry.decode zsd values = (.ok next, after) →
      next = zsd.past item.length

end Keys

section Loop

variable {zcbor : Zcbor} {items : CborItems} {memory : Memory} {Values : Type} {entries : List (MapEntry Values)}
  {zsd : ZcborState} {item rest : List UInt8} {indefinite : Bool}

theorem keyDecode_item (reads : zcbor.Reads items) (isItem : items.Item item)
    (before : zsd.Before memory (item ++ rest)) (elem : 0 < zsd.elemCount) (key : MapKey) :
    zcborMapKeyDecode zcbor memory zsd key =
      match items.readKey zsd.payload key item with
      | none => .error .ebadmsg
      | some key => .ok (key, zsd.past item.length) := by
  have major := items.majorType isItem before
  unfold zcborMapKeyDecode CborItems.readKey
  rw [reads.tstr isItem before elem, reads.uint32 isItem before elem]
  cases text : items.text item with
  | some read =>
    rw [items.textMajor text, Option.some.injEq] at major
    simp [major]
  | none =>
    cases number : items.uint32 item with
    | some value =>
      rw [items.uint32Major number, Option.some.injEq] at major
      simp [major]
    | none => split_ifs <;> rfl

theorem isAt_entryKey (before : zsd.Before memory (item ++ rest)) {key read : MapKey} {entryKey : EntryKey}
    (equals : items.entryKey item = some entryKey) (decoded : items.readKey zsd.payload key item = some read) :
    entryKey.isAt memory read = true := by
  unfold CborItems.entryKey at equals
  unfold CborItems.readKey at decoded
  cases text : items.text item with
  | some label =>
    simp only [text, Option.some.injEq] at equals decoded
    subst equals decoded
    rw [isAt_putTstr, decide_eq_true_iff]
    exact items.textBytes text before
  | none =>
    simp only [text, Option.map_eq_some_iff] at equals decoded
    obtain ⟨value, number, rfl⟩ := equals
    obtain ⟨value', number', rfl⟩ := decoded
    obtain rfl : value = value' := Option.some.inj (number.symm.trans number')
    have bound := items.uint32Bound number
    simp only [EntryKey.isAt, MapKey.u32, MapKey.putU32]
    apply decide_eq_true
    omega

theorem mapDecodeLoop_text (reads : zcbor.Reads items) {pair : List UInt8 × List UInt8}
    {pairs : List (List UInt8 × List UInt8)} (isItem : items.Item pair.1)
    (inMap : zsd.InMap memory (pair :: pairs) indefinite rest) {label : List UInt8}
    (text : items.text pair.1 = some label) {entry : MapEntry Values}
    (found : ∀ read : ZcborString, read.bytes memory = label → mapEntryGet memory entries (.putTstr read) = some entry)
    (fuel numDecoded : Nat) (more : numDecoded < entries.length) (key : MapKey) (values : Values) :
    ∃ nextKey, mapDecodeLoop zcbor memory entries (fuel + 1) numDecoded zsd key values =
      match entry.decode (zsd.past pair.1.length) values with
      | (.error err, values) => (.error err, values)
      | (.ok next, values) => mapDecodeLoop zcbor memory entries fuel (numDecoded + 1) next nextKey values := by
  have get := found ⟨zsd.payload + (pair.1.length - label.length), label.length⟩ (items.textBytes text inMap.key)
  refine ⟨.putTstr ⟨zsd.payload + (pair.1.length - label.length), label.length⟩, ?_⟩
  rw [mapDecodeLoop_succ, if_pos ⟨more, inMap.notEnd isItem⟩, keyDecode_item reads isItem inMap.key inMap.keyElem]
  cases decoded : entry.decode (zsd.past pair.1.length) values with
  | mk status after =>
    simp only [CborItems.readKey, text, valueDecode_entry get, get, decoded]
    cases status <;> rfl

theorem mapDecodeLoop_done {numDecoded : Nat} (all : entries.length ≤ numDecoded) (fuel : Nat) (key : MapKey)
    (values : Values) : (mapDecodeLoop zcbor memory entries fuel numDecoded zsd key values).2 = values := by
  cases fuel with
  | zero => rfl
  | succ fuel => rw [mapDecodeLoop_succ, if_neg (by omega)]

theorem mapEntryGet_logged (key : MapKey) :
    mapEntryGet memory (entries.map MapEntry.logged) key = (mapEntryGet memory entries key).map MapEntry.logged :=
  List.find?_map

/-- What is known of the loop when it is left after `count` pairs: every callback of the keys up to there was
called, and before each of these keys some were still missing. -/
structure RanOver (wanted : Nat) (zsd : ZcborState) (pairs : List (List UInt8 × List UInt8)) (marks : List Mark)
    (numDecoded num : Nat) (last : ZcborState) (calls : List (Nat × EntryKey)) (count : Nat) : Prop where
  within : count ≤ pairs.length
  marked : count ≤ marks.length
  state : last = zsd.pastPairs (pairs.take count)
  decoded : num = numDecoded + (takenIn (marks.take count)).length
  calls : calls = takenIn (marks.take count)
  missing : ∀ fewer < count, numDecoded + (takenIn (marks.take fewer)).length < wanted

theorem RanOver.start (wanted : Nat) (zsd : ZcborState) (pairs : List (List UInt8 × List UInt8)) (marks : List Mark)
    (numDecoded : Nat) : RanOver wanted zsd pairs marks numDecoded numDecoded zsd [] 0 :=
  ⟨Nat.zero_le _, Nat.zero_le _, rfl, rfl, rfl, fun _ fewer => absurd fewer (Nat.not_lt_zero _)⟩

theorem RanOver.cons {wanted numDecoded num count : Nat} {pair : List UInt8 × List UInt8}
    {pairs : List (List UInt8 × List UInt8)} {mark : Mark} {marks : List Mark} {last : ZcborState}
    {calls : List (Nat × EntryKey)} (more : numDecoded < wanted)
    (ran : RanOver wanted (zsd.pastPair pair) pairs marks (numDecoded + (takenIn [mark]).length) num last calls count) :
    RanOver wanted zsd (pair :: pairs) (mark :: marks) numDecoded num last (takenIn [mark] ++ calls) (count + 1) := by
  have taken (marks : List Mark) : takenIn (mark :: marks) = takenIn [mark] ++ takenIn marks := by
    rw [takenIn, takenIn, takenIn, ← List.filterMap_append, List.singleton_append]
  refine ⟨Nat.succ_le_succ ran.within, Nat.succ_le_succ ran.marked, ran.state, ?_, ?_, ?_⟩
  · rw [List.take_succ_cons, taken (marks.take count), List.length_append, ran.decoded]
    omega
  · rw [List.take_succ_cons, taken (marks.take count), ran.calls]
  · intro fewer fewerThan
    cases fewer with
    | zero => simpa [takenIn] using more
    | succ fewer =>
      have before := ran.missing fewer (Nat.lt_of_succ_lt_succ fewerThan)
      rw [List.take_succ_cons, taken (marks.take fewer), List.length_append]
      omega

theorem mapDecodeLoop_ran (reads : zcbor.Reads items) (advances : ∀ entry ∈ entries, Advances items memory entry)
    (pairs : List (List UInt8 × List UInt8)) (areItems : ∀ pair ∈ pairs, items.Item pair.1 ∧ items.Item pair.2)
    (fuel numDecoded num : Nat) (zsd last : ZcborState) (key : MapKey) (values after : Values)
    (log calls : List (Nat × EntryKey)) (inMap : zsd.InMap memory pairs indefinite rest)
    (decoded : mapDecodeLoop zcbor memory (entries.map MapEntry.logged) fuel numDecoded zsd key (values, log) =
      (.ok (num, last), after, calls)) :
    ∃ count more, calls = log ++ more ∧
      RanOver entries.length zsd pairs (marks items memory entries zsd.payload key pairs) numDecoded num last more
        count := by
  have stopped (pairs : List (List UInt8 × List UInt8)) (zsd : ZcborState) (key : MapKey) (numDecoded : Nat)
      (values : Values) (log : List (Nat × EntryKey))
      (same : (Except.ok (numDecoded, zsd), values, log) =
        ((Except.ok (num, last), after, calls) : Except DecodeError (Nat × ZcborState) × Values × _)) :
      ∃ count more, calls = log ++ more ∧
        RanOver entries.length zsd pairs (marks items memory entries zsd.payload key pairs) numDecoded num last more
          count := by
    simp only [Prod.mk.injEq, Except.ok.injEq] at same
    obtain ⟨⟨rfl, rfl⟩, rfl, rfl⟩ := same
    exact ⟨0, [], (List.append_nil _).symm, .start ..⟩
  induction pairs generalizing fuel numDecoded zsd key values log with
  | nil =>
    cases fuel with
    | zero => exact stopped _ _ _ _ _ _ decoded
    | succ fuel =>
      rw [mapDecodeLoop_succ, inMap.atEnd, if_neg (by simp)] at decoded
      exact stopped _ _ _ _ _ _ decoded
  | cons pair pairs ih =>
    have isPair := areItems pair (List.mem_cons_self ..)
    have others := fun other member => areItems other (List.mem_cons_of_mem _ member)
    cases fuel with
    | zero => exact stopped _ _ _ _ _ _ decoded
    | succ fuel =>
      rw [mapDecodeLoop_succ, inMap.notEnd isPair.1, List.length_map] at decoded
      by_cases more : numDecoded < entries.length
      · rw [if_pos ⟨more, rfl⟩, keyDecode_item reads isPair.1 inMap.key inMap.keyElem] at decoded
        cases keyRead : items.readKey zsd.payload key pair.1 with
        | none => simp [keyRead] at decoded
        | some read =>
          have atValue := inMap.valueElem isPair.1
          have next := inMap.next isPair
          have marked : marks items memory entries zsd.payload key (pair :: pairs) =
              ⟨pair.1, zsd.payload + pair.1.length, (mapEntryGet memory entries read).map (·.key)⟩ ::
                marks items memory entries (zsd.pastPair pair).payload read pairs := by
            simp only [marks, keyRead]
            rfl
          simp only [keyRead, valueDecode, mapEntryGet_logged] at decoded
          rw [marked]
          cases found : mapEntryGet memory entries read with
          | none =>
            simp only [found, Option.map_none, reads.skip isPair.2 inMap.value atValue, Option.isSome_none,
              Bool.false_eq_true, if_false] at decoded
            obtain ⟨count, calls, rfl, ran⟩ := ih others fuel numDecoded _ read values log next decoded
            exact ⟨count + 1, _, rfl, ran.cons more⟩
          | some entry =>
            simp only [found, Option.map_some, MapEntry.logged, Option.isSome_some, if_true] at decoded
            cases called : entry.decode (zsd.past pair.1.length) values with
            | mk status values =>
              cases status with
              | error err => simp [called] at decoded
              | ok behind =>
                obtain rfl := advances entry (List.mem_of_find?_eq_some found) _ _ _ _ _ _ isPair.2 inMap.value
                  atValue called
                simp only [called] at decoded
                obtain ⟨count, calls, rfl, ran⟩ := ih others fuel (numDecoded + 1) _ read values _ next decoded
                exact ⟨count + 1, _, List.append_assoc .., ran.cons more⟩
      · rw [if_neg (by simp [more])] at decoded
        exact stopped _ _ _ _ _ _ decoded

theorem RanOver.num_le {wanted numDecoded num count : Nat} {pairs : List (List UInt8 × List UInt8)}
    {marks : List Mark} {last : ZcborState} {calls : List (Nat × EntryKey)} (le : numDecoded ≤ wanted)
    (ran : RanOver wanted zsd pairs marks numDecoded num last calls count) : num ≤ wanted := by
  rw [ran.decoded]
  cases count with
  | zero => simpa [takenIn] using le
  | succ count =>
    have before := ran.missing count (Nat.lt_succ_self _)
    have one (marks : List Mark) (count : Nat) :
        (takenIn (marks.take (count + 1))).length ≤ (takenIn (marks.take count)).length + 1 := by
      rw [List.take_add_one, takenIn, List.filterMap_append, List.length_append, takenIn]
      have last := List.length_filterMap_le (fun mark : Mark => mark.taken.map (mark.value, ·)) marks[count]?.toList
      have single : marks[count]?.toList.length ≤ 1 := Option.length_toList_le
      omega
    have oneMore := one marks count
    omega

structure MapRan {items : CborItems} (map : CborMap items) (entries : List (MapEntry Values)) (zsd : ZcborState)
    (found : List Mark) (next : ZcborState) (calls : List (Nat × EntryKey)) (count : Nat) : Prop where
  within : count ≤ map.pairs.length
  marked : count ≤ found.length
  nonempty : entries ≠ []
  all : (takenIn (found.take count)).length = entries.length
  calls : calls = takenIn (found.take count)
  missing : ∀ fewer < count, (takenIn (found.take fewer)).length < entries.length
  state : next = zsd.past (map.head.length + (pairsBytes (map.pairs.take count)).length)

theorem zcborMapDecode_ran (reads : zcbor.Reads items) (advances : ∀ entry ∈ entries, Advances items memory entry)
    (map : CborMap items) (before : zsd.Before memory (map.bytes ++ rest)) (elem : 0 < zsd.elemCount)
    (backup : 0 < zsd.backups) (fuel : Nat) (key : MapKey) {next : ZcborState} {values after : Values}
    {calls : List (Nat × EntryKey)}
    (decoded : zcborMapDecode zcbor memory (entries.map MapEntry.logged) fuel key zsd (values, []) =
      (.ok next, after, calls)) :
    ∃ count, MapRan map entries zsd (marks items memory entries (zsd.payload + map.head.length) key map.pairs) next
      calls count := by
  obtain ⟨elems, started, inMap⟩ := reads.enterMap map before elem backup
  simp only [zcborMapDecode, started] at decoded
  cases loop : mapDecodeLoop zcbor memory (entries.map MapEntry.logged) fuel 0
      (zsd.entered map.head.length elems map.indefinite) key (values, []) with
  | mk status state =>
    obtain ⟨after', calls'⟩ := state
    cases status with
    | error err => simp [loop] at decoded
    | ok result =>
      obtain ⟨num, last⟩ := result
      obtain ⟨count, more, logged, ran⟩ :=
        mapDecodeLoop_ran reads advances map.pairs map.areItems fuel 0 num _ last key values after' [] calls' inMap loop
      have inside : (zsd.entered map.head.length elems map.indefinite).payload = zsd.payload + map.head.length := rfl
      rw [inside] at ran
      have atMost := ran.num_le (Nat.zero_le _)
      have enclosing : last.enclosing = (zsd.elemCount - 1, zsd.indefiniteLengthArray) :: zsd.enclosing := by
        rw [ran.state, pastPairs_eq]
        rfl
      simp only [loop, List.length_map, reads.listMapEndForce enclosing] at decoded
      split_ifs at decoded with short none'
      · simp at decoded
      · simp at decoded
      · simp only [Prod.mk.injEq, Except.ok.injEq] at decoded
        obtain ⟨rfl, rfl, rfl⟩ := decoded
        have full : num = entries.length := by omega
        have counted := ran.decoded
        rw [Nat.zero_add] at counted
        refine ⟨count, ran.within, ran.marked, ?_, by rw [← counted, full], by rw [logged, ran.calls]; rfl, ?_, ?_⟩
        · rintro rfl
          exact none' full
        · intro fewer fewerThan
          have missing := ran.missing fewer fewerThan
          omega
        · rw [ran.state, pastPairs_eq]
          simp only [ZcborState.restored, ZcborState.entered, ZcborState.past, Nat.add_assoc,
            Nat.sub_add_cancel backup]

end Loop

end Pouch
