import Pouch.GoliothSdk.MapCompleteness

set_option autoImplicit false

/-!
# Where a map is left

The loop of `zcbor_map_decode` ends with the last entry that is expected, and the map is left there, with whatever
is behind that entry still in front of the decoder.
-/

namespace Pouch

open ByteMemory

section Model

variable (items : CborItems) {Values : Type} (entries : List (MapEntry Values))

def isExpected (item : List UInt8) : Bool :=
  (items.entryKey item).any fun key => key ∈ entries.map (·.key)

def EachOnce (pairs : List (List UInt8 × List UInt8)) : Prop :=
  ((pairs.filterMap fun pair => items.entryKey pair.1).filter fun key => key ∈ entries.map (·.key)).Perm
    (entries.map (·.key))

def LastExpected (pairs : List (List UInt8 × List UInt8)) : Prop :=
  ∀ pair ∈ pairs.getLast?, isExpected items entries pair.1 = true

def OnlyExpectedTaken (memory : Memory) (address : Nat) (key : MapKey) (pairs : List (List UInt8 × List UInt8)) :
    Prop :=
  ∀ mark ∈ marks items memory entries address key pairs, mark.taken.isSome = true →
    isExpected items entries mark.item = true

instance (pairs : List (List UInt8 × List UInt8)) : Decidable (EachOnce items entries pairs) :=
  inferInstanceAs (Decidable (List.Perm _ _))

end Model

section Expected

variable {zcbor : Zcbor} {memory : Memory} {items : CborItems} {Values : Type} {entries : List (MapEntry Values)}
  {zsd next : ZcborState} {rest : List UInt8}

theorem EachOnce.count {pairs : List (List UInt8 × List UInt8)} (once : EachOnce items entries pairs) :
    pairs.countP (fun pair => isExpected items entries pair.1) = entries.length := by
  have length := once.length_eq
  rw [List.length_map] at length
  rw [← length, ← List.countP_eq_length_filter, List.countP_filterMap]
  apply List.countP_congr
  intro pair _
  unfold isExpected
  cases items.entryKey pair.1 <;> rfl

theorem marks_items (items : CborItems) (memory : Memory) (entries : List (MapEntry Values)) (address : Nat)
    (key : MapKey) (pairs : List (List UInt8 × List UInt8)) :
    (marks items memory entries address key pairs).map (·.item) <+: pairs.map Prod.fst := by
  induction pairs generalizing address key with
  | nil => simp [marks]
  | cons pair pairs ih =>
    simp only [marks, List.map_cons]
    cases items.readKey address key pair.1 with
    | none => exact List.nil_prefix
    | some read => exact List.cons_prefix_cons.mpr ⟨rfl, ih _ read⟩

theorem expected_taken (items : CborItems) (entries : List (MapEntry Values))
    (pairs : List (List UInt8 × List UInt8)) (zsd : ZcborState) (key : MapKey)
    (before : zsd.Before memory (pairsBytes pairs ++ rest)) :
    ∀ mark ∈ marks items memory entries zsd.payload key pairs, isExpected items entries mark.item = true →
      mark.taken.isSome = true := by
  induction pairs generalizing zsd key with
  | nil => simp [marks]
  | cons pair pairs ih =>
    rw [pairsBytes_cons, List.append_assoc, List.append_assoc] at before
    simp only [marks]
    cases read : items.readKey zsd.payload key pair.1 with
    | none => simp
    | some read' =>
      simp only [List.mem_cons, forall_eq_or_imp, Option.isSome_map]
      refine ⟨?_, ih (zsd.pastPair pair) read' before.past.past⟩
      intro expected
      simp only [isExpected, Option.any_eq_true, decide_eq_true_eq, List.mem_map] at expected
      obtain ⟨_, equals, entry, isEntry, rfl⟩ := expected
      exact List.find?_isSome.mpr ⟨entry, isEntry, isAt_entryKey before equals read⟩

theorem takenIn_countP (marks : List Mark) :
    (takenIn marks).length = marks.countP fun mark => mark.taken.isSome := by
  rw [takenIn_length, List.countP_eq_length_filter]

theorem countP_items (address : Nat) (key : MapKey) (pairs : List (List UInt8 × List UInt8)) (count : Nat)
    (marked : count ≤ (marks items memory entries address key pairs).length) (wanted : List UInt8 → Bool) :
    ((marks items memory entries address key pairs).take count).countP (fun mark => wanted mark.item) =
      (pairs.take count).countP fun pair => wanted pair.1 := by
  have same : ((marks items memory entries address key pairs).take count).map (·.item) =
      (pairs.take count).map Prod.fst := by
    obtain ⟨behind, whole⟩ := marks_items items memory entries address key pairs
    rw [List.map_take, List.map_take, ← whole, List.take_append_of_le_length (by rwa [List.length_map])]
  have counted := congrArg (List.countP wanted) same
  rwa [List.countP_map, List.countP_map] at counted

variable {map : CborMap items} {address : Nat} {key : MapKey} {calls : List (Nat × EntryKey)} {count : Nat}

theorem MapRan.last_taken {start : ZcborState} {marks : List Mark} (whole : count = marks.length)
    (ran : MapRan map entries start marks next calls count) : ∀ mark ∈ marks.getLast?, mark.taken.isSome = true := by
  intro mark isLast
  obtain ⟨front, rfl⟩ := List.getLast?_eq_some_iff.mp isLast
  have all := ran.all
  have missing := ran.missing front.length (by simp [whole])
  rw [List.take_left, takenIn_countP] at missing
  rw [List.take_of_length_le whole.ge, takenIn_countP, List.countP_append] at all
  cases isTaken : mark.taken.isSome with
  | true => rfl
  | false =>
    simp only [List.countP_cons, isTaken, List.countP_nil, Bool.false_eq_true, if_false] at all
    omega

theorem MapRan.whole_iff (before : zsd.Before memory (pairsBytes map.pairs ++ rest))
    {start : ZcborState} (once : EachOnce items entries map.pairs)
    (ran : MapRan map entries start (marks items memory entries zsd.payload key map.pairs) next calls count) :
    count = map.pairs.length ↔
      LastExpected items entries map.pairs ∧ OnlyExpectedTaken items entries memory zsd.payload key map.pairs := by
  have taken := expected_taken items entries map.pairs zsd key before
  have few := (marks_items items memory entries zsd.payload key map.pairs).length_le
  rw [List.length_map, List.length_map] at few
  have expected := countP_items zsd.payload key map.pairs count ran.marked (isExpected items entries)
  have all := ran.all
  rw [takenIn_countP] at all
  constructor
  · rintro rfl
    rw [List.take_of_length_le (Nat.le_refl _), once.count] at expected
    rw [List.take_of_length_le few] at expected all
    have only := Selection.imp_of_countP_eq _ taken (expected.trans all.symm)
    refine ⟨?_, only⟩
    intro pair isLast
    obtain ⟨behind, whole⟩ := marks_items items memory entries zsd.payload key map.pairs
    have length := congrArg List.length whole
    rw [List.length_append, List.length_map, List.length_map] at length
    have marked := ran.marked
    obtain rfl : behind = [] := List.length_eq_zero_iff.mp (by omega)
    have lastItem := congrArg List.getLast? whole
    rw [List.append_nil, List.getLast?_map, List.getLast?_map, Option.mem_def.mp isLast, Option.map_some] at lastItem
    obtain ⟨mark, isMark, item⟩ := Option.map_eq_some_iff.mp lastItem
    rw [← item]
    exact only mark (List.mem_of_getLast? isMark) (ran.last_taken (by omega) mark isMark)
  · rintro ⟨last, only⟩
    have same := List.countP_congr fun mark (member : mark ∈ (marks items memory entries zsd.payload key map.pairs).take
      count) => ⟨only mark (List.mem_of_mem_take member), taken mark (List.mem_of_mem_take member)⟩
    have counted := once.count
    rw [← List.take_append_drop count map.pairs, List.countP_append] at counted
    have behind : (map.pairs.drop count).countP (fun pair => isExpected items entries pair.1) = 0 := by omega
    by_contra notWhole
    have within := ran.within
    have some' : map.pairs.drop count ≠ [] := by
      rw [ne_eq, List.drop_eq_nil_iff]
      omega
    have isLast := List.getLast?_eq_some_getLast some'
    have isLast' : map.pairs.getLast? = some ((map.pairs.drop count).getLast some') := by
      rw [← isLast, List.getLast?_drop, if_neg (by omega)]
    exact List.countP_eq_zero.mp behind _ (List.getLast_mem some') (last _ isLast')

theorem past_inj {first second : Nat} : zsd.past first = zsd.past second ↔ first = second := by
  constructor
  · intro same
    exact Nat.add_left_cancel (congrArg ZcborState.payload same)
  · rintro rfl
    rfl

end Expected

/-- A map with each expected entry once is decoded to its end if and only if it is of definite length, its last entry
is an expected one, and no other key is taken for that of an expected one. -/
theorem map_decode_consumes_iff (zcbor : Zcbor) (items : CborItems) (reads : zcbor.Reads items) {Values : Type}
    (memory : Memory) (entries : List (MapEntry Values))
    (advances : ∀ entry ∈ entries, Advances items memory entry) (map : CborMap items)
    (once : EachOnce items entries map.pairs) (zsd next : ZcborState) (rest : List UInt8)
    (atMap : zsd.AtMap memory map rest) (fuel : Nat) (key : MapKey) (values after : Values)
    (decoded : zcborMapDecode zcbor memory entries fuel key zsd values = (.ok next, after)) :
    next = zsd.past map.bytes.length ↔
      map.indefinite = false ∧ LastExpected items entries map.pairs ∧
        OnlyExpectedTaken items entries memory (zsd.payload + map.head.length) key map.pairs := by
  obtain ⟨count, ran⟩ := mapDecode_ran reads advances map atMap decoded
  have inside := atMap.before
  rw [CborMap.bytes, List.append_assoc, List.append_assoc] at inside
  have whole := ran.whole_iff inside.past once
  have pairs := congrArg List.length (congrArg pairsBytes (List.take_append_drop count map.pairs))
  rw [pairsBytes_append, List.length_append] at pairs
  have behind := pairsBytes_length_ge (map.pairs.drop count) fun pair member =>
    map.areItems pair (List.mem_of_mem_drop member)
  have within := ran.within
  have address : (zsd.past map.head.length).payload = zsd.payload + map.head.length := rfl
  rw [List.length_drop] at behind
  rw [address] at whole
  rw [← whole, ran.state, past_inj, CborMap.bytes, List.length_append, List.length_append, Nat.add_left_cancel_iff]
  constructor
  · intro same
    have definite : (breakOf map.indefinite).length = 0 := by omega
    refine ⟨?_, by omega⟩
    cases isIndefinite : map.indefinite with
    | false => rfl
    | true => simp [isIndefinite, breakOf] at definite
  · rintro ⟨definite, all⟩
    rw [all, List.take_length, definite]
    rfl

theorem complete_component_consumed :
    ∃ next after, sampleDecode completeComponent = (.ok next, after) ∧
      next = (zcborStateD 3 0 completeComponent.bytes.length).past completeComponent.bytes.length := by
  refine ⟨_, _, rfl, ?_⟩
  exact (map_decode_consumes_iff cborDecoder definiteItems cborDecoder_reads _ (sampleEntries completeComponent)
    (componentEntries_advance cborDecoder_reads _ sampleOtaConfig) completeComponent (by decide +kernel)
    (zcborStateD 3 0 completeComponent.bytes.length) _ []
    ⟨by simpa using memoryOf_before completeComponent.bytes 3, by decide, by decide⟩
    (completeComponent.bytes.length + 1) ⟨.u32, 0, 0⟩ blankFields _ rfl).mpr
    ⟨rfl, by rintro pair ⟨⟩; rfl, by unfold OnlyExpectedTaken; decide +kernel⟩

-- The format also has a URI, with key 5.
def uriComponent : CborMap definiteItems where
  head := [0xa5]
  indefinite := false
  pairs := completeComponent.pairs ++ [([5], [0x61, 0x75])]
  isHead := ⟨rfl, rfl⟩
  areItems := by decide +kernel

/-- A component with its URI behind the expected entries is left in front of the URI. -/
theorem uri_not_consumed :
    EachOnce definiteItems (sampleEntries uriComponent) uriComponent.pairs ∧
      ∃ next after, sampleDecode uriComponent = (.ok next, after) ∧
        next.payload + 3 = uriComponent.bytes.length ∧
        (memoryOf uriComponent.bytes) next.payload = 5 ∧
        next ≠ (zcborStateD 3 0 uriComponent.bytes.length).past uriComponent.bytes.length := by
  refine ⟨by decide +kernel, _, _, rfl, by decide +kernel, by decide +kernel, ?_⟩
  intro same
  have payload := congrArg ZcborState.payload same
  revert payload
  decide +kernel

end Pouch
