import Pouch.GoliothSdk.CborItems
import Pouch.GoliothSdk.Settings

set_option autoImplicit false

/-!
# Runs of the settings decoder

Which callbacks a map of settings leads to, entry by entry.
-/

namespace Pouch

open ByteMemory

section Model

variable (items : CborItems) (handlers : List SettingsHandler)

def CborItems.setting (item : List UInt8) : Option SettingValue :=
  match items.text item with
  | some text => some (.string text)
  | none =>
    match items.int32 item with
    | some value => some (.int value)
    | none =>
      match items.float item with
      | some bits => some (.float bits)
      | none => (items.bool item).map .bool

def firstHandler (key : List UInt8) : Option (SettingsHandler × Nat) :=
  handlers.zipIdx.find? fun handler => handler.1.key.bytes = key

def entryCalls (label item : List UInt8) : List SettingCall :=
  match items.setting item with
  | some value => goliothSettingsReceiveOne handlers (settingKey label) value
  | none => []

def settingsOutcome : List (List UInt8 × List UInt8) → List SettingCall × Bool
  | [] => ([], true)
  | (label, item) :: pairs =>
    match items.text label with
    | none => ([], false)
    | some text => (entryCalls items handlers text item ++ (settingsOutcome pairs).1, (settingsOutcome pairs).2)

end Model

section Handlers

variable {items : CborItems} {handlers : List SettingsHandler}

theorem receiveOne_first (handlers : List SettingsHandler) (key : List UInt8) (value : SettingValue) :
    goliothSettingsReceiveOne handlers key value =
      match firstHandler handlers key with
      | none => []
      | some (handler, index) => if handler.type = value.type then [⟨index, value⟩] else [] := rfl

theorem receiveOne_eq_nil {key : List UInt8} {value : SettingValue} :
    goliothSettingsReceiveOne handlers key value = [] ↔
      ∀ first ∈ firstHandler handlers key, first.1.type ≠ value.type := by
  rw [receiveOne_first]
  cases firstHandler handlers key <;> simp

theorem settingsOutcome_texts_iff {pairs : List (List UInt8 × List UInt8)} :
    (settingsOutcome items handlers pairs).2 = true ↔ ∀ pair ∈ pairs, (items.text pair.1).isSome = true := by
  induction pairs with
  | nil => simp [settingsOutcome]
  | cons pair pairs ih =>
    rw [List.forall_mem_cons, ← ih, settingsOutcome]
    cases items.text pair.1 <;> simp

theorem settingsOutcome_nil_iff {pairs : List (List UInt8 × List UInt8)} :
    (settingsOutcome items handlers pairs).1 = [] ↔
      ∀ pair ∈ pairs.takeWhile fun pair => (items.text pair.1).isSome, ∀ label, items.text pair.1 = some label →
        ∀ value, items.setting pair.2 = some value →
          ∀ first ∈ firstHandler handlers (settingKey label), first.1.type ≠ value.type := by
  induction pairs with
  | nil => simp [settingsOutcome]
  | cons pair pairs ih =>
    cases text : items.text pair.1 with
    | none => simp [settingsOutcome, text]
    | some label =>
      have called : entryCalls items handlers label pair.2 = [] ↔ ∀ value, items.setting pair.2 = some value →
          ∀ first ∈ firstHandler handlers (settingKey label), first.1.type ≠ value.type := by
        simp only [← receiveOne_eq_nil, entryCalls]
        cases items.setting pair.2 <;> simp
      rw [settingsOutcome, List.takeWhile_cons_of_pos (by simp [text]), List.forall_mem_cons, ← ih]
      simp only [text, List.append_eq_nil_iff, called, Option.some.injEq, forall_eq']

end Handlers

section Runs

variable {zcbor : Zcbor} {items : CborItems} {memory : Memory} {zsd : ZcborState} {item rest : List UInt8}
  {indefinite : Bool}

theorem settingValueDecode_item (reads : zcbor.Reads items) (isItem : items.Item item)
    (before : zsd.Before memory (item ++ rest)) (elem : 0 < zsd.elemCount) :
    settingValueDecode zcbor memory zsd = (items.setting item).map (·, zsd.past item.length) := by
  have major := items.majorType isItem before
  unfold settingValueDecode CborItems.setting
  rw [reads.tstr isItem before elem, reads.int32 isItem before elem, reads.float isItem before elem,
    reads.bool isItem before elem]
  cases text : items.text item with
  | some read =>
    rw [items.textMajor text, Option.some.injEq] at major
    simp [major, ZcborString.bytes, items.textBytes text before]
  | none =>
    cases int : items.int32 item with
    | some value =>
      rcases items.int32Major int with type | type <;>
        rw [type, Option.some.injEq] at major <;> simp [major]
    | none =>
      cases float : items.float item with
      | some bits =>
        rw [items.floatMajor float, Option.some.injEq] at major
        simp [major]
      | none =>
        cases bool : items.bool item with
        | some value =>
          rw [items.boolMajor bool, Option.some.injEq] at major
          simp [major]
        | none => split_ifs <;> rfl

theorem settingsLoop_run (reads : zcbor.Reads items) (handlers : List SettingsHandler)
    (pairs : List (List UInt8 × List UInt8)) (areItems : ∀ pair ∈ pairs, items.Item pair.1 ∧ items.Item pair.2)
    (fuel : Nat) (zsd : ZcborState) (effects : SettingsEffects) (inMap : zsd.InMap memory pairs indefinite rest) :
    settingsLoop zcbor memory handlers fuel zsd effects =
      (if (settingsOutcome items handlers (pairs.take fuel)).2 then .ok (zsd.pastPairs (pairs.take fuel))
        else .error .ebadmsg,
        { effects with calls := effects.calls ++ (settingsOutcome items handlers (pairs.take fuel)).1 }) := by
  induction pairs generalizing fuel zsd effects with
  | nil =>
    cases fuel with
    | zero => simp [settingsLoop, settingsOutcome, ZcborState.pastPairs]
    | succ fuel => simp [settingsLoop, inMap.atEnd, settingsOutcome, ZcborState.pastPairs]
  | cons pair pairs ih =>
    obtain ⟨label, item⟩ := pair
    have isPair := areItems (label, item) (List.mem_cons_self ..)
    have others := fun other member => areItems other (List.mem_cons_of_mem _ member)
    cases fuel with
    | zero => simp [settingsLoop, settingsOutcome, ZcborState.pastPairs]
    | succ fuel =>
      have next := ih others fuel (zsd.pastPair (label, item))
      have value := settingValueDecode_item reads isPair.2 inMap.value (inMap.valueElem isPair.1)
      simp only [settingsLoop, inMap.notEnd isPair.1, Bool.false_eq_true, if_false,
        reads.tstr isPair.1 inMap.key inMap.keyElem, List.take_succ_cons, settingsOutcome]
      cases text : items.text label with
      | none => simp
      | some read =>
        simp only [Option.map_some, value, ZcborString.bytes, items.textBytes text inMap.key]
        cases setting : items.setting item with
        | some value =>
          simp only [Option.map_some]
          refine (next _ (inMap.next isPair)).trans ?_
          simp [entryCalls, setting, ZcborState.pastPairs]
        | none =>
          have skipped := reads.skip isPair.2 inMap.value (inMap.valueElem isPair.1)
          simp only [Option.map_none, skipped]
          refine (next _ (inMap.next isPair)).trans ?_
          simp [entryCalls, setting, ZcborState.pastPairs]

theorem settingsDecode_map (reads : zcbor.Reads items) (handlers : List SettingsHandler) (map : CborMap items)
    (before : zsd.Before memory (map.bytes ++ rest)) (elem : 0 < zsd.elemCount) (backup : 0 < zsd.backups)
    (fuel : Nat) (enough : map.pairs.length ≤ fuel) (effects : SettingsEffects) :
    settingsDecode zcbor memory handlers fuel zsd effects =
      (if (settingsOutcome items handlers map.pairs).2 then .ok (zsd.past map.bytes.length) else .error .ebadmsg,
        { effects with calls := effects.calls ++ (settingsOutcome items handlers map.pairs).1 }) := by
  have noNil : zcbor.nilExpect memory zsd = none := by
    apply reads.nilOther before
    rw [map.majorOf_bytes]
    decide
  obtain ⟨elems, started, inMap⟩ := reads.enterMap map before elem backup
  have loop := settingsLoop_run reads handlers map.pairs map.areItems fuel _ effects inMap
  rw [List.take_of_length_le enough] at loop
  simp only [settingsDecode, noNil, started, loop]
  split_ifs
  · simp only [reads.endMap map elems backup inMap]
  · rfl

theorem settingsDecode_other (reads : zcbor.Reads items) (handlers : List SettingsHandler)
    (isItem : items.Item item) (other : majorOf item ≠ some 5) (before : zsd.Before memory (item ++ rest))
    (fuel : Nat) (effects : SettingsEffects) :
    ∃ err, settingsDecode zcbor memory handlers fuel zsd effects = (.error err, effects) := by
  unfold settingsDecode
  cases zcbor.nilExpect memory zsd with
  | some _ => exact ⟨_, rfl⟩
  | none => exact ⟨.ebadmsg, by rw [reads.mapStartOther isItem other before]⟩

end Runs

end Pouch
