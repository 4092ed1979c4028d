import Mathlib.Data.List.TakeWhile
import Pouch.GoliothSdk.ItemDecoder
import Pouch.GoliothSdk.SettingsRuns
import Pouch.Shared.Selection

set_option autoImplicit false

/-!
# Keys of settings

A setting is meant for the first handler with its label as the key, and with its type. The label is looked for as a C
string of limited length, and only one handler with that key is looked at.
-/

namespace Pouch

open ByteMemory

section Model

variable (handlers : List SettingsHandler)

def expectedHandler (label : List UInt8) (type : SettingType) : Option (SettingsHandler × Nat) :=
  handlers.zipIdx.find? fun handler => handler.1.key.bytes = label ∧ handler.1.type = type

def expectedCalls (label : List UInt8) : Option SettingValue → List SettingCall
  | none => []
  | some value =>
    match expectedHandler handlers label value.type with
    | none => []
    | some (_, index) => [⟨index, value⟩]

def callsWithin (zcbor : Zcbor) (memory : Memory) (inside : ZcborState) (iterations : Nat) : List SettingCall :=
  (settingsLoop zcbor memory handlers iterations inside ⟨0, []⟩).2.calls

/-- The decoder calls what is expected for each entry of the map, and nothing else. -/
def FiresOwn (zcbor : Zcbor) (items : CborItems) (memory : Memory) (pairs : List (List UInt8 × List UInt8))
    (fuel : Nat) (zsd : ZcborState) : Prop :=
  ∃ inside, zcbor.mapStartDecode memory zsd = some inside ∧
    (∀ effects, (settingsDecode zcbor memory handlers fuel zsd effects).2.calls =
      effects.calls ++ callsWithin handlers zcbor memory inside pairs.length) ∧
    ∀ index label item text, pairs[index]? = some (label, item) → items.text label = some text →
      callsWithin handlers zcbor memory inside (index + 1) =
        callsWithin handlers zcbor memory inside index ++ expectedCalls handlers text (items.setting item)

def FitsKey (label : List UInt8) : Prop := label.length ≤ goliothSettingsMaxNameLen ∧ 0 ∉ label

/-- For a label that fits, the first handler with that key has the type if any has. For another label, no handler has
it as its key with the type, and the first one with what is left of it as the key has another type. -/
structure OwnKey (label : List UInt8) (type : SettingType) : Prop where
  fits : FitsKey label → (∃ handler ∈ handlers, handler.key.bytes = label ∧ handler.type = type) →
    ∀ first ∈ firstHandler handlers label, first.1.type = type
  missing : ¬ FitsKey label → ∀ handler ∈ handlers, handler.key.bytes = label → handler.type ≠ type
  cut : ¬ FitsKey label → ∀ first ∈ firstHandler handlers (settingKey label), first.1.type ≠ type

def OwnKeys (items : CborItems) (pairs : List (List UInt8 × List UInt8)) : Prop :=
  ∀ pair ∈ pairs, ∀ text value, items.text pair.1 = some text → items.setting pair.2 = some value →
    OwnKey handlers text value.type

end Model

section Handlers

variable {handlers : List SettingsHandler} {label : List UInt8}

theorem settingKey_eq_iff : settingKey label = label ↔ FitsKey label := by
  constructor
  · intro same
    have cut : (settingKey label).length ≤ (label.take goliothSettingsMaxNameLen).length :=
      (List.takeWhile_prefix _).length_le
    rw [same, List.length_take] at cut
    refine ⟨by omega, ?_⟩
    intro nul
    rw [← same] at nul
    simpa using List.mem_takeWhile_imp nul
  · rintro ⟨short, noNul⟩
    rw [settingKey, List.take_of_length_le short]
    exact cString_of_noNul label fun _ member same => noNul (same ▸ member)

theorem firstHandler_none {key : List UInt8} :
    firstHandler handlers key = none ↔ ∀ handler ∈ handlers, handler.key.bytes ≠ key :=
  (Selection.find?_zipIdx_eq_none fun handler : SettingsHandler => handler.key.bytes = key).trans (by simp)

theorem expectedHandler_none {type : SettingType} :
    expectedHandler handlers label type = none ↔
      ∀ handler ∈ handlers, handler.key.bytes = label → handler.type ≠ type :=
  (Selection.find?_zipIdx_eq_none fun handler : SettingsHandler =>
    handler.key.bytes = label ∧ handler.type = type).trans (by simp)

theorem expectedHandler_first {first : SettingsHandler × Nat} {type : SettingType}
    (found : firstHandler handlers label = some first) (typed : first.1.type = type) :
    expectedHandler handlers label type = some first := by
  have named : first.1.key.bytes = label := by simpa using List.find?_some found
  apply Selection.find?_narrow _ found
  · simp [named, typed]
  · intro other _ both
    simp only [decide_eq_true_eq] at both ⊢
    exact both.1

theorem expectedCalls_eq_nil {value : SettingValue} :
    expectedCalls handlers label (some value) = [] ↔
      ∀ handler ∈ handlers, handler.key.bytes = label → handler.type ≠ value.type := by
  rw [← expectedHandler_none]
  simp only [expectedCalls]
  cases expectedHandler handlers label value.type <;> simp

theorem receiveOne_ne_expected {key : List UInt8} {value : SettingValue} (other : key ≠ label)
    (called : goliothSettingsReceiveOne handlers key value ≠ []) :
    goliothSettingsReceiveOne handlers key value ≠ expectedCalls handlers label (some value) := by
  rw [receiveOne_first] at called ⊢
  cases found : firstHandler handlers key with
  | none => simp [found] at called
  | some first =>
    have named : first.1.key.bytes = key := by simpa using List.find?_some found
    have number := List.mk_mem_zipIdx_iff_getElem?.mp (List.mem_of_find?_eq_some found)
    simp only [found] at called ⊢
    simp only [expectedCalls]
    split_ifs at called ⊢
    · cases expected : expectedHandler handlers label value.type with
      | none => simp
      | some second =>
        unfold expectedHandler at expected
        have meets := List.find?_some expected
        have number' := List.mk_mem_zipIdx_iff_getElem?.mp (List.mem_of_find?_eq_some expected)
        simp only [decide_eq_true_eq] at meets
        intro same
        simp only [List.cons.injEq, SettingCall.mk.injEq, and_true] at same
        rw [same, number', Option.some.injEq] at number
        exact other (by rw [← named, ← number, meets.1])
    · exact absurd rfl called

theorem receiveOne_expected_iff (value : SettingValue) :
    goliothSettingsReceiveOne handlers (settingKey label) value = expectedCalls handlers label (some value) ↔
      OwnKey handlers label value.type := by
  by_cases fits : FitsKey label
  · have ownKey : OwnKey handlers label value.type ↔
        ((∃ handler ∈ handlers, handler.key.bytes = label ∧ handler.type = value.type) →
          ∀ first ∈ firstHandler handlers label, first.1.type = value.type) :=
      ⟨fun own => own.fits fits, fun first => ⟨fun _ => first, fun no => absurd fits no, fun no => absurd fits no⟩⟩
    rw [settingKey_eq_iff.mpr fits, ownKey]
    by_cases called : goliothSettingsReceiveOne handlers label value = []
    · have untyped := receiveOne_eq_nil.mp called
      rw [called, eq_comm, expectedCalls_eq_nil]
      constructor
      · rintro absent ⟨handler, member, named, typed⟩
        exact absurd typed (absent handler member named)
      · intro first handler member named typed
        cases found : firstHandler handlers label with
        | none => exact firstHandler_none.mp found handler member named
        | some found' => exact untyped found' found (first ⟨handler, member, named, typed⟩ found' found)
    · rw [receiveOne_first] at called ⊢
      cases found : firstHandler handlers label with
      | none => simp [found] at called
      | some first =>
        simp only [found, ite_eq_right_iff, List.cons_ne_nil, imp_false, not_not] at called
        simp [expectedCalls, expectedHandler_first found called, called]
  · have other : settingKey label ≠ label := fun same => fits (settingKey_eq_iff.mp same)
    have ownKey : OwnKey handlers label value.type ↔
        expectedCalls handlers label (some value) = [] ∧
          goliothSettingsReceiveOne handlers (settingKey label) value = [] := by
      rw [expectedCalls_eq_nil, receiveOne_eq_nil]
      exact ⟨fun own => ⟨own.missing fits, own.cut fits⟩,
        fun both => ⟨fun yes => absurd yes fits, fun _ => both.1, fun _ => both.2⟩⟩
    rw [ownKey]
    by_cases called : goliothSettingsReceiveOne handlers (settingKey label) value = []
    · rw [called, and_iff_left rfl]
      exact eq_comm
    · simp [called, receiveOne_ne_expected other called]

variable {zcbor : Zcbor} {items : CborItems} {memory : Memory} {inside : ZcborState} {rest : List UInt8}
  {indefinite : Bool} {pairs : List (List UInt8 × List UInt8)}

theorem settingsOutcome_append {first second : List (List UInt8 × List UInt8)}
    (texts : ∀ pair ∈ first, (items.text pair.1).isSome = true) :
    (settingsOutcome items handlers (first ++ second)).1 =
      (settingsOutcome items handlers first).1 ++ (settingsOutcome items handlers second).1 := by
  induction first with
  | nil => rfl
  | cons pair first ih =>
    obtain ⟨text, is⟩ := Option.isSome_iff_exists.mp (texts pair (List.mem_cons_self ..))
    have next := ih fun other member => texts other (List.mem_cons_of_mem _ member)
    simp only [List.cons_append, settingsOutcome, is, next, List.append_assoc]

theorem callsWithin_take (reads : zcbor.Reads items) (areItems : ∀ pair ∈ pairs, items.Item pair.1 ∧ items.Item pair.2)
    (inMap : inside.InMap memory pairs indefinite rest) (iterations : Nat) :
    callsWithin handlers zcbor memory inside iterations =
      (settingsOutcome items handlers (pairs.take iterations)).1 := by
  simp only [callsWithin, settingsLoop_run reads handlers pairs areItems iterations inside _ inMap, List.nil_append]

theorem callsWithin_succ (reads : zcbor.Reads items) (areItems : ∀ pair ∈ pairs, items.Item pair.1 ∧ items.Item pair.2)
    (texts : ∀ pair ∈ pairs, (items.text pair.1).isSome = true) (inMap : inside.InMap memory pairs indefinite rest)
    {index : Nat} {label' item text : List UInt8} (found : pairs[index]? = some (label', item))
    (is : items.text label' = some text) :
    callsWithin handlers zcbor memory inside (index + 1) =
      callsWithin handlers zcbor memory inside index ++ entryCalls items handlers text item := by
  rw [callsWithin_take reads areItems inMap, callsWithin_take reads areItems inMap, List.take_add_one, found,
    settingsOutcome_append fun pair member => texts pair (List.mem_of_mem_take member)]
  simp [settingsOutcome, is]

theorem entryCalls_expected_iff (label item : List UInt8) :
    entryCalls items handlers label item = expectedCalls handlers label (items.setting item) ↔
      ∀ value, items.setting item = some value → OwnKey handlers label value.type := by
  unfold entryCalls
  cases setting : items.setting item with
  | none => simp [expectedCalls]
  | some value =>
    simp only [Option.some.injEq, forall_eq']
    exact receiveOne_expected_iff value

end Handlers

-- The handler of an integer with the key "k".
def intHandlers : List SettingsHandler := [⟨⟨[0x6b], by simp⟩, .int⟩]

def oneSetting (label : List UInt8) (isItem : definiteItems.Item label) : CborMap definiteItems where
  head := [0xa1]
  indefinite := false
  pairs := [(label, [5])]
  isHead := ⟨rfl, rfl⟩
  areItems := by
    simp only [List.forall_mem_singleton]
    exact ⟨isItem, by decide +kernel⟩

def ownSetting : CborMap definiteItems := oneSetting [0x61, 0x6b] (by decide +kernel)

-- The label is "k", a NUL and "x".
def nulSetting : CborMap definiteItems := oneSetting [0x63, 0x6b, 0, 0x78] (by decide +kernel)

end Pouch
