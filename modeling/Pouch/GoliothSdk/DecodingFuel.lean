import Pouch.GoliothSdk.CborDecoder
import Pouch.GoliothSdk.Manifest
import Pouch.GoliothSdk.MapDecoding
import Pouch.GoliothSdk.Settings
import Pouch.Shared.Fuel

set_option autoImplicit false

/-!
# The decoding loops end

Every iteration takes bytes from the payload. The fuel of the loops, which is more than the payload has bytes,
is not used up: more of it changes nothing.
-/

namespace Pouch

open ByteMemory

def ZcborState.left (zsd : ZcborState) : Nat := zsd.payloadEnd - zsd.payload

/-- What the library decodes it takes from the payload. -/
structure Zcbor.Takes (zcbor : Zcbor) : Prop where
  tstr : ∀ {memory zsd value next}, zcbor.tstrDecode memory zsd = some (value, next) → next.left < zsd.left
  uint32 : ∀ {memory zsd value next}, zcbor.uint32Decode memory zsd = some (value, next) → next.left < zsd.left
  int32 : ∀ {memory zsd value next}, zcbor.int32Decode memory zsd = some (value, next) → next.left < zsd.left
  int64 : ∀ {memory zsd value next}, zcbor.int64Decode memory zsd = some (value, next) → next.left < zsd.left
  float : ∀ {memory zsd value next}, zcbor.floatDecode memory zsd = some (value, next) → next.left < zsd.left
  bool : ∀ {memory zsd value next}, zcbor.boolDecode memory zsd = some (value, next) → next.left < zsd.left
  anySkip : ∀ {memory zsd next}, zcbor.anySkip memory zsd = some next → next.left < zsd.left
  mapStart : ∀ {memory zsd next}, zcbor.mapStartDecode memory zsd = some next → next.left < zsd.left
  listStart : ∀ {memory zsd next}, zcbor.listStartDecode memory zsd = some next → next.left < zsd.left
  mapEnd : ∀ {memory zsd next}, zcbor.mapEndDecode memory zsd = some next → next.left ≤ zsd.left
  listMapEndForce : ∀ {memory zsd next}, zcbor.listMapEndForceDecode memory zsd = some next → next.left ≤ zsd.left

section Maps

variable {zcbor : Zcbor} {memory : Memory} {Values : Type} {entries : List (MapEntry Values)}

def EntriesTake (entries : List (MapEntry Values)) : Prop :=
  ∀ entry ∈ entries, ∀ {zsd values next after}, entry.decode zsd values = (.ok next, after) → next.left ≤ zsd.left

theorem keyDecode_left (takes : zcbor.Takes) {zsd next : ZcborState} {key read : MapKey}
    (decoded : zcborMapKeyDecode zcbor memory zsd key = .ok (read, next)) : next.left < zsd.left := by
  unfold zcborMapKeyDecode at decoded
  split_ifs at decoded
  · cases text : zcbor.tstrDecode memory zsd with
    | none => simp [text] at decoded
    | some found =>
      simp only [text, Except.ok.injEq, Prod.mk.injEq] at decoded
      exact decoded.2 ▸ takes.tstr text
  · cases number : zcbor.uint32Decode memory zsd with
    | none => simp [number] at decoded
    | some found =>
      simp only [number, Except.ok.injEq, Prod.mk.injEq] at decoded
      exact decoded.2 ▸ takes.uint32 number

theorem valueDecode_left (takes : zcbor.Takes) (entriesTake : EntriesTake entries) {key : MapKey}
    {zsd next : ZcborState} {values after : Values}
    (decoded : valueDecode zcbor memory entries key zsd values = (.ok next, after)) : next.left ≤ zsd.left := by
  unfold valueDecode at decoded
  cases found : mapEntryGet memory entries key with
  | some entry =>
    simp only [found] at decoded
    exact entriesTake entry (List.mem_of_find?_eq_some found) decoded
  | none =>
    cases skipped : zcbor.anySkip memory zsd with
    | none => simp [found, skipped] at decoded
    | some behind =>
      simp only [found, skipped, Prod.mk.injEq, Except.ok.injEq] at decoded
      exact decoded.1 ▸ (takes.anySkip skipped).le

def LeftWithin {Result Values : Type} (state : Result → Option ZcborState) (bound : Nat)
    (out : Result × Values) : Prop :=
  ∀ next ∈ state out.1, next.left ≤ bound

theorem LeftWithin.grows {Result Values : Type} {state : Result → Option ZcborState} {small large : Nat}
    {out : Result × Values} (le : small ≤ large) (within : LeftWithin state small out) : LeftWithin state large out :=
  fun next member => (within next member).trans le

theorem mapDecodeLoop_descends (memory : Memory) (takes : zcbor.Takes) (entriesTake : EntriesTake entries) :
    Fuel.Descends
      (fun fuel (state : Nat × ZcborState × MapKey × Values) =>
        mapDecodeLoop zcbor memory entries fuel state.1 state.2.1 state.2.2.1 state.2.2.2)
      (fun state => state.2.1.left) (LeftWithin fun result => result.toOption.map Prod.snd) where
  exhausted := by
    rintro ⟨numDecoded, zsd, key, values⟩
    simp [LeftWithin, mapDecodeLoop, Except.toOption]
  iteration := by
    rintro ⟨numDecoded, zsd, key, values⟩
    simp only [mapDecodeLoop_succ]
    split_ifs with another
    · cases decodedKey : zcborMapKeyDecode zcbor memory zsd key with
      | error err => exact .inl ⟨_, by simp [LeftWithin, Except.toOption], fun _ => rfl⟩
      | ok read =>
        obtain ⟨read, inside⟩ := read
        have shorter := keyDecode_left takes decodedKey
        cases decoded : valueDecode zcbor memory entries read inside values with
        | mk status after =>
          simp only [decoded]
          cases status with
          | error err => exact .inl ⟨_, by simp [LeftWithin, Except.toOption], fun _ => rfl⟩
          | ok next =>
            have rest := valueDecode_left takes entriesTake decoded
            exact .inr ⟨(_, next, read, after), rest.trans_lt shorter, fun _ => rfl⟩
    · exact .inl ⟨_, by simp [LeftWithin, Except.toOption], fun _ => rfl⟩
  grows := LeftWithin.grows

theorem zcborMapDecode_left (takes : zcbor.Takes) (entriesTake : EntriesTake entries) (fuel : Nat) (key : MapKey)
    {zsd next : ZcborState} {values after : Values}
    (decoded : zcborMapDecode zcbor memory entries fuel key zsd values = (.ok next, after)) :
    next.left < zsd.left := by
  unfold zcborMapDecode at decoded
  cases entered : zcbor.mapStartDecode memory zsd with
  | none => simp [entered] at decoded
  | some inside =>
    have shorter := takes.mapStart entered
    have within := (mapDecodeLoop_descends memory takes entriesTake).within fuel (0, inside, key, values)
    simp only [entered] at decoded
    generalize mapDecodeLoop zcbor memory entries fuel 0 inside key values = loop at decoded within
    obtain ⟨status, values⟩ := loop
    cases status with
    | error err => simp at decoded
    | ok result =>
      obtain ⟨numDecoded, last⟩ := result
      have rest : last.left ≤ inside.left := within last rfl
      cases left : zcbor.listMapEndForceDecode memory last with
      | none =>
        simp only [left] at decoded
        split_ifs at decoded <;> simp at decoded
      | some outside =>
        have ended := takes.listMapEndForce left
        simp only [left] at decoded
        split_ifs at decoded
        · simp at decoded
        · simp at decoded
        · simp only [Prod.mk.injEq, Except.ok.injEq] at decoded
          rw [← decoded.1]
          omega

theorem zcborMapIntDecode_left {decode : Memory → ZcborState → Option (Int × ZcborState)}
    (takes : ∀ {zsd value next}, decode memory zsd = some (value, next) → next.left < zsd.left)
    {put : Values → Int → Values} {zsd next : ZcborState} {values after : Values}
    (decoded : zcborMapIntDecode memory decode put zsd values = (.ok next, after)) : next.left ≤ zsd.left := by
  unfold zcborMapIntDecode at decoded
  cases number : decode memory zsd with
  | none => simp [number] at decoded
  | some found =>
    simp only [number, Prod.mk.injEq, Except.ok.injEq] at decoded
    exact decoded.1 ▸ (takes number).le

end Maps

section Settings

variable {zcbor : Zcbor} {memory : Memory} (handlers : List SettingsHandler)

theorem settingValueDecode_left (takes : zcbor.Takes) {zsd next : ZcborState} {value : SettingValue}
    (decoded : settingValueDecode zcbor memory zsd = some (value, next)) : next.left < zsd.left := by
  unfold settingValueDecode at decoded
  split_ifs at decoded
  · obtain ⟨found, text, same⟩ := Option.map_eq_some_iff.mp decoded
    exact (Prod.mk.inj same).2 ▸ takes.tstr text
  · obtain ⟨found, number, same⟩ := Option.map_eq_some_iff.mp decoded
    exact (Prod.mk.inj same).2 ▸ takes.int32 number
  · cases float : zcbor.floatDecode memory zsd with
    | some found =>
      simp only [float, Option.some.injEq, Prod.mk.injEq] at decoded
      exact decoded.2 ▸ takes.float float
    | none =>
      simp only [float] at decoded
      obtain ⟨found, bool, same⟩ := Option.map_eq_some_iff.mp decoded
      exact (Prod.mk.inj same).2 ▸ takes.bool bool

theorem settingsLoop_descends (memory : Memory) (handlers : List SettingsHandler) (takes : zcbor.Takes) :
    Fuel.Descends
      (fun fuel (state : ZcborState × SettingsEffects) => settingsLoop zcbor memory handlers fuel state.1 state.2)
      (fun state => state.1.left) (LeftWithin Except.toOption) where
  exhausted := by
    rintro ⟨zsd, effects⟩
    simp [LeftWithin, settingsLoop, Except.toOption]
  iteration := by
    rintro ⟨zsd, effects⟩
    simp only [settingsLoop]
    split_ifs with ended
    · exact .inl ⟨_, by simp [LeftWithin, Except.toOption], fun _ => rfl⟩
    · cases label : zcbor.tstrDecode memory zsd with
      | none => exact .inl ⟨_, by simp [LeftWithin, Except.toOption], fun _ => rfl⟩
      | some read =>
        obtain ⟨text, inside⟩ := read
        have shorter := takes.tstr label
        cases value : settingValueDecode zcbor memory inside with
        | some read =>
          obtain ⟨setting, next⟩ := read
          have rest := settingValueDecode_left takes value
          simp only [value]
          exact .inr ⟨(next, _), rest.trans shorter, fun _ => rfl⟩
        | none =>
          simp only [value]
          cases skipped : zcbor.anySkip memory inside with
          | none => exact .inl ⟨_, by simp [LeftWithin, Except.toOption], fun _ => rfl⟩
          | some next => exact .inr ⟨(next, _), (takes.anySkip skipped).trans shorter, fun _ => rfl⟩
  grows := LeftWithin.grows

theorem settingsDecode_left (takes : zcbor.Takes) (fuel : Nat) {zsd next : ZcborState}
    {effects after : SettingsEffects}
    (decoded : settingsDecode zcbor memory handlers fuel zsd effects = (.ok next, after)) : next.left ≤ zsd.left := by
  unfold settingsDecode at decoded
  cases nil : zcbor.nilExpect memory zsd with
  | some _ => simp [nil] at decoded
  | none =>
    cases entered : zcbor.mapStartDecode memory zsd with
    | none => simp [nil, entered] at decoded
    | some inside =>
      have shorter := takes.mapStart entered
      have within := (settingsLoop_descends memory handlers takes).within fuel (inside, effects)
      simp only [nil, entered] at decoded
      generalize settingsLoop zcbor memory handlers fuel inside effects = loop at decoded within
      obtain ⟨status, effects⟩ := loop
      cases status with
      | error err => simp at decoded
      | ok last =>
        have rest : last.left ≤ inside.left := within last rfl
        cases left : zcbor.mapEndDecode memory last with
        | none => simp [left] at decoded
        | some outside =>
          simp only [left, Prod.mk.injEq, Except.ok.injEq] at decoded
          have ended := takes.mapEnd left
          rw [← decoded.1]
          omega

theorem settingsEntries_take (takes : zcbor.Takes) (call : DataCall) :
    EntriesTake (settingsEntries zcbor handlers call) := by
  intro entry member zsd values next after decoded
  simp only [settingsEntries, List.mem_cons, List.not_mem_nil, or_false] at member
  obtain rfl | rfl := member <;> simp only at decoded
  · exact settingsDecode_left handlers takes _ decoded
  · exact zcborMapIntDecode_left takes.int64 decoded

/-- No state that the decoding of a call gets to has more bytes left than the call has, so its loops have enough
fuel. -/
theorem settingsLoops_enough (takes : zcbor.Takes) (call : DataCall) (more : Nat) (zsd : ZcborState)
    (inside : zsd.left ≤ call.len) (key : MapKey) (effects : SettingsEffects) :
    mapDecodeLoop zcbor call.memory (settingsEntries zcbor handlers call) (call.len + 1 + more) 0 zsd key effects =
        mapDecodeLoop zcbor call.memory (settingsEntries zcbor handlers call) (call.len + 1) 0 zsd key effects ∧
      settingsLoop zcbor call.memory handlers (call.len + 1 + more) zsd effects =
        settingsLoop zcbor call.memory handlers (call.len + 1) zsd effects :=
  ⟨(mapDecodeLoop_descends call.memory takes (settingsEntries_take handlers takes call)).enough _ more
      (0, zsd, key, effects) (Nat.lt_succ_of_le inside),
    (settingsLoop_descends call.memory handlers takes).enough _ more (zsd, effects) (Nat.lt_succ_of_le inside)⟩

end Settings

section Manifest

variable (cfg : OtaConfig) (registry : List RegisteredComponent) {zcbor : Zcbor}
  (hex2bin : List UInt8 → Option (Bytes 32)) (call : DataCall)

theorem componentEntries_take (takes : zcbor.Takes) (memory : Memory) :
    EntriesTake (componentEntries zcbor memory cfg) := by
  have text {valueLen : Nat} {get : ComponentFields → List UInt8} {put : ComponentFields → List UInt8 → ComponentFields}
      {zsd next : ZcborState} {fields after : ComponentFields}
      (decoded : componentEntryDecodeValue zcbor memory valueLen get put zsd fields = (.ok next, after)) :
      next.left ≤ zsd.left := by
    unfold componentEntryDecodeValue at decoded
    cases read : zcbor.tstrDecode memory zsd with
    | none => simp [read] at decoded
    | some found =>
      simp only [read] at decoded
      split_ifs at decoded
      · simp at decoded
      · simp only [Prod.mk.injEq, Except.ok.injEq] at decoded
        exact decoded.1 ▸ (takes.tstr read).le
  intro entry member zsd values next after decoded
  simp only [componentEntries, List.mem_cons, List.not_mem_nil, or_false] at member
  obtain rfl | rfl | rfl | rfl := member <;> simp only at decoded
  · exact text decoded
  · exact text decoded
  · exact zcborMapIntDecode_left takes.int32 decoded
  · exact text decoded

theorem manifestComponent_left (takes : zcbor.Takes) (unset : Unset) {zsd next : ZcborState}
    {effects after : ManifestEffects}
    (decoded : manifestComponent cfg registry zcbor hex2bin call unset zsd effects = (some next, after)) :
    next.left < zsd.left := by
  simp only [manifestComponent] at decoded
  split at decoded
  · simp at decoded
  · next inside fields component =>
    split at decoded
    · simp at decoded
    · simp only [Prod.mk.injEq, Option.some.injEq] at decoded
      exact decoded.1 ▸ zcborMapDecode_left takes (componentEntries_take cfg takes call.memory) _ _ component

theorem componentsLoop_descends (takes : zcbor.Takes) :
    Fuel.Descends
      (fun fuel (state : (Nat → Unset) × ZcborState × ManifestEffects) =>
        componentsLoop cfg registry zcbor hex2bin call fuel state.1 state.2.1 state.2.2)
      (fun state => state.2.1.left) (LeftWithin id) where
  exhausted := by
    rintro ⟨unset, zsd, effects⟩
    simp [LeftWithin, componentsLoop]
  iteration := by
    rintro ⟨unset, zsd, effects⟩
    simp only [componentsLoop]
    split_ifs with ended
    · exact .inl ⟨_, by simp [LeftWithin], fun _ => rfl⟩
    · cases decoded : manifestComponent cfg registry zcbor hex2bin call (unset 0) zsd effects with
      | mk status after =>
        cases status with
        | none => exact .inl ⟨_, by simp [LeftWithin], fun _ => rfl⟩
        | some next =>
          exact .inr ⟨(_, next, after), manifestComponent_left cfg registry hex2bin call takes _ decoded, fun _ => rfl⟩
  grows := LeftWithin.grows

theorem manifestLoop_descends (takes : zcbor.Takes) :
    Fuel.Descends
      (fun fuel (state : ZcborState × ManifestEffects) =>
        manifestLoop cfg registry zcbor hex2bin call fuel state.1 state.2)
      (fun state => state.1.left) (fun _ _ => True) where
  exhausted _ := trivial
  iteration := by
    rintro ⟨zsd, effects⟩
    simp only [manifestLoop]
    split_ifs with ended
    · exact .inl ⟨_, trivial, fun _ => rfl⟩
    · cases read : zcbor.uint32Decode call.memory zsd with
      | none => exact .inl ⟨_, trivial, fun _ => rfl⟩
      | some found =>
        obtain ⟨key, inside⟩ := found
        have shorter := takes.uint32 read
        simp only
        split_ifs with components
        · cases entered : zcbor.listStartDecode call.memory inside with
          | none => exact .inl ⟨_, trivial, fun _ => rfl⟩
          | some list =>
            have inList := takes.listStart entered
            have within := (componentsLoop_descends cfg registry hex2bin call takes).within (call.len + 1)
              (call.unset, list, effects)
            simp only
            generalize componentsLoop cfg registry zcbor hex2bin call (call.len + 1) call.unset list effects = loop
              at within
            obtain ⟨status, after⟩ := loop
            cases status with
            | none => exact .inl ⟨_, trivial, fun _ => rfl⟩
            | some next =>
              have rest : next.left ≤ list.left := within next rfl
              simp only
              split_ifs with all
              · exact .inr ⟨(next, _), by simp only; omega, fun _ => rfl⟩
              · exact .inl ⟨_, trivial, fun _ => rfl⟩
        · cases skipped : zcbor.anySkip call.memory inside with
          | none => exact .inl ⟨_, trivial, fun _ => rfl⟩
          | some next => exact .inr ⟨(next, _), (takes.anySkip skipped).trans shorter, fun _ => rfl⟩
  grows _ _ := trivial

theorem manifestLoops_enough (takes : zcbor.Takes) (more : Nat) (zsd : ZcborState) (inside : zsd.left ≤ call.len)
    (unset : Nat → Unset) (effects : ManifestEffects) :
    manifestLoop cfg registry zcbor hex2bin call (call.len + 1 + more) zsd effects =
        manifestLoop cfg registry zcbor hex2bin call (call.len + 1) zsd effects ∧
      componentsLoop cfg registry zcbor hex2bin call (call.len + 1 + more) unset zsd effects =
        componentsLoop cfg registry zcbor hex2bin call (call.len + 1) unset zsd effects :=
  ⟨(manifestLoop_descends cfg registry hex2bin call takes).enough _ more (zsd, effects) (Nat.lt_succ_of_le inside),
    (componentsLoop_descends cfg registry hex2bin call takes).enough _ more (unset, zsd, effects)
      (Nat.lt_succ_of_le inside)⟩

end Manifest

section Decoder

theorem takeItem_left {Value : Type} (reader : Cbor.Reader Value) {memory : Memory} {zsd next : ZcborState}
    {value : Value} (taken : takeItem reader memory zsd = some (value, next)) : next.left < zsd.left := by
  unfold takeItem at taken
  split_ifs at taken
  obtain ⟨⟨read, rest⟩, reads, same⟩ := Option.map_eq_some_iff.mp taken
  have shorter := reader.takes reads
  rw [ZcborState.rest, load_length] at shorter
  simp only [Prod.mk.injEq] at same
  rw [← same.2]
  simp only [ZcborState.left]
  omega

theorem leave_left {zsd next : ZcborState} (left : leave zsd = some next) : next.left = zsd.left := by
  unfold leave at left
  split at left
  · simp at left
  · rw [← Option.some.inj left]
    rfl

theorem enter_left {major factor : Nat} {memory : Memory} {zsd next : ZcborState}
    (entered : enter major factor memory zsd = some next) : next.left < zsd.left := by
  unfold enter at entered
  split_ifs at entered
  obtain ⟨⟨items, inside⟩, taken, rfl⟩ := Option.map_eq_some_iff.mp entered
  have shorter := takeItem_left _ taken
  simpa only [ZcborState.left] using shorter

theorem cborDecoder_takes : cborDecoder.Takes where
  tstr decoded := by
    obtain ⟨read, taken, same⟩ := Option.map_eq_some_iff.mp decoded
    exact (Prod.mk.inj same).2 ▸ takeItem_left _ taken
  uint32 decoded := takeItem_left _ decoded
  int32 decoded := takeItem_left _ decoded
  int64 decoded := takeItem_left _ decoded
  float decoded := by
    simp only [cborDecoder] at decoded
    split_ifs at decoded
    exact takeItem_left _ decoded
  bool decoded := takeItem_left _ decoded
  anySkip decoded := by
    obtain ⟨read, taken, same⟩ := Option.map_eq_some_iff.mp decoded
    exact same ▸ takeItem_left _ taken
  mapStart decoded := enter_left decoded
  listStart decoded := enter_left decoded
  mapEnd decoded := by
    simp only [cborDecoder] at decoded
    split_ifs at decoded
    exact (leave_left decoded).le
  listMapEndForce decoded := (leave_left decoded).le

end Decoder

end Pouch
