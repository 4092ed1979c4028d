import Pouch.GoliothSdk.MapRuns
import Pouch.GoliothSdk.SettingsKeys

set_option autoImplicit false

/-!
# The order of settings and version

A settings document is decoded key by key, with all effects, until one of its values is an error.
-/

namespace Pouch

open ByteMemory

inductive SettingsItem (items : CborItems) where
  | map (map : CborMap items)
  | other (item : List UInt8) (isOther : majorOf item ≠ some 5)

namespace SettingsItem

variable {items : CborItems}

def bytes : SettingsItem items → List UInt8
  | .map settings => settings.bytes
  | .other item _ => item

def outcome (handlers : List SettingsHandler) : SettingsItem items → List SettingCall × Bool
  | .map settings => settingsOutcome items handlers settings.pairs
  | .other _ _ => ([], false)

def OnlyTexts : SettingsItem items → Prop
  | .map settings => ∀ pair ∈ settings.pairs, (items.text pair.1).isSome = true
  | .other _ _ => False

/-- In front of any label that is no text, no entry has the type of the first handler with its key. -/
def Unhandled (handlers : List SettingsHandler) : SettingsItem items → Prop
  | .map settings => ∀ pair ∈ settings.pairs.takeWhile fun pair => (items.text pair.1).isSome,
      ∀ label, items.text pair.1 = some label → ∀ value, items.setting pair.2 = some value →
        ∀ first ∈ firstHandler handlers (settingKey label), first.1.type ≠ value.type
  | .other _ _ => True

theorem outcome_onlyTexts_iff (handlers : List SettingsHandler) (settings : SettingsItem items) :
    (settings.outcome handlers).2 = true ↔ settings.OnlyTexts := by
  cases settings with
  | map map => exact settingsOutcome_texts_iff
  | other item isOther => simp [outcome, OnlyTexts]

theorem outcome_unhandled_iff (handlers : List SettingsHandler) (settings : SettingsItem items) :
    (settings.outcome handlers).1 = [] ↔ settings.Unhandled handlers := by
  cases settings with
  | map map => exact settingsOutcome_nil_iff
  | other item isOther => simp [outcome, Unhandled]

end SettingsItem

structure OrderedDocuments (items : CborItems) where
  settingsKey : List UInt8
  settings : SettingsItem items
  versionKey : List UInt8
  version : List UInt8
  settingsText : items.text settingsKey = some settingsLabel
  versionText : items.text versionKey = some versionLabel
  settingsFirst : CborMap items
  versionFirst : CborMap items
  settingsPairs : settingsFirst.pairs = [(settingsKey, settings.bytes), (versionKey, version)]
  versionPairs : versionFirst.pairs = [(versionKey, version), (settingsKey, settings.bytes)]

section Effects

variable {items : CborItems} (handlers : List SettingsHandler) (documents : OrderedDocuments items)

def withCalls (effects : SettingsEffects) : SettingsEffects :=
  { effects with calls := effects.calls ++ (documents.settings.outcome handlers).1 }

def withVersion (effects : SettingsEffects) : SettingsEffects :=
  match items.int64 documents.version with
  | none => effects
  | some version => { effects with version := version }

def settingsFirstEffects (effects : SettingsEffects) : SettingsEffects :=
  if (documents.settings.outcome handlers).2 then withVersion documents (withCalls handlers documents effects)
  else withCalls handlers documents effects

def versionFirstEffects (effects : SettingsEffects) : SettingsEffects :=
  if (items.int64 documents.version).isSome then withCalls handlers documents (withVersion documents effects)
  else effects

def HasOutcome (items : CborItems) (call : DataCall)
    (decode : ZcborState → SettingsEffects → Except DecodeError ZcborState × SettingsEffects) (item : List UInt8)
    (outcome : SettingsEffects → Bool × SettingsEffects) : Prop :=
  ∀ {zsd : ZcborState} {rest : List UInt8}, items.Item item → zsd.Before call.memory (item ++ rest) →
    0 < zsd.elemCount → 0 < zsd.backups → item.length ≤ call.len → ∀ effects, ∃ err,
      decode zsd effects = (if (outcome effects).1 then .ok (zsd.past item.length) else .error err, (outcome effects).2)

end Effects

section Runs

variable {zcbor : Zcbor} {items : CborItems} {handlers : List SettingsHandler} {zsd : ZcborState} {rest : List UInt8}
  {call : DataCall}

theorem settingsEntries_get (zcbor : Zcbor) (handlers : List SettingsHandler) {read : ZcborString}
    (label : read.bytes call.memory = settingsLabel) :
    mapEntryGet call.memory (settingsEntries zcbor handlers call) (.putTstr read) =
      some ⟨.tstr settingsLabel, settingsDecode zcbor call.memory handlers (call.len + 1)⟩ := by
  simp [mapEntryGet, settingsEntries, isAt_putTstr, label]

theorem versionEntries_get (zcbor : Zcbor) (handlers : List SettingsHandler) {read : ZcborString}
    (label : read.bytes call.memory = versionLabel) :
    mapEntryGet call.memory (settingsEntries zcbor handlers call) (.putTstr read) =
      some ⟨.tstr versionLabel, zcborMapIntDecode call.memory zcbor.int64Decode fun effects version =>
        { effects with version := version }⟩ := by
  have other : versionLabel ≠ settingsLabel := by decide
  simp [mapEntryGet, settingsEntries, isAt_putTstr, label, other]

theorem settingsDecode_outcome (reads : zcbor.Reads items) (handlers : List SettingsHandler)
    (settings : SettingsItem items) :
    HasOutcome items call (settingsDecode zcbor call.memory handlers (call.len + 1)) settings.bytes fun effects =>
      ((settings.outcome handlers).2, { effects with calls := effects.calls ++ (settings.outcome handlers).1 }) := by
  intro zsd rest isItem before elem backup within effects
  cases settings with
  | map map =>
    have few := pairsBytes_length_ge map.pairs map.areItems
    have enough : map.pairs.length ≤ call.len + 1 := by
      simp only [SettingsItem.bytes, CborMap.bytes, List.length_append] at within
      omega
    exact ⟨_, settingsDecode_map reads handlers map before elem backup _ enough effects⟩
  | other item isOther =>
    obtain ⟨err, failed⟩ := settingsDecode_other reads handlers isItem isOther before (call.len + 1) effects
    exact ⟨err, by simp [failed, SettingsItem.outcome]⟩

theorem versionDecode_outcome (reads : zcbor.Reads items) (item : List UInt8) :
    HasOutcome items call
      (zcborMapIntDecode call.memory zcbor.int64Decode fun effects version => { effects with version := version }) item
      fun effects => match items.int64 item with
        | none => (false, effects)
        | some version => (true, { effects with version := version }) := by
  intro zsd rest isItem before elem _ _ effects
  refine ⟨.ebadmsg, ?_⟩
  simp only [zcborMapIntDecode, reads.int64 isItem before elem]
  cases items.int64 item <;> rfl

theorem enterDocument (reads : zcbor.Reads items) (document : CborMap items) (bytes : call.bytes = document.bytes) :
    ∃ inside, zcbor.mapStartDecode call.memory (zcborStateD 2 call.data call.len) = some inside ∧
      inside.InMap call.memory document.pairs document.indefinite [] ∧ inside.backups = 1 := by
  have before : (zcborStateD 2 call.data call.len).Before call.memory (document.bytes ++ []) := by
    rw [List.append_nil, ← bytes]
    exact ⟨by simp [DataCall.bytes, zcborStateD], by simp [DataCall.bytes, zcborStateD]⟩
  obtain ⟨elems, started, inMap⟩ := reads.enterMap document before (Nat.succ_pos _) (Nat.succ_pos _)
  exact ⟨_, started, inMap, rfl⟩

theorem document_length {document : CborMap items} (bytes : call.bytes = document.bytes)
    {first second : List UInt8 × List UInt8} (pairs : document.pairs = [first, second]) :
    2 ≤ call.len ∧ first.2.length ≤ call.len ∧ second.2.length ≤ call.len := by
  have few := pairsBytes_length_ge document.pairs document.areItems
  have length := congrArg List.length bytes
  simp only [DataCall.bytes, load_length, CborMap.bytes, List.length_append] at length
  simp only [pairs, pairsBytes_cons, pairsBytes_nil, List.length_append, List.length_cons, List.length_nil]
    at few length
  omega

theorem settingsDownlink_two (reads : zcbor.Reads items) {document : CborMap items}
    (bytes : call.bytes = document.bytes) {first second : List UInt8 × List UInt8}
    (pairs : document.pairs = [first, second]) {firstLabel secondLabel : List UInt8}
    (firstText : items.text first.1 = some firstLabel) (secondText : items.text second.1 = some secondLabel)
    {firstEntry secondEntry : MapEntry SettingsEffects}
    (firstGet : ∀ read : ZcborString, read.bytes call.memory = firstLabel →
      mapEntryGet call.memory (settingsEntries zcbor handlers call) (.putTstr read) = some firstEntry)
    (secondGet : ∀ read : ZcborString, read.bytes call.memory = secondLabel →
      mapEntryGet call.memory (settingsEntries zcbor handlers call) (.putTstr read) = some secondEntry)
    {onFirst onSecond : SettingsEffects → Bool × SettingsEffects}
    (firstOutcome : HasOutcome items call firstEntry.decode first.2 onFirst)
    (secondOutcome : HasOutcome items call secondEntry.decode second.2 onSecond) (effects : SettingsEffects) :
    settingsDownlink zcbor handlers effects call =
      if (onFirst effects).1 then (onSecond (onFirst effects).2).2 else (onFirst effects).2 := by
  obtain ⟨inside, started, inMap, backup⟩ := enterDocument reads document bytes
  obtain ⟨long, firstWithin, secondWithin⟩ := document_length bytes pairs
  have areItems := document.areItems
  simp only [pairs, List.forall_mem_cons] at inMap areItems
  obtain ⟨isFirst, isSecond, _⟩ := areItems
  have backups : 0 < (inside.past first.1.length).backups := by
    rw [ZcborState.past, backup]
    exact Nat.one_pos
  obtain ⟨key, decoded⟩ := mapDecodeLoop_text reads isFirst.1 inMap firstText firstGet call.len 0 (Nat.succ_pos _)
    (call.unset 0).key effects
  obtain ⟨_, one⟩ := firstOutcome isFirst.2 inMap.value (inMap.valueElem isFirst.1) backups firstWithin effects
  simp only [settingsDownlink, zcborMapDecode_values, started, decoded, one]
  split_ifs
  · have inMap := inMap.next isFirst
    obtain ⟨fuel, enough⟩ : ∃ fuel, call.len = fuel + 1 := ⟨call.len - 1, by omega⟩
    obtain ⟨last, decoded⟩ := mapDecodeLoop_text reads isSecond.1 inMap secondText secondGet fuel 1
      (by simp [settingsEntries]) key (onFirst effects).2
    obtain ⟨_, two⟩ := secondOutcome isSecond.2 inMap.value (inMap.valueElem isSecond.1) backups secondWithin
      (onFirst effects).2
    change (mapDecodeLoop zcbor call.memory (settingsEntries zcbor handlers call) call.len 1 _ key
      (onFirst effects).2).2 = _
    rw [enough]
    refine (congrArg Prod.snd decoded).trans ?_
    simp only [two]
    split_ifs
    · exact mapDecodeLoop_done (Nat.le_refl 2) fuel last _
    · rfl
  · rfl

variable (handlers) (documents : OrderedDocuments items)

theorem settingsFirst_downlink (reads : zcbor.Reads items) (bytes : call.bytes = documents.settingsFirst.bytes)
    (effects : SettingsEffects) :
    settingsDownlink zcbor handlers effects call = settingsFirstEffects handlers documents effects := by
  rw [settingsDownlink_two reads bytes documents.settingsPairs documents.settingsText documents.versionText
    (fun _ => settingsEntries_get zcbor handlers) (fun _ => versionEntries_get zcbor handlers)
    (settingsDecode_outcome reads handlers documents.settings) (versionDecode_outcome reads documents.version)]
  simp only [settingsFirstEffects, withVersion, withCalls]
  cases items.int64 documents.version <;> rfl

theorem versionFirst_downlink (reads : zcbor.Reads items) (bytes : call.bytes = documents.versionFirst.bytes)
    (effects : SettingsEffects) :
    settingsDownlink zcbor handlers effects call = versionFirstEffects handlers documents effects := by
  rw [settingsDownlink_two reads bytes documents.versionPairs documents.versionText documents.settingsText
    (fun _ => versionEntries_get zcbor handlers) (fun _ => settingsEntries_get zcbor handlers)
    (versionDecode_outcome reads documents.version) (settingsDecode_outcome reads handlers documents.settings)]
  simp only [versionFirstEffects, withVersion, withCalls]
  cases items.int64 documents.version <;> rfl

end Runs

section Samples

def sampleDocuments (settings : SettingsItem definiteItems) (isItem : definiteItems.Item settings.bytes) :
    OrderedDocuments definiteItems where
  settingsKey := Cbor.encodeHead 3 8 ++ settingsLabel
  settings := settings
  versionKey := Cbor.encodeHead 3 7 ++ versionLabel
  version := [3]
  settingsText := by decide +kernel
  versionText := by decide +kernel
  settingsFirst :=
    { head := [0xa2]
      indefinite := false
      pairs := [(Cbor.encodeHead 3 8 ++ settingsLabel, settings.bytes), (Cbor.encodeHead 3 7 ++ versionLabel, [3])]
      isHead := ⟨rfl, show Cbor.readShortHead [0xa2] = some (5, 2, []) by decide⟩
      areItems := by
        simp only [List.forall_mem_cons]
        exact ⟨⟨by decide +kernel, isItem⟩, ⟨by decide +kernel, by decide +kernel⟩, by simp⟩ }
  versionFirst :=
    { head := [0xa2]
      indefinite := false
      pairs := [(Cbor.encodeHead 3 7 ++ versionLabel, [3]), (Cbor.encodeHead 3 8 ++ settingsLabel, settings.bytes)]
      isHead := ⟨rfl, show Cbor.readShortHead [0xa2] = some (5, 2, []) by decide⟩
      areItems := by
        simp only [List.forall_mem_cons]
        exact ⟨⟨by decide +kernel, by decide +kernel⟩, ⟨by decide +kernel, isItem⟩, by simp⟩ }
  settingsPairs := rfl
  versionPairs := rfl

end Samples

end Pouch
