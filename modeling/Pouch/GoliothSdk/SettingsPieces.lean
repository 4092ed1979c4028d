import Pouch.GoliothSdk.MapDecoding
import Pouch.GoliothSdk.Pieces
import Pouch.GoliothSdk.Settings

set_option autoImplicit false

namespace Pouch

open ByteMemory

def mapDocument (pairs : List (List UInt8 × List UInt8)) : List UInt8 :=
  Cbor.encodeHead 5 pairs.length ++ pairs.flatMap fun pair => textItem pair.1 ++ pair.2

/-- A settings document: a map with settings, a version and anything else. -/
def SettingsDocument (document : List UInt8) : Prop :=
  ∃ pairs, document = mapDocument pairs ∧ (∀ pair ∈ pairs, Cbor.WellFormed pair.2) ∧
    (∃ settings, (settingsLabel, settings) ∈ pairs) ∧
    ∃ version < 2 ^ 63, (versionLabel, Cbor.encodeHead 0 version) ∈ pairs ∨
      (versionLabel, Cbor.encodeHead 1 version) ∈ pairs

section Settings

variable {zcbor : Zcbor} (handlers : List SettingsHandler) {call : DataCall}

theorem settings_get (zcbor : Zcbor) (handlers : List SettingsHandler) (call : DataCall) (read : ZcborString) :
    mapEntryGet call.memory (settingsEntries zcbor handlers call) (.putTstr read) =
      if read.bytes call.memory = settingsLabel then (settingsEntries zcbor handlers call)[0]?
      else if read.bytes call.memory = versionLabel then (settingsEntries zcbor handlers call)[1]?
      else none := by
  simp only [mapEntryGet, settingsEntries, List.find?_cons, isAt_putTstr, List.find?_nil]
  by_cases settings : read.bytes call.memory = settingsLabel
  next => simp [settings]
  next =>
    by_cases version : read.bytes call.memory = versionLabel
    next =>
      rw [version] at settings ⊢
      simp [settings]
    next => simp [settings, version]

theorem settings_handles_other (lawful : zcbor.Lawful) {text item : List UInt8} (canonical : Cbor.Canonical item)
    (notSettings : text ≠ settingsLabel) (notVersion : text ≠ versionLabel) :
    Handles zcbor call.memory (settingsEntries zcbor handlers call) text item false id := by
  have unknown (read : ZcborString) (bytes : read.bytes call.memory = text) :
      mapEntryGet call.memory (settingsEntries zcbor handlers call) (.putTstr read) = none := by
    rw [settings_get, bytes, if_neg notSettings, if_neg notVersion]
  have skips := lawful.anySkip item canonical
  refine ⟨fun read bytes => by rw [unknown read bytes]; rfl, ?_, ?_⟩
  · intro read zsd rest count values bytes at' _
    obtain ⟨_, next, skipped, _, behind, _, same⟩ := skips.whole call.memory zsd rest count at'
    simp only [Option.map_eq_some_iff, Prod.mk.injEq, true_and, exists_eq_right] at skipped
    exact ⟨next, by simp [valueDecode, unknown read bytes, skipped], behind, same⟩
  · intro read zsd part more count values bytes split missing at'
    have failed := skips.cut call.memory zsd part more count split missing at'
    rw [Option.map_eq_none_iff] at failed
    exact ⟨.ebadmsg, by simp [valueDecode, unknown read bytes, failed]⟩

theorem settings_handles_version (lawful : zcbor.Lawful) (version : Nat) (fits : version < 2 ^ 63) :
    Handles zcbor call.memory (settingsEntries zcbor handlers call) versionLabel (Cbor.encodeHead 0 version) true
      fun effects => { effects with version := version } := by
  have found (read : ZcborString) (bytes : read.bytes call.memory = versionLabel) :
      mapEntryGet call.memory (settingsEntries zcbor handlers call) (.putTstr read) =
        some (⟨.tstr versionLabel, zcborMapIntDecode call.memory zcbor.int64Decode fun effects version =>
          { effects with version := version }⟩) := by
    rw [settings_get, bytes, if_neg (by decide), if_pos rfl]
    rfl
  have reads := lawful.int64 version fits
  refine ⟨fun read bytes => by rw [found read bytes]; rfl, ?_, ?_⟩
  · intro read zsd rest count values bytes at' _
    obtain ⟨_, next, decoded, rfl, behind, _, same⟩ := reads.whole call.memory zsd rest count at'
    refine ⟨next, ?_, behind, same⟩
    rw [valueDecode_entry (found read bytes)]
    simp only [zcborMapIntDecode, decoded]
  · intro read zsd part more count values bytes split missing at'
    have failed := reads.cut call.memory zsd part more count split missing at'
    refine ⟨.ebadmsg, ?_⟩
    rw [valueDecode_entry (found read bytes)]
    simp only [zcborMapIntDecode, failed]

theorem settings_handles_empty (lawful : zcbor.Lawful) :
    Handles zcbor call.memory (settingsEntries zcbor handlers call) settingsLabel [0xa0] true id := by
  have found (read : ZcborString) (bytes : read.bytes call.memory = settingsLabel) :
      mapEntryGet call.memory (settingsEntries zcbor handlers call) (.putTstr read) =
        some ⟨.tstr settingsLabel, settingsDecode zcbor call.memory handlers (call.len + 1)⟩ := by
    rw [settings_get, bytes, if_pos rfl]
    rfl
  refine ⟨fun read bytes => by rw [found read bytes]; rfl, ?_, ?_⟩
  · intro read zsd rest count values bytes at' backups
    have notNil := lawful.nilExpect call.memory zsd _ _ at' (by simp)
    obtain ⟨inside, entered, atEnd, enclosing, used⟩ :=
      lawful.mapStart.enters call.memory zsd rest 0 count (by decide) at' backups
    obtain ⟨next, left, behind, _, same⟩ := lawful.mapEnd call.memory inside rest count _ atEnd enclosing
    refine ⟨next, ?_, behind, by omega⟩
    rw [valueDecode_entry (found read bytes)]
    simp [settingsDecode, notNil, entered, settingsLoop, atEnd.listOrMapEnd, left]
  · intro read zsd part more count values bytes split missing at'
    obtain rfl := cut_byte rfl split missing
    have notNil := lawful.nilExpect call.memory zsd _ _ at' (by simp)
    have notMap := lawful.mapStart.other call.memory zsd _ _ at' (by simp)
    refine ⟨.ebadmsg, ?_⟩
    rw [valueDecode_entry (found read bytes)]
    simp only [settingsDecode, notNil, notMap]

theorem settingsDownlink_map (lawful : zcbor.Lawful) (effects : SettingsEffects) (items : Nat)
    (rest : List UInt8) (few : items < 2 ^ 16) (bytes : call.bytes = Cbor.encodeHead 5 items ++ rest) :
    ∃ zsd, settingsDownlink zcbor handlers effects call =
        (mapDecodeLoop zcbor call.memory (settingsEntries zcbor handlers call) (call.len + 1) 0 zsd
          (call.unset 0).key effects).2 ∧
      zsd.At call.memory rest (2 * items) ∧ 0 < zsd.backups := by
  obtain ⟨zsd, entered, inside, backups⟩ := lawful.startMap 1 items few bytes
  exact ⟨zsd, by simp only [settingsDownlink, zcborMapDecode_values, entered], inside, by omega⟩

theorem settingsDownlink_noMap (lawful : zcbor.Lawful) (effects : SettingsEffects)
    (noMap : ∀ first ∈ call.bytes.head?, first.toNat / 32 ≠ 5 ∨ first = 0xa0) :
    settingsDownlink zcbor handlers effects call = effects := by
  by_cases empty : call.bytes.head? = some 0xa0
  next =>
    obtain ⟨rest, bytes⟩ := List.head?_eq_some_iff.mp empty
    obtain ⟨zsd, downlink, inside, _⟩ := settingsDownlink_map handlers lawful effects 0 rest (by decide) bytes
    rw [downlink, mapDecodeLoop_succ, if_neg (by simp [inside.listOrMapEnd])]
  next =>
    have other : ∀ first ∈ call.bytes.head?, first.toNat / 32 ≠ 5 := by
      intro first member
      rcases noMap first member with other | rfl
      · exact other
      · exact absurd member empty
    simp only [settingsDownlink, zcborMapDecode_values, lawful.startOther 2 other]

theorem settingsDownlink_cut (lawful : zcbor.Lawful) (effects : SettingsEffects) (items : Nat) (few : items < 24)
    {rest more : List UInt8}
    (idle : CutIdle zcbor call.memory (settingsEntries zcbor handlers call) rest (2 * items))
    (split : call.bytes ++ more = Cbor.encodeHead 5 items ++ rest) (missing : more ≠ []) :
    settingsDownlink zcbor handlers effects call = effects := by
  rcases beginning_cases split missing with ⟨others, inHead, missing'⟩ | ⟨behind, bytes, inRest⟩
  · have nothing := cut_byte (Cbor.encodeHead_length_small 5 items few) inHead missing'
    exact settingsDownlink_noMap handlers lawful effects (by simp [nothing])
  · obtain ⟨zsd, downlink, inside, backups⟩ :=
      settingsDownlink_map handlers lawful effects items behind (by omega) bytes
    rw [downlink]
    exact idle behind more inRest missing _ _ zsd _ effects inside backups

-- No settings, a version, and in front of them anything under the empty text.
def samplePairs (other : Option (List UInt8)) (version : Nat) : List (List UInt8 × List UInt8) :=
  (other.map fun item => ([], item)).toList ++ [(settingsLabel, [0xa0]), (versionLabel, Cbor.encodeHead 0 version)]

def sampleEnd (version : Nat) : List UInt8 :=
  textItem settingsLabel ++ ([0xa0] ++ (textItem versionLabel ++ (Cbor.encodeHead 0 version ++ [])))

theorem sampleEnd_loop (call : DataCall) (lawful : zcbor.Lawful) (version : Nat) (fits : version < 2 ^ 63)
    (fuel : Nat) (zsd : ZcborState) (key : MapKey) (effects : SettingsEffects) (backups : 0 < zsd.backups)
    (inside : zsd.At call.memory (sampleEnd version) 4) :
    (mapDecodeLoop zcbor call.memory (settingsEntries zcbor handlers call) (fuel + 3) 0 zsd key effects).2 =
      { effects with version := version } := by
  obtain ⟨next, nextKey, loop, behind, same⟩ := mapDecodeLoop_pair lawful (by decide)
    (settings_handles_empty handlers lawful) (fuel + 2) 0 zsd key effects (by simp [settingsEntries])
    backups inside
  obtain ⟨last, lastKey, loop', atEnd, _⟩ := mapDecodeLoop_pair lawful (by decide)
    (settings_handles_version handlers lawful version fits) (fuel + 1) 1 next nextKey effects
    (by simp [settingsEntries]) (by omega) behind
  rw [loop]
  simp only [id_eq, if_true, Nat.zero_add]
  rw [loop', mapDecodeLoop_succ, if_neg (by simp [settingsEntries])]

theorem sampleEnd_idle (call : DataCall) (lawful : zcbor.Lawful) (version : Nat) (fits : version < 2 ^ 63) :
    CutIdle zcbor call.memory (settingsEntries zcbor handlers call) (sampleEnd version) 4 := by
  unfold sampleEnd
  apply cutIdle_pair lawful (by decide) (settings_handles_empty handlers lawful)
  rw [List.append_nil]
  exact cutIdle_last lawful (by decide) (settings_handles_version handlers lawful version fits)

theorem mapDocument_none (version : Nat) :
    mapDocument (samplePairs none version) = Cbor.encodeHead 5 2 ++ sampleEnd version := by
  simp [mapDocument, samplePairs, sampleEnd]

theorem mapDocument_some (item : List UInt8) (version : Nat) :
    mapDocument (samplePairs (some item) version) =
      Cbor.encodeHead 5 3 ++ (textItem [] ++ (item ++ sampleEnd version)) := by
  simp [mapDocument, samplePairs, sampleEnd]

theorem sampleEnd_length (version : Nat) : 19 ≤ (sampleEnd version).length := by
  have head := Cbor.encodeHead_length_pos 0 version
  have settings : (textItem settingsLabel).length = 9 := by decide
  have version' : (textItem versionLabel).length = 8 := by decide
  simp only [sampleEnd, List.length_append, settings, version', List.length_cons, List.length_nil]
  omega

theorem sample_whole (lawful : zcbor.Lawful) (other : Option (List UInt8))
    (canonical : ∀ item ∈ other, Cbor.Canonical item) (version : Nat) (fits : version < 2 ^ 63)
    (effects : SettingsEffects) (bytes : call.bytes = mapDocument (samplePairs other version)) :
    settingsDownlink zcbor handlers effects call = { effects with version := version } := by
  have length := call.bytes_length
  have long := sampleEnd_length version
  cases other with
  | none =>
    rw [mapDocument_none] at bytes
    obtain ⟨zsd, downlink, inside, backups⟩ := settingsDownlink_map handlers lawful effects 2 _ (by decide) bytes
    rw [bytes, List.length_append] at length
    rw [downlink, show call.len + 1 = call.len - 2 + 3 by omega]
    exact sampleEnd_loop handlers call lawful version fits _ zsd _ effects backups inside
  | some item =>
    rw [mapDocument_some] at bytes
    obtain ⟨zsd, downlink, inside, backups⟩ := settingsDownlink_map handlers lawful effects 3 _ (by decide) bytes
    simp only [bytes, List.length_append] at length
    obtain ⟨next, nextKey, loop, behind, same⟩ := mapDecodeLoop_pair lawful (by decide)
      (settings_handles_other handlers lawful (canonical item rfl) (by decide) (by decide)) (call.len - 3 + 3) 0 zsd
      (call.unset 0).key effects (by simp [settingsEntries]) backups inside
    rw [downlink, show call.len + 1 = call.len - 3 + 3 + 1 by omega, loop]
    exact sampleEnd_loop handlers call lawful version fits _ next nextKey effects (by omega) behind

theorem sample_cut (lawful : zcbor.Lawful) (other : Option (List UInt8))
    (canonical : ∀ item ∈ other, Cbor.Canonical item) (version : Nat) (fits : version < 2 ^ 63)
    (effects : SettingsEffects) {more : List UInt8}
    (split : call.bytes ++ more = mapDocument (samplePairs other version)) (missing : more ≠ []) :
    settingsDownlink zcbor handlers effects call = effects := by
  have idle := sampleEnd_idle handlers call lawful version fits
  cases other with
  | none =>
    rw [mapDocument_none] at split
    exact settingsDownlink_cut handlers lawful effects 2 (by decide) idle split missing
  | some item =>
    rw [mapDocument_some] at split
    have handles : Handles zcbor call.memory (settingsEntries zcbor handlers call) [] item false id :=
      settings_handles_other handlers lawful (canonical item rfl) (by decide) (by decide)
    exact settingsDownlink_cut handlers lawful effects 3 (by decide)
      (cutIdle_pair lawful (by decide) handles idle) split missing

theorem sample_document (other : Option (List UInt8)) (canonical : ∀ item ∈ other, Cbor.Canonical item)
    (version : Nat) (fits : version < 2 ^ 63) (formed : Cbor.WellFormed (Cbor.encodeHead 0 version)) :
    SettingsDocument (mapDocument (samplePairs other version)) := by
  refine ⟨samplePairs other version, rfl, ?_, ⟨[0xa0], by simp [samplePairs]⟩, version, fits,
    .inl (by simp [samplePairs])⟩
  intro pair member
  simp only [samplePairs, List.mem_append, Option.mem_toList, Option.map_eq_some_iff, List.mem_cons,
    List.not_mem_nil, or_false] at member
  obtain ⟨item, present, rfl⟩ | rfl | rfl := member
  · exact (canonical item present).wellFormed
  · rfl
  · exact formed

theorem exists_sample (size : Nat) (long : 20 ≤ size) :
    ∃ other version, (∀ item ∈ other, Cbor.Canonical item) ∧ version < 2 ^ 63 ∧
      Cbor.WellFormed (Cbor.encodeHead 0 version) ∧ (mapDocument (samplePairs other version)).length = size ∧
      ∀ byte ∈ (mapDocument (samplePairs other version)).drop 1, byte.toNat / 32 ≠ 5 ∨ byte = 0xa0 := by
  by_cases shortest : size = 20
  · exact ⟨none, 0, by simp, by decide, rfl, by subst shortest; rfl, by decide +kernel⟩
  · by_cases longer : size = 21
    · exact ⟨none, 24, by simp, by decide, rfl, by subst longer; rfl, by decide +kernel⟩
    · refine ⟨some (List.replicate (size - 22) 0xc6 ++ [0]), 0, ?_, by decide, rfl, ?_, ?_⟩
      · rintro item ⟨⟩
        exact Cbor.canonical_tags _
      · have rest : (sampleEnd 0).length = 19 := by decide
        have head : (Cbor.encodeHead 5 3).length = 1 := by decide
        have key : (textItem []).length = 1 := by decide
        simp only [mapDocument_some, List.length_append, rest, head, key, List.length_replicate, List.length_cons,
          List.length_nil]
        omega
      · have fixed : ∀ byte ∈ textItem [] ++ [0] ++ sampleEnd 0, byte.toNat / 32 ≠ 5 ∨ byte = 0xa0 := by
          decide +kernel
        intro byte member
        rw [mapDocument_some, show Cbor.encodeHead 5 3 = [0xa3] by rfl, List.singleton_append, List.drop_succ_cons,
          List.drop_zero] at member
        simp only [List.mem_append, List.mem_replicate] at member fixed
        rcases member with key | (⟨_, rfl⟩ | number) | others
        · exact fixed byte (.inl (.inl key))
        · exact .inl (by decide)
        · exact fixed byte (.inl (.inr number))
        · exact fixed byte (.inr others)

theorem SettingsDocument.length_le {document : List UInt8} (settings : SettingsDocument document) :
    20 ≤ document.length := by
  obtain ⟨pairs, rfl, formed, ⟨value, hasSettings⟩, version, _, hasVersion⟩ := settings
  have both : ∃ version, (versionLabel, version) ∈ pairs := by
    rcases hasVersion with member | member <;> exact ⟨_, member⟩
  obtain ⟨version, hasVersion⟩ := both
  have first := (formed _ hasSettings).length_pos
  have second := (formed _ hasVersion).length_pos
  have both := length_flatMap_subset (fun pair => textItem pair.1 ++ pair.2)
    [(settingsLabel, value), (versionLabel, version)] pairs (by simp [settingsLabel, versionLabel])
    (by simp [hasSettings, hasVersion])
  have head := Cbor.encodeHead_length_pos 5 pairs.length
  have settings : (textItem settingsLabel).length = 9 := by decide
  have version' : (textItem versionLabel).length = 8 := by decide
  simp only [List.flatMap_cons, List.flatMap_nil, List.append_nil, List.length_append] at both first second
  rw [mapDocument, List.length_append]
  omega

/-- Every settings document of this size has the same effect in these pieces as in one entry. -/
def SettingsIndependent (zcbor : Zcbor) (handlers : List SettingsHandler) (sizes : List Nat) : Prop :=
  ∀ entry : DataCall, entry.len = totalSize sizes → SettingsDocument entry.bytes → ∀ effects,
    (cutAt entry 0 sizes).foldl (settingsDownlink zcbor handlers) effects =
      settingsDownlink zcbor handlers effects entry

theorem settings_divided (lawful : zcbor.Lawful) (sizes : List Nat) (long : 20 ≤ totalSize sizes)
    (divided : ¬ Undivided sizes) : ¬ SettingsIndependent zcbor handlers sizes := by
  obtain ⟨other, version, canonical, fits, formed, length, noMap⟩ := exists_sample (totalSize sizes) long
  have lost := divided_differs (settingsDownlink zcbor handlers) (mapDocument (samplePairs other version)) ⟨-1, []⟩
    ?_ ?_ ?_ sizes length.symm divided
  · obtain ⟨entry, len, bytes, different⟩ := lost
    intro independent
    have document := sample_document other canonical version fits formed
    exact different (independent entry len (bytes ▸ document) ⟨-1, []⟩)
  · intro call bytes
    rw [sample_whole handlers lawful other canonical version fits _ bytes]
    simp
  · intro call more split missing
    exact sample_cut handlers lawful other canonical version fits _ split missing
  · intro call behind
    apply settingsDownlink_noMap handlers lawful
    intro first member
    exact noMap first (behind first (List.mem_of_mem_head? member))

theorem settings_undivided (lawful : zcbor.Lawful) (sizes : List Nat) (undivided : Undivided sizes) :
    SettingsIndependent zcbor handlers sizes := by
  intro entry len _ effects
  apply fold_undivided effects _ _ sizes len.symm undivided
  · intro effects call empty
    apply settingsDownlink_noMap handlers lawful
    simp [List.length_eq_zero_iff.mp (call.bytes_length.trans empty)]
  · intros
    rfl

theorem settings_independent (lawful : zcbor.Lawful) (sizes : List Nat) :
    SettingsIndependent zcbor handlers sizes ↔ Undivided sizes ∨ totalSize sizes < 20 := by
  constructor
  · intro independent
    by_contra neither
    rw [not_or, Nat.not_lt] at neither
    exact settings_divided handlers lawful sizes neither.2 neither.1 independent
  · rintro (undivided | short)
    · exact settings_undivided handlers lawful sizes undivided
    · intro entry len settings
      have long := settings.length_le
      rw [entry.bytes_length] at long
      omega

end Settings

end Pouch
