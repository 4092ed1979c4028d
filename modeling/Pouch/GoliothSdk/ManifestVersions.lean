import Pouch.GoliothSdk.ComponentPath
import Pouch.GoliothSdk.Fragmentation
import Pouch.GoliothSdk.MapCompleteness

set_option autoImplicit false

/-!
# Versions of manifests

The version of a component goes from the manifest into an array with a terminator, and from there into the target of
the registered components, which has one byte less.
-/

namespace Pouch

open ByteMemory

structure ComponentTexts where
  package : List UInt8
  version : List UInt8
  hashStr : List UInt8
  size : Int

section Model

variable (cfg : OtaConfig) (zcbor : Zcbor) (memory : Memory)

def componentTextDecode (valueLen : Nat) (put : ComponentTexts → List UInt8 → ComponentTexts) (zsd : ZcborState)
    (texts : ComponentTexts) : Except DecodeError ZcborState × ComponentTexts :=
  match zcbor.tstrDecode memory zsd with
  | none => (.error .ebadmsg, texts)
  | some (tstr, zsd) =>
    if valueLen < tstr.len then (.error .enomem, texts) else (.ok zsd, put texts (tstr.bytes memory))

-- The entries of a component, with callbacks that keep whole texts.
def textEntries : List (MapEntry ComponentTexts) :=
  [{ key := .u32 componentKeyPackage
     decode := componentTextDecode zcbor memory cfg.maxPackageNameLen fun texts package =>
      { texts with package := package } },
   { key := .u32 componentKeyVersion
     decode := componentTextDecode zcbor memory cfg.maxVersionLen fun texts version =>
      { texts with version := version } },
   { key := .u32 componentKeySize
     decode := zcborMapIntDecode memory zcbor.int32Decode fun texts size => { texts with size := size } },
   { key := .u32 componentKeyHash
     decode := componentTextDecode zcbor memory hashHexLen fun texts hash =>
      { texts with hashStr := putText texts.hashStr hash } }]

def componentTexts (call : DataCall) (unset : Unset) (zsd : ZcborState) :
    Except DecodeError ZcborState × ComponentTexts :=
  zcborMapDecode zcbor call.memory (textEntries cfg zcbor call.memory) (call.len + 1) unset.key zsd
    ⟨[], [], unset.hashStr, 0⟩

/-- The components of that name have the version, the hash and the size, and the data of all others is what it was. -/
def StoredExactly (registry : List RegisteredComponent) (before after : Ota) (texts : ComponentTexts)
    (hash : Bytes 32) : Prop :=
  ∀ index registered, registry[index]? = some registered →
    if registered.name.bytes = texts.package then
      (stringIn (after.components index).target).bytes = texts.version ∧
        (after.components index).targetHash = hash ∧ ((after.components index).size : Int) = texts.size
    else
      after.components index = before.components index

structure Storable (registry : List RegisteredComponent) (texts : ComponentTexts) : Prop where
  package : ∀ registered ∈ registry, registered.name.bytes = texts.package.takeWhile (· ≠ 0) → 0 ∉ texts.package
  version : ∀ registered ∈ registry, registered.name.bytes = texts.package.takeWhile (· ≠ 0) →
    0 ∉ texts.version ∧ texts.version.length < cfg.maxVersionLen
  size : ∀ registered ∈ registry, registered.name.bytes = texts.package.takeWhile (· ≠ 0) →
    0 ≤ texts.size ∧ texts.size < cfg.sizeRange

structure Holds (fields : ComponentFields) (texts : ComponentTexts) : Prop where
  package : ∃ behind, fields.package = texts.package ++ 0 :: behind
  version : ∃ behind, fields.version = texts.version ++ 0 :: behind
  hashStr : fields.hashStr = texts.hashStr
  size : fields.size = texts.size

end Model

section Texts

variable {cfg : OtaConfig} {zcbor : Zcbor} {memory : Memory}

theorem textEntry_simulates {key : EntryKey} {valueLen : Nat} {get : ComponentFields → List UInt8}
    {put : ComponentFields → List UInt8 → ComponentFields} {putWhole : ComponentTexts → List UInt8 → ComponentTexts}
    (holds : ∀ fields texts text, Holds fields texts →
      Holds (put fields (putText (get fields) text)) (putWhole texts text)) :
    Simulates Holds ⟨key, componentEntryDecodeValue zcbor memory valueLen get put⟩
      ⟨key, componentTextDecode zcbor memory valueLen putWhole⟩ := by
  refine ⟨rfl, ?_, ?_⟩
  all_goals
    intro zsd fields texts same
    simp only [componentEntryDecodeValue, componentTextDecode]
    cases zcbor.tstrDecode memory zsd with
    | none => first | rfl | exact same
    | some read =>
      simp only
      split_ifs
      · first | rfl | exact same
      · first | rfl | exact holds _ _ _ same

theorem textEntries_simulate (cfg : OtaConfig) (zcbor : Zcbor) (memory : Memory) :
    List.Forall₂ (Simulates Holds) (componentEntries zcbor memory cfg) (textEntries cfg zcbor memory) := by
  have size : Simulates Holds
      ⟨.u32 componentKeySize,
        zcborMapIntDecode memory zcbor.int32Decode fun fields size => { fields with size := size }⟩
      ⟨.u32 componentKeySize,
        zcborMapIntDecode memory zcbor.int32Decode fun texts size => { texts with size := size }⟩ := by
    refine ⟨rfl, ?_, ?_⟩
    all_goals
      intro zsd fields texts same
      simp only [zcborMapIntDecode]
      cases zcbor.int32Decode memory zsd with
      | none => first | rfl | exact same
      | some read => first | rfl | exact ⟨same.package, same.version, same.hashStr, rfl⟩
  refine .cons ?_ (.cons ?_ (.cons size (.cons ?_ .nil)))
  · exact textEntry_simulates fun fields texts text same => ⟨⟨_, rfl⟩, same.version, same.hashStr, same.size⟩
  · exact textEntry_simulates fun fields texts text same => ⟨same.package, ⟨_, rfl⟩, same.hashStr, same.size⟩
  · exact textEntry_simulates fun fields texts text same =>
      ⟨same.package, same.version, by simp only [same.hashStr], same.size⟩

theorem stringIn_terminated (text behind : List UInt8) :
    (stringIn (text ++ 0 :: behind)).bytes = text.takeWhile (· ≠ 0) := by
  simp only [stringIn]
  induction text with
  | nil => rfl
  | cons byte text ih =>
    by_cases isNul : byte = 0
    · simp [isNul]
    · simpa [isNul] using ih

theorem takeWhile_of_noNul {text : List UInt8} (noNul : 0 ∉ text) : text.takeWhile (· ≠ 0) = text :=
  cString_of_noNul text fun _ member same => noNul (same ▸ member)

theorem retarget_version (data : ComponentData) (component : OtaComponent) :
    (stringIn (data.retarget cfg component).target).bytes = component.version.bytes.take (cfg.maxVersionLen - 1) := by
  have noNul : 0 ∉ component.version.bytes := fun nul => component.version.noNul 0 nul rfl
  simp only [ComponentData.retarget]
  by_cases long : cfg.maxVersionLen - 1 ≤ component.version.bytes.length
  · rw [strncpyBytes_of_le _ _ long, stringIn_terminated,
      takeWhile_of_noNul fun nul => noNul (List.mem_of_mem_take nul)]
  · have short : component.version.bytes.length < cfg.maxVersionLen - 1 := by omega
    obtain ⟨behind, copied⟩ := strncpyBytes_terminated short
    rw [copied, List.append_assoc, List.cons_append, stringIn_terminated, takeWhile_of_noNul noNul,
      List.take_of_length_le short.le]

theorem version_kept_iff (version : List UInt8) :
    (version.takeWhile (· ≠ 0)).take (cfg.maxVersionLen - 1) = version ↔
      0 ∉ version ∧ version.length < cfg.maxVersionLen := by
  have positive := cfg.maxVersionLenPositive
  constructor
  · intro kept
    have length := congrArg List.length kept
    rw [List.length_take] at length
    refine ⟨?_, by omega⟩
    intro nul
    rw [← kept] at nul
    simpa using List.mem_takeWhile_imp (List.mem_of_mem_take nul)
  · rintro ⟨noNul, short⟩
    rw [takeWhile_of_noNul noNul, List.take_of_length_le (by omega)]

theorem size_kept_iff (size : Int) :
    (((size % cfg.sizeRange).toNat : Nat) : Int) = size ↔ 0 ≤ size ∧ size < cfg.sizeRange := by
  have positive : (0 : Int) < cfg.sizeRange := by
    have wide := cfg.sizeRange_ge
    omega
  have lower := Int.emod_nonneg size positive.ne'
  have upper := Int.emod_lt_of_pos size positive
  rw [Int.toNat_of_nonneg lower]
  constructor
  · intro kept
    omega
  · rintro ⟨nonneg, fits⟩
    exact Int.emod_eq_of_lt nonneg fits

end Texts

section Components

variable {cfg : OtaConfig} {registry : List RegisteredComponent} {zcbor : Zcbor}
  {hex2bin : List UInt8 → Option (Bytes 32)} {call : DataCall} {unset : Unset} {zsd next : ZcborState}
  {texts : ComponentTexts} {hash : Bytes 32}

theorem manifestComponent_texts (registry : List RegisteredComponent)
    (decoded : componentTexts cfg zcbor call unset zsd = (.ok next, texts))
    (isHash : hex2bin (texts.hashStr.take hashHexLen) = some hash) :
    ∃ component : OtaComponent, component.package.bytes = texts.package.takeWhile (· ≠ 0) ∧
      component.version.bytes = texts.version.takeWhile (· ≠ 0) ∧ component.hash = hash ∧ component.size = texts.size ∧
      ∀ effects, manifestComponent cfg registry zcbor hex2bin call unset zsd effects =
        (some next, { effects with ota := goliothOtaManifestReceiveOne cfg registry effects.ota component }) := by
  have blank : Holds ⟨List.replicate (cfg.maxPackageNameLen + 1) 0, List.replicate (cfg.maxVersionLen + 1) 0,
      unset.hashStr, 0⟩ ⟨[], [], unset.hashStr, 0⟩ := ⟨⟨_, rfl⟩, ⟨_, rfl⟩, rfl, rfl⟩
  obtain ⟨status, holds⟩ := zcborMapDecode_simulates zcbor call.memory (textEntries_simulate cfg zcbor call.memory)
    (call.len + 1) unset.key zsd blank
  unfold componentTexts at decoded
  rw [decoded] at status holds
  cases run : zcborMapDecode zcbor call.memory (componentEntries zcbor call.memory cfg) (call.len + 1) unset.key zsd
      ⟨List.replicate (cfg.maxPackageNameLen + 1) 0, List.replicate (cfg.maxVersionLen + 1) 0, unset.hashStr, 0⟩ with
  | mk result fields =>
    rw [run] at status holds
    obtain rfl : result = .ok next := status
    have holds : Holds fields texts := holds
    obtain ⟨behind, package⟩ := holds.package
    obtain ⟨behind', version⟩ := holds.version
    refine ⟨⟨stringIn fields.package, stringIn fields.version, hash, fields.size⟩, ?_, ?_, rfl, holds.size, ?_⟩
    · rw [package, stringIn_terminated]
    · rw [version, stringIn_terminated]
    · intro effects
      simp only [manifestComponent, run, holds.hashStr, isHash]

theorem receiveOne_components (ota : Ota) (component : OtaComponent) {index : Nat} {registered : RegisteredComponent}
    (found : registry[index]? = some registered) :
    (goliothOtaManifestReceiveOne cfg registry ota component).components index =
      if registered.name.bytes = component.package.bytes then (ota.components index).retarget cfg component
      else ota.components index := by
  simp [goliothOtaManifestReceiveOne, found]

theorem exists_retarget_ne (cfg : OtaConfig) (component : OtaComponent) :
    ∃ data : ComponentData, data.retarget cfg component ≠ data := by
  refine ⟨⟨[], Bytes.zero 32, (component.size % cfg.sizeRange).toNat + 1, .idle⟩, ?_⟩
  intro same
  have size := congrArg ComponentData.size same
  simp only [ComponentData.retarget] at size
  omega

theorem storable_of_stored {component : OtaComponent}
    (package : component.package.bytes = texts.package.takeWhile (· ≠ 0))
    (version : component.version.bytes = texts.version.takeWhile (· ≠ 0)) (size : component.size = texts.size)
    (stored : ∀ ota, StoredExactly registry ota (goliothOtaManifestReceiveOne cfg registry ota component) texts
      component.hash) : Storable cfg registry texts := by
  have named : ∀ registered ∈ registry, registered.name.bytes = texts.package.takeWhile (· ≠ 0) →
      0 ∉ texts.package := by
    intro registered member isFound nul
    obtain ⟨index, found⟩ := List.mem_iff_getElem?.mp member
    obtain ⟨data, changes⟩ := exists_retarget_ne cfg component
    have other : registered.name.bytes ≠ texts.package := by
      intro same
      exact registered.name.noNul 0 (same ▸ nul) rfl
    have kept := stored { Ota.boot cfg registry with components := fun _ => data } index registered found
    rw [if_neg other, receiveOne_components _ _ found, if_pos (isFound.trans package.symm)] at kept
    exact changes kept
  have exact' : ∀ registered ∈ registry, registered.name.bytes = texts.package.takeWhile (· ≠ 0) →
      (texts.version.takeWhile (· ≠ 0)).take (cfg.maxVersionLen - 1) = texts.version ∧
        (((texts.size % cfg.sizeRange).toNat : Nat) : Int) = texts.size := by
    intro registered member isFound
    obtain ⟨index, found⟩ := List.mem_iff_getElem?.mp member
    have whole := takeWhile_of_noNul (named registered member isFound)
    have kept := stored (Ota.boot cfg registry) index registered found
    rw [if_pos (isFound.trans whole), receiveOne_components _ _ found, if_pos (isFound.trans package.symm),
      retarget_version, version] at kept
    exact ⟨kept.1, by simpa only [ComponentData.retarget, size] using kept.2.2⟩
  exact ⟨named, fun registered member isFound => (version_kept_iff _).mp (exact' registered member isFound).1,
    fun registered member isFound => (size_kept_iff _).mp (exact' registered member isFound).2⟩

theorem stored_of_storable {component : OtaComponent}
    (package : component.package.bytes = texts.package.takeWhile (· ≠ 0))
    (version : component.version.bytes = texts.version.takeWhile (· ≠ 0)) (size : component.size = texts.size)
    (storable : Storable cfg registry texts) (ota : Ota) :
    StoredExactly registry ota (goliothOtaManifestReceiveOne cfg registry ota component) texts component.hash := by
  intro index registered found
  have member := List.mem_of_getElem? found
  rw [receiveOne_components _ _ found, package]
  by_cases isFound : registered.name.bytes = texts.package.takeWhile (· ≠ 0)
  · have whole := takeWhile_of_noNul (storable.package registered member isFound)
    rw [if_pos (isFound.trans whole), if_pos isFound, retarget_version, version]
    refine ⟨(version_kept_iff _).mpr (storable.version registered member isFound), rfl, ?_⟩
    simp only [ComponentData.retarget, size]
    exact (size_kept_iff _).mpr (storable.size registered member isFound)
  · have other : registered.name.bytes ≠ texts.package := by
      intro same
      have noNul : 0 ∉ texts.package := fun nul => registered.name.noNul 0 (same ▸ nul) rfl
      exact isFound (same.trans (takeWhile_of_noNul noNul).symm)
    rw [if_neg other, if_neg isFound]

end Components

/-- A component of a manifest is stored exactly, whatever the registered components had before, if and only if for every
one that is found for it its package has no NUL, its version neither has one nor as many bytes as were configured, and
its size is not negative. -/
theorem manifest_stored_exactly_iff (cfg : OtaConfig) (registry : List RegisteredComponent) (zcbor : Zcbor)
    (hex2bin : List UInt8 → Option (Bytes 32)) (call : DataCall) (unset : Unset) (zsd next : ZcborState)
    (texts : ComponentTexts) (hash : Bytes 32) (decoded : componentTexts cfg zcbor call unset zsd = (.ok next, texts))
    (isHash : hex2bin (texts.hashStr.take hashHexLen) = some hash) :
    (∀ effects, ∃ after, manifestComponent cfg registry zcbor hex2bin call unset zsd effects = (some next, after) ∧
      StoredExactly registry effects.ota after.ota texts hash) ↔ Storable cfg registry texts := by
  obtain ⟨component, package, version, rfl, size, stored⟩ := manifestComponent_texts registry decoded isHash
  constructor
  · intro exactly
    apply storable_of_stored package version size
    intro ota
    obtain ⟨after, result, exact'⟩ := exactly ⟨ota, []⟩
    rw [stored, Prod.mk.injEq] at result
    rwa [← result.2] at exact'
  · intro storable effects
    exact ⟨_, stored effects, stored_of_storable package version size storable effects.ota⟩

def versionPairs (version : List UInt8) : List (List UInt8 × List UInt8) :=
  [([1], [0x61, 0x61]), ([2], version), ([4], [5]), ([3], [0x78, 64] ++ List.replicate 64 0x30)]

theorem versionPairs_areItems {version : List UInt8} (isItem : definiteItems.Item version) :
    ∀ pair ∈ versionPairs version, definiteItems.Item pair.1 ∧ definiteItems.Item pair.2 := by
  simp only [versionPairs, List.forall_mem_cons]
  exact ⟨by decide +kernel, ⟨by decide +kernel, isItem⟩, by decide +kernel, by decide +kernel, by simp⟩

def versionComponent (head version : List UInt8) (isItem : definiteItems.Item (head ++ version)) :
    CborMap definiteItems where
  head := [0xa4]
  indefinite := false
  pairs := versionPairs (head ++ version)
  isHead := ⟨rfl, show Cbor.readShortHead [0xa4] = some (5, 4, []) by decide⟩
  areItems := versionPairs_areItems isItem

-- The version "1".
def shortVersion : CborMap definiteItems := versionComponent [0x61] [0x31] (by decide +kernel)

-- A version with the 32 bytes that are configured.
def longVersion : CborMap definiteItems :=
  versionComponent [0x78, 32] (List.replicate 32 0x31) (by decide +kernel)

section Samples

variable (component : CborMap definiteItems)

def sampleTexts : Except DecodeError ZcborState × ComponentTexts :=
  componentTexts sampleOtaConfig cborDecoder (documentCall component) ⟨⟨.u32, 0, 0⟩, List.replicate 65 0xff⟩
    (zcborStateD 3 0 component.bytes.length)

def sampleStored (effects : ManifestEffects) : Option ZcborState × ManifestEffects :=
  manifestComponent sampleOtaConfig sampleRegistry cborDecoder hexHash (documentCall component)
    ⟨⟨.u32, 0, 0⟩, List.replicate 65 0xff⟩ (zcborStateD 3 0 component.bytes.length) effects

def sampleNext : ZcborState := (zcborStateD 3 0 component.bytes.length).past component.bytes.length

end Samples

theorem short_version_stored :
    sampleTexts shortVersion = (.ok (sampleNext shortVersion),
        ⟨samplePackage.bytes, [0x31], List.replicate 64 0x30 ++ [0], 5⟩) ∧
      ∀ effects, ∃ after, sampleStored shortVersion effects = (some (sampleNext shortVersion), after) ∧
        StoredExactly sampleRegistry effects.ota after.ota
          ⟨samplePackage.bytes, [0x31], List.replicate 64 0x30 ++ [0], 5⟩ (Bytes.zero 32) := by
  refine ⟨rfl, ?_⟩
  apply (manifest_stored_exactly_iff sampleOtaConfig sampleRegistry cborDecoder hexHash (documentCall shortVersion)
    ⟨⟨.u32, 0, 0⟩, List.replicate 65 0xff⟩ (zcborStateD 3 0 shortVersion.bytes.length) (sampleNext shortVersion)
    ⟨samplePackage.bytes, [0x31], List.replicate 64 0x30 ++ [0], 5⟩ (Bytes.zero 32) rfl rfl).mpr
  refine ⟨?_, ?_, ?_⟩
  all_goals
    intro registered _ _
    decide +kernel

/-- Of a version with as many bytes as are configured the target lacks the last one. -/
theorem long_version_cut :
    sampleTexts longVersion = (.ok (sampleNext longVersion),
        ⟨samplePackage.bytes, List.replicate 32 0x31, List.replicate 64 0x30 ++ [0], 5⟩) ∧
      sampleOtaConfig.maxVersionLen = 32 ∧
      ∃ after, sampleStored longVersion ⟨.boot sampleOtaConfig sampleRegistry, []⟩ =
          (some (sampleNext longVersion), after) ∧
        (stringIn (after.ota.components 0).target).bytes = List.replicate 31 0x31 ∧
        ¬ StoredExactly sampleRegistry (.boot sampleOtaConfig sampleRegistry) after.ota
          ⟨samplePackage.bytes, List.replicate 32 0x31, List.replicate 64 0x30 ++ [0], 5⟩ (Bytes.zero 32) := by
  refine ⟨rfl, rfl, _, rfl, by decide +kernel, ?_⟩
  intro stored
  have target := (stored 0 _ rfl).1
  revert target
  decide +kernel

end Pouch
