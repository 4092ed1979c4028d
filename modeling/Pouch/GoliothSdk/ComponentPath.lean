import Pouch.GoliothSdk.OtaOffsets
import Pouch.GoliothSdk.PathMatching

set_option autoImplicit false

/-!
# Paths of components

The path of a component has its name and version, with an '@' between them. The name is copied whatever its
length, and the version as far as its array goes.
-/

namespace Pouch

open ByteMemory

structure HoldsString (memory : Memory) (address size : Nat) (text : List UInt8) : Prop where
  within : text.length < size
  content : load memory address text.length = text
  terminated : memory (address + text.length) = 0

def componentRemainder (path : CString) : List UInt8 := path.bytes.drop otaComponentService.stem.length

def nameIn (remainder : List UInt8) : List UInt8 := remainder.takeWhile (· ≠ atSign)

def versionIn (remainder : List UInt8) : List UInt8 := remainder.drop ((nameIn remainder).length + 1)

section Model

variable (cfg : OtaConfig)

-- The calls of the component service's `start_cb`. There is no result once a NULL pointer was followed.
def componentStarts (service : Nat) (download : ComponentDownload) (calls : List ServiceCall) :
    Option ComponentDownload :=
  calls.foldlM
    (fun download call =>
      match call with
      | .startCb index id pathRemainder =>
        if index = service then otaReceiveComponentStart cfg download id pathRemainder else some download
      | .dataCb .. => some download)
    download

structure ComponentParsed (path : CString) (before after : ComponentDownload) : Prop where
  parsed : after.downlinkId = downlinkIdInvalid ∨
    HoldsString after.text 0 cfg.nameSize (nameIn (componentRemainder path)) ∧
      HoldsString after.text cfg.nameSize cfg.versionSize (versionIn (componentRemainder path))
  inside : ∀ address, cfg.nameSize + cfg.versionSize ≤ address → after.text address = before.text address

def FitsArrays (remainder : List UInt8) : Prop :=
  remainder ≠ [] ∧ (atSign ∈ remainder →
    (nameIn remainder).length ≤ cfg.maxPackageNameLen ∧ (versionIn remainder).length ≤ cfg.maxVersionLen)

end Model

section Copies

variable {cfg : OtaConfig} {remainder : List UInt8}

theorem findIdx?_eq_nameIn (remainder : List UInt8) :
    remainder.findIdx? (· = atSign) = if atSign ∈ remainder then some (nameIn remainder).length else none := by
  induction remainder with
  | nil => rfl
  | cons byte rest ih =>
    by_cases isAt : byte = atSign
    · simp [List.findIdx?_cons, nameIn, isAt]
    · have isOther : ¬ atSign = byte := fun same => isAt same.symm
      rw [List.findIdx?_cons, ih]
      by_cases member : atSign ∈ rest <;> simp [nameIn, isAt, isOther, member]

theorem nameIn_eq_take (remainder : List UInt8) :
    nameIn remainder = remainder.take (nameIn remainder).length :=
  List.prefix_iff_eq_take.mp (List.takeWhile_prefix _)

theorem strncpyBytes_of_le (text : List UInt8) (count : Nat) (within : count ≤ text.length) :
    strncpyBytes text count = text.take count := by
  rw [strncpyBytes, List.take_append_of_le_length within]

theorem strncpyBytes_terminated {text : List UInt8} {count : Nat} (within : text.length < count) :
    ∃ behind, strncpyBytes text count = text ++ 0 :: behind := by
  obtain ⟨zeros, rfl⟩ := Nat.exists_eq_add_of_lt within
  refine ⟨List.replicate zeros 0, ?_⟩
  have padding : text.length + zeros + 1 - text.length = zeros + 1 := by omega
  rw [strncpyBytes, List.take_append, List.take_of_length_le (by omega), padding, List.take_replicate,
    Nat.min_eq_left (by omega), List.replicate_succ]

@[simp] theorem strncpyBytes_length (text : List UInt8) (count : Nat) : (strncpyBytes text count).length = count := by
  simp [strncpyBytes]

theorem HoldsString.of_load {memory : Memory} {address size : Nat} {text behind : List UInt8}
    (content : load memory address size = text ++ 0 :: behind) : HoldsString memory address size text := by
  have length := congrArg List.length content
  simp only [load_length, List.length_append, List.length_cons] at length
  have within : text.length < size := by omega
  refine ⟨within, ?_, ?_⟩
  · rw [← load_take _ _ _ _ within.le, content, List.take_left]
  · have byte := load_getElem? memory address size text.length within
    rw [content, List.getElem?_append_right (Nat.le_refl _), Nat.sub_self, List.getElem?_cons_zero] at byte
    exact (Option.some.inj byte).symm

theorem HoldsString.strncpy (memory : Memory) (address size : Nat) (text : List UInt8) (within : text.length < size) :
    HoldsString (store memory address (strncpyBytes text size)) address size text := by
  have whole := load_store_same memory address (strncpyBytes text size)
  obtain ⟨behind, copied⟩ := strncpyBytes_terminated within
  rw [strncpyBytes_length] at whole
  exact .of_load (whole.trans copied)

theorem HoldsString.terminate {memory : Memory} {address size : Nat} {text : List UInt8}
    (holds : HoldsString memory address size text) :
    HoldsString (store memory (address + size - 1) [0]) address size text := by
  have within := holds.within
  refine ⟨within, ?_, ?_⟩
  · rw [load_store_frame _ _ _ _ _ (by omega), holds.content]
  · by_cases full : address + text.length = address + size - 1
    · rw [full, store_head]
    · rw [store_outside _ _ _ _ (by simp; omega), holds.terminated]

theorem HoldsString.frame {memory : Memory} {address size start : Nat} {text bytes : List UInt8}
    (holds : HoldsString memory address size text) (outside : address + size ≤ start) :
    HoldsString (store memory start bytes) address size text := by
  have within := holds.within
  refine ⟨within, ?_, ?_⟩
  · rw [load_store_frame _ _ _ _ _ (by omega), holds.content]
  · rw [store_outside _ _ _ _ (by omega), holds.terminated]

theorem componentText_inside (text : Memory) {nameLen : Nat} (within : nameLen ≤ cfg.maxPackageNameLen)
    (address : Nat) (outside : cfg.nameSize + cfg.versionSize ≤ address) :
    componentText cfg text remainder nameLen address = text address := by
  have nameSize : cfg.nameSize = cfg.maxPackageNameLen + 1 := rfl
  have versionSize : cfg.versionSize = cfg.maxVersionLen + 1 := rfl
  unfold componentText
  rw [store_outside _ _ _ _ (by simp; omega), store_outside _ _ _ _ (by simp; omega),
    store_outside _ _ _ _ (by simp; omega), store_outside _ _ _ _ (by simp; omega)]

theorem componentText_name (text : Memory) (within : (nameIn remainder).length ≤ cfg.maxPackageNameLen) :
    HoldsString (componentText cfg text remainder (nameIn remainder).length) 0 cfg.nameSize (nameIn remainder) := by
  have versionSize : cfg.versionSize = cfg.maxVersionLen + 1 := rfl
  have length : (nameIn remainder).length ≤ remainder.length := (List.takeWhile_prefix _).length_le
  have copied : strncpyBytes remainder (nameIn remainder).length = nameIn remainder := by
    rw [strncpyBytes_of_le _ _ length, ← nameIn_eq_take]
  have name : HoldsString
      (store (store text 0 (strncpyBytes remainder (nameIn remainder).length)) (nameIn remainder).length [0])
      0 cfg.nameSize (nameIn remainder) := by
    refine ⟨Nat.lt_succ_of_le within, ?_, ?_⟩
    · rw [load_store_frame _ _ _ _ _ (by omega), copied, load_store_same]
    · rw [Nat.zero_add, store_head]
  exact (name.frame (by omega)).frame (by omega)

theorem componentText_version (text : Memory) (nameLen : Nat)
    (within : (remainder.drop (nameLen + 1)).length ≤ cfg.maxVersionLen) :
    HoldsString (componentText cfg text remainder nameLen) cfg.nameSize cfg.versionSize
      (remainder.drop (nameLen + 1)) :=
  (HoldsString.strncpy _ _ _ _ (Nat.lt_succ_of_le within)).terminate

end Copies

theorem componentStarts_selected (cfg : OtaConfig) (services : List DownlinkService) (dispatch : Dispatch)
    (download : ComponentDownload) (id : DownlinkId) (path : CString) (index : Nat)
    (selected : selectService cfg.toConfig services path = some (otaComponentService, index)) :
    componentStarts cfg index download (dispatchStart cfg.toConfig services dispatch id path).2 =
      if componentRemainder path = [] then none
      else if atSign ∈ componentRemainder path then
        some ⟨id, 0, componentText cfg download.text (componentRemainder path)
          (nameIn (componentRemainder path)).length⟩
      else
        some { download with downlinkId := downlinkIdInvalid } := by
  have proper := sdkServices_proper cfg.toConfig otaComponentService (List.mem_cons_self ..)
  have hasStartCb : otaComponentService.hasStartCb = true := rfl
  have wildcard : otaComponentService.isWildcard = true := rfl
  have rest : (path.drop otaComponentService.stem.length).bytes = componentRemainder path := rfl
  simp only [dispatchStart, selected, hasStartCb, if_true, componentStarts, List.foldlM_cons, List.foldlM_nil,
    pathRemainder_eq proper, DownlinkService.expectedRemainder, wildcard, true_and, rest, bind_pure]
  by_cases missing : componentRemainder path = []
  · simp [missing, otaReceiveComponentStart]
  · by_cases isThere : atSign ∈ componentRemainder path
    · simp [missing, isThere, otaReceiveComponentStart, rest, findIdx?_eq_nameIn]
    · simp [missing, isThere, otaReceiveComponentStart, rest, findIdx?_eq_nameIn]

/-- What is taken from the path of a component is complete and stays within its array if and only if there is
something behind "/.u/c/", and any name and version there have at most the lengths that were configured. -/
theorem component_path_parsed_iff (cfg : OtaConfig) (services : List DownlinkService) (path : CString) (index : Nat)
    (selected : selectService cfg.toConfig services path = some (otaComponentService, index)) :
    (∀ dispatch download id, ∃ after,
      componentStarts cfg index download (dispatchStart cfg.toConfig services dispatch id path).2 = some after ∧
        ComponentParsed cfg path download after) ↔
      FitsArrays cfg (componentRemainder path) := by
  simp only [componentStarts_selected cfg services _ _ _ path index selected]
  constructor
  · intro parsed
    obtain ⟨after, started, parsed⟩ := parsed .boot ⟨0, 0, fun _ => 0⟩ 0
    have isThere : componentRemainder path ≠ [] := by
      intro missing
      simp [missing] at started
    refine ⟨isThere, ?_⟩
    intro member
    simp only [isThere, member, if_true, if_false, Option.some.injEq] at started
    rcases parsed.parsed with invalid | ⟨name, version⟩
    · have valid : (0 : DownlinkId) ≠ downlinkIdInvalid := by decide
      rw [← started] at invalid
      exact absurd invalid valid
    · exact ⟨Nat.le_of_lt_succ name.within, Nat.le_of_lt_succ version.within⟩
  · rintro ⟨isThere, fits⟩ dispatch download id
    by_cases member : atSign ∈ componentRemainder path
    · obtain ⟨name, version⟩ := fits member
      refine ⟨_, by rw [if_neg isThere, if_pos member], ?_, componentText_inside _ name⟩
      exact .inr ⟨componentText_name _ name, componentText_version _ _ version⟩
    · refine ⟨{ download with downlinkId := downlinkIdInvalid }, ?_, .inl rfl, fun _ _ => rfl⟩
      rw [if_neg isThere, if_neg member]

-- "/.u/c/a@2"
def versionPath : CString := ⟨[0x2f, 0x2e, 0x75, 0x2f, 0x63, 0x2f, 0x61, 0x40, 0x32], by simp⟩

theorem version_path_parsed :
    atSign ∈ componentRemainder versionPath ∧
      ∀ dispatch download id, ∃ after, componentStarts sampleOtaConfig 0 download
        (dispatchStart sampleOtaConfig.toConfig sdkServices dispatch id versionPath).2 = some after ∧
          ComponentParsed sampleOtaConfig versionPath download after :=
  ⟨by decide, (component_path_parsed_iff sampleOtaConfig sdkServices versionPath 0 rfl).mpr
    ⟨by decide, fun _ => by decide⟩⟩

-- A name of 70 bytes, for arrays of 66 bytes together.
def longNamePath : CString :=
  ⟨[0x2f, 0x2e, 0x75, 0x2f, 0x63, 0x2f] ++ List.replicate 70 0x61 ++ [0x40, 0x32], by simp⟩

/-- The end of a long name is written behind both arrays, and without a name the code follows a NULL pointer. -/
theorem long_name_overflows :
    selectService sampleOtaConfig.toConfig sdkServices longNamePath = some (otaComponentService, 0) ∧
      longNamePath.bytes.length ≤ 255 ∧
      (∃ after, componentStarts sampleOtaConfig 0 ⟨0, 0, fun _ => 0⟩
          (dispatchStart sampleOtaConfig.toConfig sdkServices .boot 1 longNamePath).2 = some after ∧
        after.downlinkId = 1 ∧ after.text 66 = 0x61 ∧
        ¬ ComponentParsed sampleOtaConfig longNamePath ⟨0, 0, fun _ => 0⟩ after) ∧
      selectService sampleOtaConfig.toConfig sdkServices ⟨[0x2f, 0x2e, 0x75, 0x2f, 0x63, 0x2f], by simp⟩ =
        some (otaComponentService, 0) ∧
      componentStarts sampleOtaConfig 0 ⟨0, 0, fun _ => 0⟩
        (dispatchStart sampleOtaConfig.toConfig sdkServices .boot 1
          ⟨[0x2f, 0x2e, 0x75, 0x2f, 0x63, 0x2f], by simp⟩).2 = none := by
  refine ⟨rfl, by decide, ⟨_, rfl, rfl, by decide +kernel, ?_⟩, rfl, rfl⟩
  intro parsed
  have behind := parsed.inside 66 (by decide)
  revert behind
  decide +kernel

end Pouch
