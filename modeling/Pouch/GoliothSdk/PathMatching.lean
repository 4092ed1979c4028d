import Mathlib.Data.List.Find
import Pouch.GoliothSdk.Dispatch
import Pouch.Shared.Selection

set_option autoImplicit false

/-!
# Paths of downlink services

A service is meant for its path, or with an asterisk at the end for all paths that start like it. The one
comparison for both takes every path that starts like that of a service.
-/

namespace Pouch

namespace DownlinkService

-- A path that is there, and has a `size_t` for its length.
structure Proper (cfg : Config) (service : DownlinkService) : Prop where
  nonempty : service.path.bytes ≠ []
  inMemory : service.path.bytes.length < cfg.sizeRange

def isWildcard (service : DownlinkService) : Bool := service.path.bytes.getLast? = some asterisk

def stem (service : DownlinkService) : List UInt8 :=
  if service.isWildcard then service.path.bytes.dropLast else service.path.bytes

def isFor (service : DownlinkService) (path : CString) : Bool :=
  service.path.bytes = path.bytes ∨ service.isWildcard ∧ service.stem <+: path.bytes

def expectedRemainder (service : DownlinkService) (path : CString) : Option CString :=
  let rest := path.drop service.stem.length
  if service.isWildcard ∧ rest.bytes ≠ [] then some rest else none

end DownlinkService

section Expected

variable (services : List DownlinkService)

def expectedService (path : CString) : Option (DownlinkService × Nat) :=
  services.zipIdx.find? fun entry => entry.1.isFor path

def expectedStart (dispatch : Dispatch) (id : DownlinkId) (path : CString) : Dispatch × List ServiceCall :=
  match expectedService services path with
  | none => (dispatch, [])
  | some (service, index) =>
    ({ downlinkIds := Function.update dispatch.downlinkIds index id
       lastSeen := some index },
      if service.hasStartCb then [.startCb index id (service.expectedRemainder path)] else [])

def firstBeginning (path : CString) : Option (DownlinkService × Nat) :=
  services.zipIdx.find? fun entry => entry.1.stem <+: path.bytes

end Expected

section Matching

variable {cfg : Config} {service : DownlinkService} {services : List DownlinkService}

theorem isPartial_eq (proper : service.Proper cfg) : service.isPartial = service.isWildcard := by
  have last := List.getLast?_eq_some_getLast proper.nonempty
  simp [DownlinkService.isPartial, DownlinkService.isWildcard, last]

theorem pathLen_eq (proper : service.Proper cfg) : service.pathLen cfg = service.stem.length := by
  have some' := List.length_pos_iff.mpr proper.nonempty
  rw [DownlinkService.pathLen, DownlinkService.stem, isPartial_eq proper]
  split_ifs
  · rw [cfg.sizeSub_of_le _ _ (by omega) proper.inMemory, List.length_dropLast]
  · rfl

theorem stem_le (service : DownlinkService) : service.stem <+: service.path.bytes := by
  unfold DownlinkService.stem
  split_ifs
  · exact List.dropLast_prefix _
  · exact List.prefix_rfl

theorem selects_iff (proper : service.Proper cfg) (path : CString) :
    service.selects cfg path = true ↔ service.stem <+: path.bytes := by
  have own := List.prefix_iff_eq_take.mp (stem_le service)
  rw [DownlinkService.selects, strncmpEqual, decide_eq_true_iff, pathLen_eq proper, ← own,
    List.prefix_iff_eq_take]

theorem pathRemainder_eq (proper : service.Proper cfg) (path : CString) :
    service.pathRemainder cfg path = service.expectedRemainder path := by
  simp only [DownlinkService.pathRemainder, DownlinkService.expectedRemainder, isPartial_eq proper,
    pathLen_eq proper, List.length_pos_iff]

theorem isFor_beginning {path : CString} (isFor : service.isFor path = true) : service.stem <+: path.bytes := by
  simp only [DownlinkService.isFor, decide_eq_true_iff] at isFor
  rcases isFor with same | ⟨_, beginning⟩
  · exact same ▸ stem_le service
  · exact beginning

theorem isFor_iff {path : CString} (beginning : service.stem <+: path.bytes) :
    service.isFor path = true ↔ service.isWildcard = true ∨ service.path.bytes = path.bytes := by
  simp only [DownlinkService.isFor, decide_eq_true_iff, beginning, and_true]
  exact or_comm

theorem selectService_eq (proper : ∀ service ∈ services, service.Proper cfg) (path : CString) :
    selectService cfg services path = firstBeginning services path := by
  apply List.find?_congr
  intro entry member
  rw [Bool.eq_iff_iff, selects_iff (proper entry.1 (List.fst_mem_of_mem_zipIdx member)), decide_eq_true_iff]

end Matching

/-- A start is for the service the path is meant for if and only if the first one whose path it starts with has
an asterisk or is just that path. -/
theorem dispatch_start_expected_iff (cfg : Config) (services : List DownlinkService) (path : CString)
    (proper : ∀ service ∈ services, service.Proper cfg) :
    (∀ dispatch id, dispatchStart cfg services dispatch id path = expectedStart services dispatch id path) ↔
      ∀ service index, firstBeginning services path = some (service, index) →
        service.isWildcard = true ∨ service.path.bytes = path.bytes := by
  have selected := selectService_eq proper path
  constructor
  · intro asExpected service index found
    have started := congrArg (fun result => result.1.lastSeen) (asExpected .boot 0)
    simp only [dispatchStart, selected, found, expectedStart] at started
    cases expected : expectedService services path with
    | none => simp [expected, Dispatch.boot] at started
    | some entry =>
      obtain ⟨other, otherIndex⟩ := entry
      simp only [expected, Option.some.injEq] at started
      subst started
      -- Both are the service with that number.
      have number := List.mk_mem_zipIdx_iff_getElem?.mp (List.mem_of_find?_eq_some found)
      have otherNumber := List.mk_mem_zipIdx_iff_getElem?.mp (List.mem_of_find?_eq_some expected)
      obtain rfl : service = other := Option.some.inj (number.symm.trans otherNumber)
      have beginning : service.stem <+: path.bytes := by simpa using List.find?_some found
      unfold expectedService at expected
      have isFor := List.find?_some expected
      exact (isFor_iff beginning).mp isFor
  · intro condition dispatch id
    cases found : firstBeginning services path with
    | none =>
      have expected : expectedService services path = none := by
        apply List.find?_eq_none.mpr
        intro entry member isFor
        exact List.find?_eq_none.mp found entry member (by simpa using isFor_beginning isFor)
      simp only [dispatchStart, selected, found, expectedStart, expected]
    | some entry =>
      obtain ⟨service, index⟩ := entry
      have beginning : service.stem <+: path.bytes := by simpa using List.find?_some found
      have isFor := (isFor_iff beginning).mpr (condition service index found)
      have expected : expectedService services path = some (service, index) := by
        apply Selection.find?_narrow _ found isFor
        intro other _ isOther
        simpa using isFor_beginning isOther
      have known := proper service (List.fst_mem_of_mem_zipIdx (List.mem_of_find?_eq_some found))
      simp only [dispatchStart, selected, found, expectedStart, expected, pathRemainder_eq known]

-- The services of the SDK, in the order of their names. "/.u/c/*" is the one with a `start_cb`.
def otaComponentService : DownlinkService := ⟨⟨[0x2f, 0x2e, 0x75, 0x2f, 0x63, 0x2f, 0x2a], by simp⟩, 0, true⟩

-- "/.u/desired"
def otaManifestService : DownlinkService :=
  ⟨⟨[0x2f, 0x2e, 0x75, 0x2f, 0x64, 0x65, 0x73, 0x69, 0x72, 0x65, 0x64], by simp⟩, 0, false⟩

-- "/.c"
def settingsService : DownlinkService := ⟨⟨[0x2f, 0x2e, 0x63], by simp⟩, 0, false⟩

def sdkServices : List DownlinkService := [otaComponentService, otaManifestService, settingsService]

theorem sdkServices_proper (cfg : Config) : ∀ service ∈ sdkServices, service.Proper cfg := by
  have wide := cfg.sizeRange_ge
  have lengths : ∀ service ∈ sdkServices, service.path.bytes ≠ [] ∧ service.path.bytes.length < 2 ^ 32 := by decide
  intro service member
  obtain ⟨nonempty, short⟩ := lengths service member
  exact ⟨nonempty, by omega⟩

-- "/.u/c/a"
def componentPath : CString := ⟨[0x2f, 0x2e, 0x75, 0x2f, 0x63, 0x2f, 0x61], by simp⟩

theorem component_path_expected :
    expectedService sdkServices componentPath = some (otaComponentService, 0) ∧
      ∀ dispatch id, dispatchStart (defaultConfig .none) sdkServices dispatch id componentPath =
        expectedStart sdkServices dispatch id componentPath := by
  refine ⟨rfl, (dispatch_start_expected_iff _ _ _ (sdkServices_proper _)).mpr ?_⟩
  intro service index found
  obtain ⟨rfl, rfl⟩ : otaComponentService = service ∧ 0 = index := by
    have first : firstBeginning sdkServices componentPath = some (otaComponentService, 0) := rfl
    simpa [first] using found
  left
  rfl

-- "/.config"
def configPath : CString := ⟨[0x2f, 0x2e, 0x63, 0x6f, 0x6e, 0x66, 0x69, 0x67], by simp⟩

/-- No service is meant for "/.config", and that for "/.c" is selected. -/
theorem longer_path_selected :
    (∀ service ∈ sdkServices, service.path.bytes ≠ [] ∧ service.isFor configPath = false) ∧
      selectService (defaultConfig .none) sdkServices configPath = some (settingsService, 2) ∧
      (dispatchStart (defaultConfig .none) sdkServices .boot 1 configPath).1.lastSeen = some 2 ∧
      dispatchStart (defaultConfig .none) sdkServices .boot 1 configPath ≠
        expectedStart sdkServices .boot 1 configPath := by
  have selected : (dispatchStart (defaultConfig .none) sdkServices .boot 1 configPath).1.lastSeen = some 2 := rfl
  refine ⟨by decide, rfl, selected, ?_⟩
  intro same
  rw [same] at selected
  have none' : (expectedStart sdkServices .boot 1 configPath).1.lastSeen = none := rfl
  simp [none'] at selected

end Pouch
