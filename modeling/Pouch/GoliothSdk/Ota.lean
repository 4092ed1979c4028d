import Pouch.GoliothSdk.Dispatch
import Pouch.Saead.Session

set_option autoImplicit false

namespace Pouch

open ByteMemory

/-- The Kconfig `int`s CONFIG_GOLIOTH_OTA_MAX_PACKAGE_NAME_LEN and CONFIG_GOLIOTH_OTA_MAX_VERSION_LEN. -/
structure OtaConfig extends Config where
  maxPackageNameLen : Nat
  maxVersionLen : Nat
  maxVersionLenPositive : 0 < maxVersionLen

inductive OtaState where
  | idle
  | downloading
  | downloaded
  | updating
  deriving DecidableEq, Repr

structure RegisteredComponent where
  name : CString
  version : CString

-- `struct golioth_ota_registered_component_data`.
structure ComponentData where
  target : List UInt8
  targetHash : Bytes 32
  size : Nat
  state : OtaState

/-- `component_download`. The arrays `name` and `version` lie one behind the other at the start of
`text`, and whatever else is behind them. -/
structure ComponentDownload where
  downlinkId : DownlinkId
  offset : Nat
  text : Memory

structure Ota where
  download : ComponentDownload
  components : Nat → ComponentData

structure OtaComponent where
  package : CString
  version : CString
  hash : Bytes 32
  size : Int

structure ReceiveCall where
  component : Nat
  offset : Nat
  data : List UInt8
  isLast : Bool
  deriving DecidableEq

def atSign : UInt8 := 0x40

-- What `strncpy` writes: the text up to its terminator, and zeros for the rest.
def strncpyBytes (text : List UInt8) (count : Nat) : List UInt8 :=
  (text ++ List.replicate count 0).take count

def stringAt (memory : Memory) (address limit : Nat) : List UInt8 :=
  (load memory address limit).takeWhile (· ≠ 0)

namespace OtaConfig

variable (cfg : OtaConfig)

def nameSize : Nat := cfg.maxPackageNameLen + 1

def versionSize : Nat := cfg.maxVersionLen + 1

-- The version ends with a zero, so that no string is read beyond it.
def nameOf (download : ComponentDownload) : List UInt8 :=
  stringAt download.text 0 (cfg.nameSize + cfg.versionSize)

end OtaConfig

section LowerHalf

variable (cfg : OtaConfig)

-- Nothing holds the name to the size of its array.
def componentText (text : Memory) (remainder : List UInt8) (nameLen : Nat) : Memory :=
  let text := store text 0 (strncpyBytes remainder nameLen)
  let text := store text nameLen [0]
  let text := store text cfg.nameSize (strncpyBytes (remainder.drop (nameLen + 1)) cfg.versionSize)
  store text (cfg.nameSize + cfg.versionSize - 1) [0]

-- `none` when the code follows a NULL pointer, which it gets for an empty remainder.
def otaReceiveComponentStart (download : ComponentDownload) (id : DownlinkId)
    (pathRemainder : Option CString) : Option ComponentDownload :=
  match pathRemainder with
  | none => none
  | some remainder =>
    match remainder.bytes.findIdx? (· = atSign) with
    | some nameLen => some ⟨id, 0, componentText cfg download.text remainder.bytes nameLen⟩
    | none => some { download with downlinkId := downlinkIdInvalid }

end LowerHalf

section UpperHalf

variable (cfg : OtaConfig) (registry : List RegisteredComponent)

-- `none` is -ENOENT.
def goliothOtaSetStatus (ota : Ota) (name : CString) (state : OtaState) : Option Ota :=
  match registry.findIdx? fun component => component.name.bytes = name.bytes with
  | none => none
  | some index =>
    let data := { ota.components index with state := state }
    some { ota with components := Function.update ota.components index data }

def ComponentData.retarget (data : ComponentData) (component : OtaComponent) : ComponentData :=
  { data with
    target := strncpyBytes component.version.bytes (cfg.maxVersionLen - 1) ++ [0]
    targetHash := component.hash
    size := (component.size % cfg.sizeRange).toNat }

def goliothOtaManifestReceiveOne (ota : Ota) (component : OtaComponent) : Ota :=
  { ota with
    components := fun index =>
      if registry[index]?.any fun registered => registered.name.bytes = component.package.bytes then
        (ota.components index).retarget cfg component
      else
        ota.components index }

-- A component that does not want the data ends the search for others of its name.
def receiveLoop (components : Nat → ComponentData) (name : List UInt8) (offset : Nat) (data : List UInt8)
    (isLast : Bool) : List (RegisteredComponent × Nat) → Status × List ReceiveCall
  | [] => (none, [])
  | (registered, index) :: rest =>
    if registered.name.bytes = name then
      if (components index).state = .downloading then
        let (status, calls) := receiveLoop components name offset data isLast rest
        (status, ⟨index, offset, data, isLast⟩ :: calls)
      else
        (some .einval, [])
    else
      receiveLoop components name offset data isLast rest

def goliothOtaReceiveComponent (ota : Ota) (name : List UInt8) (offset : Nat) (data : List UInt8)
    (isLast : Bool) : Status × List ReceiveCall :=
  receiveLoop ota.components name offset data isLast registry.zipIdx

def otaReceiveComponentData (ota : Ota) (data : List UInt8) (isLast : Bool) : Ota × List ReceiveCall :=
  if ota.download.downlinkId ≠ downlinkIdInvalid then
    let (_, calls) := goliothOtaReceiveComponent registry ota (cfg.nameOf ota.download) ota.download.offset data
      isLast
    let offset := (ota.download.offset + data.length) % cfg.sizeRange
    ({ ota with download := { ota.download with offset := offset } }, calls)
  else
    (ota, [])

end UpperHalf

-- The calls of the component service's callbacks, the components of manifests, and the calls of the
-- application.
inductive OtaOp where
  | start (id : DownlinkId) (pathRemainder : Option CString)
  | data (id : DownlinkId) (data : List UInt8) (isLast : Bool)
  | manifest (component : OtaComponent)
  | markForDownload (name : CString)
  | markIdle (name : CString)
  | markUpdating (name : CString)

-- A component starts with its own version as the target.
def Ota.boot (cfg : OtaConfig) (registry : List RegisteredComponent) : Ota where
  download := ⟨downlinkIdInvalid, 0, fun _ => 0⟩
  components := fun index =>
    { target := strncpyBytes ((registry[index]?).elim [] (·.version.bytes)) cfg.maxVersionLen
      targetHash := Bytes.zero 32
      size := 0
      state := .idle }

def otaStep (cfg : OtaConfig) (registry : List RegisteredComponent) (ota : Ota) :
    OtaOp → Ota × List ReceiveCall
  | .start id pathRemainder =>
    match otaReceiveComponentStart cfg ota.download id pathRemainder with
    | none => (ota, [])
    | some download => ({ ota with download := download }, [])
  | .data _ data isLast => otaReceiveComponentData cfg registry ota data isLast
  | .manifest component => (goliothOtaManifestReceiveOne cfg registry ota component, [])
  | .markForDownload name => ((goliothOtaSetStatus registry ota name .downloading).getD ota, [])
  | .markIdle name => ((goliothOtaSetStatus registry ota name .idle).getD ota, [])
  | .markUpdating name => ((goliothOtaSetStatus registry ota name .updating).getD ota, [])

section Specs

variable {registry : List RegisteredComponent} {components : Nat → ComponentData} {name : List UInt8}

/-- The component has the name, and so far as components of that name are registered up to it, all of
them are to be downloaded. -/
structure Wants (registry : List RegisteredComponent) (components : Nat → ComponentData) (name : List UInt8)
    (index : Nat) : Prop where
  named : ∃ registered, registry[index]? = some registered ∧ registered.name.bytes = name
  downloading : ∀ earlier ≤ index, ∀ registered, registry[earlier]? = some registered →
    registered.name.bytes = name → (components earlier).state = .downloading

theorem wants_nil (index : Nat) : ¬ Wants [] components name index := by
  rintro ⟨⟨registered, found, _⟩, _⟩
  simp at found

theorem wants_zero (registered : RegisteredComponent) :
    Wants (registered :: registry) components name 0 ↔
      registered.name.bytes = name ∧ (components 0).state = .downloading := by
  constructor
  · rintro ⟨⟨same, found, named⟩, downloading⟩
    simp only [List.getElem?_cons_zero, Option.some.injEq] at found
    subst found
    exact ⟨named, downloading 0 (Nat.le_refl 0) registered rfl named⟩
  · rintro ⟨named, downloading⟩
    refine ⟨⟨registered, rfl, named⟩, ?_⟩
    intro earlier bound _ _ _
    rw [Nat.le_zero.mp bound]
    exact downloading

theorem wants_succ (registered : RegisteredComponent) (index : Nat) :
    Wants (registered :: registry) components name (index + 1) ↔
      (registered.name.bytes = name → (components 0).state = .downloading) ∧
        Wants registry (fun other => components (other + 1)) name index := by
  constructor
  · rintro ⟨named, downloading⟩
    refine ⟨downloading 0 (Nat.zero_le _) registered rfl, by simpa using named, ?_⟩
    intro earlier bound other found
    exact downloading (earlier + 1) (by omega) other (by simpa using found)
  · rintro ⟨first, named, downloading⟩
    refine ⟨by simpa using named, ?_⟩
    intro earlier bound other found
    cases earlier with
    | zero =>
      simp only [List.getElem?_cons_zero, Option.some.injEq] at found
      rw [← found]
      exact first
    | succ earlier => exact downloading earlier (by omega) other (by simpa using found)

def receivedBy (index : Nat) (calls : List ReceiveCall) : List ReceiveCall :=
  calls.filter fun call => call.component = index

theorem receiveLoop_above (start : Nat) (offset : Nat) (data : List UInt8) (isLast : Bool) :
    ∀ call ∈ (receiveLoop components name offset data isLast (registry.zipIdx start)).2,
      start ≤ call.component := by
  induction registry generalizing start with
  | nil => simp [receiveLoop]
  | cons registered rest ih =>
    have later := ih (start + 1)
    simp only [List.zipIdx_cons, receiveLoop]
    split_ifs
    · simp only [List.mem_cons, forall_eq_or_imp, Nat.le_refl, true_and]
      intro call member
      have behind := later call member
      omega
    · simp
    · intro call member
      have behind := later call member
      omega

theorem receivedBy_eq_nil {index : Nat} {calls : List ReceiveCall}
    (above : ∀ call ∈ calls, index + 1 ≤ call.component) : receivedBy index calls = [] := by
  apply List.filter_eq_nil_iff.mpr
  intro call member
  have behind := above call member
  simp only [decide_eq_true_eq]
  omega

theorem receiveLoop_receivedBy (registry : List RegisteredComponent) (components : Nat → ComponentData)
    (name : List UInt8) (start index offset : Nat) (data : List UInt8) (isLast : Bool) :
    let calls := (receiveLoop components name offset data isLast (registry.zipIdx start)).2
    (Wants registry (fun other => components (start + other)) name index →
      receivedBy (start + index) calls = [⟨start + index, offset, data, isLast⟩]) ∧
    (¬ Wants registry (fun other => components (start + other)) name index →
      receivedBy (start + index) calls = []) := by
  induction registry generalizing start index with
  | nil => exact ⟨fun wants => absurd wants (wants_nil index), fun _ => rfl⟩
  | cons registered rest ih =>
    simp only [List.zipIdx_cons, receiveLoop]
    cases index with
    | zero =>
      have others : receivedBy start
          (receiveLoop components name offset data isLast (rest.zipIdx (start + 1))).2 = [] :=
        receivedBy_eq_nil (receiveLoop_above (start + 1) offset data isLast)
      rw [wants_zero, Nat.add_zero]
      split_ifs with named downloading
      · simpa [named, downloading, receivedBy] using others
      · simp [downloading, receivedBy]
      · simp [named, others]
    | succ index =>
      have shifted : (fun other => components (start + (other + 1))) = fun other => components (start + 1 + other) := by
        funext other
        congr 1
        omega
      have position : start + (index + 1) = start + 1 + index := by omega
      have later := ih (start + 1) index
      rw [wants_succ, shifted, position, Nat.add_zero]
      split_ifs with named downloading
      · have elsewhere : ¬ start = start + 1 + index := by omega
        simpa [named, downloading, receivedBy, elsewhere] using later
      · simp [named, downloading, receivedBy]
      · simpa [named] using later

theorem goliothOtaReceiveComponent_receivedBy (registry : List RegisteredComponent) (ota : Ota)
    (name : List UInt8) (offset : Nat) (data : List UInt8) (isLast : Bool) (index : Nat) :
    let calls := (goliothOtaReceiveComponent registry ota name offset data isLast).2
    (Wants registry ota.components name index → receivedBy index calls = [⟨index, offset, data, isLast⟩]) ∧
    (¬ Wants registry ota.components name index → receivedBy index calls = []) := by
  intro calls
  have loop := receiveLoop_receivedBy registry ota.components name 0 index offset data isLast
  simp only [Nat.zero_add] at loop
  exact loop

end Specs

end Pouch
