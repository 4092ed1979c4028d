import Pouch.GoliothSdk.ManifestVersions
import Pouch.GoliothSdk.ZcborEncoder

set_option autoImplicit false

/-!
# Status reports

The status of every registered component is encoded into a buffer of 64 bytes, whatever the lengths of its name and
versions. The first one that is too long ends the report.
-/

namespace Pouch

open ByteMemory

def OtaState.number : OtaState → Nat
  | .idle => 0
  | .downloading => 1
  | .downloaded => 2
  | .updating => 3

-- What `golioth_ota_get_status` stores behind its pointers.
structure ComponentStatus where
  name : CString
  currentVersion : CString
  targetVersion : CString
  state : OtaState

/-- A call of `pouch_uplink_entry_write`. The service only logs its result. -/
structure UplinkEntry where
  path : CString
  contentType : UInt16
  data : List UInt8

def pouchContentTypeCbor : UInt16 := 60

-- The size of `encode_buf`.
def otaEncodeBufSize : Nat := 64

-- ".u/c/"
def otaComponentPathStem : List UInt8 := [0x2e, 0x75, 0x2f, 0x63, 0x2f]

-- The string that starts with the target. An array without a NUL is followed by the hash.
def ComponentData.targetVersion (data : ComponentData) : CString := stringIn (data.target ++ data.targetHash.val)

section Model

variable (cfg : OtaConfig) (zcbor : ZcborEncoder) (registry : List RegisteredComponent) (ota : Ota)

def goliothOtaGetStatus (componentIdx : Nat) : Option ComponentStatus :=
  match registry[componentIdx]? with
  | none => none
  | some component =>
    let data := ota.components componentIdx
    some ⟨component.name, component.version, data.targetVersion, data.state⟩

variable {registry ota} in
theorem goliothOtaGetStatus_lt {componentIdx : Nat} {status : ComponentStatus}
    (got : goliothOtaGetStatus registry ota componentIdx = some status) : componentIdx < registry.length := by
  by_contra behind
  simp [goliothOtaGetStatus, List.getElem?_eq_none (Nat.le_of_not_lt behind)] at got

-- "s", "r", "pkg", "v" and "t".
def statusLabel : List UInt8 := [0x73]
def reasonLabel : List UInt8 := [0x72]
def packageLabel : List UInt8 := [0x70, 0x6b, 0x67]
def currentLabel : List UInt8 := [0x76]
def targetLabel : List UInt8 := [0x74]

-- One iteration's encoding, which `none` ends.
def otaStatusEncode (status : ComponentStatus) : Option (List UInt8) := do
  let zse ← zcbor.mapStartEncode (zcbor.stateE 1 otaEncodeBufSize) 1
  let zse ← zcbor.tstrPut zse statusLabel
  let zse ← zcbor.uint32Put zse status.state.number
  let zse ← zcbor.tstrPut zse reasonLabel
  let zse ← zcbor.uint32Put zse 0
  let zse ← zcbor.tstrPut zse packageLabel
  let zse ← zcbor.tstrPut zse status.name.bytes
  let zse ← zcbor.tstrPut zse currentLabel
  let zse ← zcbor.tstrPut zse status.currentVersion.bytes
  let zse ←
    if status.state ≠ .idle then do
      let zse ← zcbor.tstrPut zse targetLabel
      zcbor.tstrPut zse status.targetVersion.bytes
    else
      some zse
  let zse ← zcbor.mapEndEncode zse 1
  some (zcbor.encoded zse)

-- The array is filled with zeros behind the stem, and the last one is not overwritten.
def otaStatusPath (name : CString) : CString :=
  stringIn (otaComponentPathStem ++ strncpyBytes name.bytes cfg.maxPackageNameLen ++ [0])

def otaUplinkFrom (componentIdx : Nat) : List UplinkEntry :=
  match _ : goliothOtaGetStatus registry ota componentIdx with
  | none => []
  | some status =>
    match otaStatusEncode zcbor status with
    | none => []
    | some encoded =>
      ⟨otaStatusPath cfg status.name, pouchContentTypeCbor, encoded⟩ :: otaUplinkFrom (componentIdx + 1)
termination_by registry.length - componentIdx
decreasing_by
  have isThere := goliothOtaGetStatus_lt ‹_›
  omega

def otaUplink : List UplinkEntry := otaUplinkFrom cfg zcbor registry ota 0

end Model

section Specs

def componentStatuses (registry : List RegisteredComponent) (ota : Ota) : List ComponentStatus :=
  registry.zipIdx.map fun (component, index) =>
    ⟨component.name, component.version, (ota.components index).targetVersion, (ota.components index).state⟩

namespace ComponentStatus

variable (status : ComponentStatus)

def pairs : List (List UInt8 × Cbor.Item) :=
  [(statusLabel, .uint status.state.number), (reasonLabel, .uint 0), (packageLabel, .text status.name.bytes),
    (currentLabel, .text status.currentVersion.bytes)] ++
  if status.state = .idle then [] else [(targetLabel, .text status.targetVersion.bytes)]

def path : CString where
  bytes := otaComponentPathStem ++ status.name.bytes
  noNul := by
    intro byte member
    rcases List.mem_append.mp member with inStem | inName
    · have noNul : ∀ byte ∈ otaComponentPathStem, byte ≠ 0 := by simp [otaComponentPathStem]
      exact noNul byte inStem
    · exact status.name.noNul byte inName

def entry : UplinkEntry := ⟨status.path, pouchContentTypeCbor, canonicalMap status.pairs⟩

end ComponentStatus

def textSize (text : CString) : Nat := (if text.bytes.length < 24 then 1 else 2) + text.bytes.length

/-- The strings leave space in the buffer for the 13 bytes around them, and the 2 bytes in front of the target. -/
def ComponentStatus.Fits (status : ComponentStatus) : Prop :=
  13 + textSize status.name + textSize status.currentVersion +
    (if status.state = .idle then 0 else 2 + textSize status.targetVersion) ≤ otaEncodeBufSize

instance (status : ComponentStatus) : Decidable status.Fits :=
  inferInstanceAs (Decidable (_ ≤ _))

structure WithinLimits (cfg : OtaConfig) (status : ComponentStatus) : Prop where
  name : status.name.bytes.length ≤ cfg.maxPackageNameLen
  currentVersion : status.currentVersion.bytes.length ≤ cfg.maxVersionLen
  targetVersion : status.targetVersion.bytes.length ≤ cfg.maxVersionLen

variable {cfg : OtaConfig} {zcbor : ZcborEncoder} {registry : List RegisteredComponent} {ota : Ota}

theorem componentStatuses_getElem? (componentIdx : Nat) :
    (componentStatuses registry ota)[componentIdx]? = goliothOtaGetStatus registry ota componentIdx := by
  simp only [componentStatuses, goliothOtaGetStatus, List.getElem?_map, List.getElem?_zipIdx]
  cases registry[componentIdx]? <;> simp

theorem otaStatusEncode_eq (status : ComponentStatus) :
    otaStatusEncode zcbor status = zcbor.encodeMap otaEncodeBufSize 1 status.pairs := by
  simp only [otaStatusEncode, ZcborEncoder.encodeMap, ComponentStatus.pairs]
  by_cases idle : status.state = .idle
  · simp [idle, ZcborEncoder.putPairs, ZcborEncoder.put, Option.map_eq_bind, Option.bind_assoc]
  · simp [idle, ZcborEncoder.putPairs, ZcborEncoder.put, Option.map_eq_bind, Option.bind_assoc]

theorem encode_text_length (text : CString) :
    (Cbor.encode (.text text.bytes)).length = textSize text ∨
      otaEncodeBufSize < (Cbor.encode (.text text.bytes)).length ∧ otaEncodeBufSize < textSize text := by
  rw [Cbor.encode, List.length_append, Cbor.encodeHead_length, textSize, otaEncodeBufSize]
  split_ifs
  · left; rfl
  · left; rfl
  all_goals
    right
    omega

theorem state_encode_length (state : OtaState) : (Cbor.encode (.uint state.number)).length = 1 := by
  cases state <;> rfl

theorem pairs_few (status : ComponentStatus) : status.pairs.length < 24 := by
  rw [ComponentStatus.pairs]
  split_ifs <;> simp

theorem canonicalMap_length (status : ComponentStatus) :
    (canonicalMap status.pairs).length = 13 + (Cbor.encode (.text status.name.bytes)).length +
      (Cbor.encode (.text status.currentVersion.bytes)).length +
        if status.state = .idle then 0 else 2 + (Cbor.encode (.text status.targetVersion.bytes)).length := by
  have head := Cbor.encodeHead_length_small 5 _ (pairs_few status)
  have labels : (Cbor.encode (.text statusLabel)).length = 2 ∧ (Cbor.encode (.text reasonLabel)).length = 2 ∧
      (Cbor.encode (.text packageLabel)).length = 4 ∧ (Cbor.encode (.text currentLabel)).length = 2 ∧
      (Cbor.encode (.text targetLabel)).length = 2 := ⟨rfl, rfl, rfl, rfl, rfl⟩
  obtain ⟨stateLabel, reason, package, current, target⟩ := labels
  have noReason : (Cbor.encode (.uint 0)).length = 1 := rfl
  have state := state_encode_length status.state
  rw [canonicalMap, List.length_append, head, ComponentStatus.pairs]
  split_ifs
  all_goals
    simp only [List.flatMap_append, List.flatMap_cons, List.flatMap_nil, List.length_append, List.length_nil, pairBytes,
      stateLabel, reason, package, current, target, noReason, state]
    omega

theorem canonicalMap_fits_iff (status : ComponentStatus) :
    (canonicalMap status.pairs).length ≤ otaEncodeBufSize ↔ status.Fits := by
  have name := encode_text_length status.name
  have currentVersion := encode_text_length status.currentVersion
  have targetVersion := encode_text_length status.targetVersion
  rw [canonicalMap_length, ComponentStatus.Fits]
  split_ifs <;> omega

theorem otaStatusEncode_canonical (canonical : zcbor.Canonical) (status : ComponentStatus) :
    otaStatusEncode zcbor status = if status.Fits then some (canonicalMap status.pairs) else none := by
  have state : status.state.number < 2 ^ 32 := by
    cases status.state <;> decide
  have scalars : ∀ pair ∈ status.pairs, IsScalar pair.2 := by
    simp only [ComponentStatus.pairs, List.forall_mem_append, List.forall_mem_cons]
    refine ⟨⟨state, Nat.two_pow_pos 32, trivial, trivial, by simp⟩, ?_⟩
    split_ifs <;> simp [IsScalar]
  rw [otaStatusEncode_eq, canonical _ _ _ (by omega) (pairs_few status) scalars]
  simp only [canonicalMap_fits_iff]

theorem otaStatusPath_eq {status : ComponentStatus} (within : status.name.bytes.length ≤ cfg.maxPackageNameLen) :
    otaStatusPath cfg status.name = status.path := by
  have noNul : 0 ∉ status.path.bytes := fun nul => status.path.noNul 0 nul rfl
  have bytes : (otaStatusPath cfg status.name).bytes = status.path.bytes := by
    rw [otaStatusPath]
    rcases within.eq_or_lt with full | short
    · rw [strncpyBytes_of_le _ _ full.ge, List.take_of_length_le within, stringIn_terminated]
      exact takeWhile_of_noNul noNul
    · obtain ⟨behind, copied⟩ := strncpyBytes_terminated short
      rw [copied, ← List.append_assoc, List.append_assoc _ (_ :: _), List.cons_append, stringIn_terminated]
      exact takeWhile_of_noNul noNul
  exact (CString.mk.injEq _ (otaStatusPath cfg status.name).noNul _ status.path.noNul).mpr bytes

theorem otaUplinkFrom_eq (canonical : zcbor.Canonical)
    (within : ∀ status ∈ componentStatuses registry ota, WithinLimits cfg status) (componentIdx : Nat) :
    otaUplinkFrom cfg zcbor registry ota componentIdx =
      (((componentStatuses registry ota).drop componentIdx).takeWhile fun status => status.Fits).map
        ComponentStatus.entry := by
  fun_induction otaUplinkFrom cfg zcbor registry ota componentIdx with
  | case1 componentIdx got =>
    rw [← componentStatuses_getElem?, List.getElem?_eq_none_iff] at got
    rw [List.drop_of_length_le got]
    rfl
  | case2 componentIdx status got failed =>
    rw [← componentStatuses_getElem?] at got
    obtain ⟨inside, found⟩ := List.getElem?_eq_some_iff.mp got
    have long : ¬ status.Fits := by
      intro fits
      simp [otaStatusEncode_canonical canonical, fits] at failed
    rw [List.drop_eq_getElem_cons inside, found, List.takeWhile_cons_of_neg (by simpa using long)]
    rfl
  | case3 componentIdx status got encoded encodes ih =>
    rw [← componentStatuses_getElem?] at got
    obtain ⟨inside, found⟩ := List.getElem?_eq_some_iff.mp got
    rw [otaStatusEncode_canonical canonical, Option.ite_none_right_eq_some, Option.some.injEq] at encodes
    obtain ⟨fits, rfl⟩ := encodes
    have path := otaStatusPath_eq (within status (List.mem_of_getElem? got)).name
    rw [List.drop_eq_getElem_cons inside, found, List.takeWhile_cons_of_pos (by simpa using fits), List.map_cons, ih,
      path]
    rfl

end Specs

section Targets

variable {cfg : OtaConfig} {registry : List RegisteredComponent} {ota : Ota}

def TargetsBounded (cfg : OtaConfig) (ota : Ota) : Prop :=
  ∀ index, (ota.components index).targetVersion.bytes.length ≤ cfg.maxVersionLen

theorem stringIn_length_le (front behind : List UInt8) :
    (stringIn (front ++ 0 :: behind)).bytes.length ≤ front.length := by
  rw [stringIn_terminated]
  exact (List.takeWhile_prefix _).length_le

-- The hash is zero at first, so that it ends a version that fills its array.
theorem boot_targetsBounded (cfg : OtaConfig) (registry : List RegisteredComponent) :
    TargetsBounded cfg (.boot cfg registry) := by
  intro index
  have bounded := stringIn_length_le
    (strncpyBytes ((registry[index]?).elim [] (·.version.bytes)) cfg.maxVersionLen) (List.replicate 31 0)
  rwa [strncpyBytes_length] at bounded

theorem retarget_bounded (data : ComponentData) (component : OtaComponent) :
    (data.retarget cfg component).targetVersion.bytes.length ≤ cfg.maxVersionLen := by
  have bounded := stringIn_length_le (strncpyBytes component.version.bytes (cfg.maxVersionLen - 1)) component.hash.val
  rw [strncpyBytes_length] at bounded
  simp only [ComponentData.targetVersion, ComponentData.retarget, List.append_assoc, List.cons_append, List.nil_append]
  omega

theorem setStatus_targetVersion (name : CString) (state : OtaState) (index : Nat) :
    (((goliothOtaSetStatus registry ota name state).getD ota).components index).targetVersion =
      (ota.components index).targetVersion := by
  unfold goliothOtaSetStatus
  split
  · rfl
  next found _ =>
    by_cases same : index = found
    · simp [same, ComponentData.targetVersion]
    · simp [Function.update_of_ne same]

theorem TargetsBounded.step (bounded : TargetsBounded cfg ota) (op : OtaOp) :
    TargetsBounded cfg (otaStep cfg registry ota op).1 := by
  have marked (name : CString) (state : OtaState) :
      TargetsBounded cfg ((goliothOtaSetStatus registry ota name state).getD ota) := by
    intro index
    rw [setStatus_targetVersion]
    exact bounded index
  cases op with
  | start id pathRemainder =>
    simp only [otaStep]
    split <;> exact bounded
  | data id data isLast =>
    simp only [otaStep, otaReceiveComponentData]
    split_ifs <;> exact bounded
  | manifest component =>
    intro index
    simp only [otaStep, goliothOtaManifestReceiveOne]
    split_ifs
    · exact retarget_bounded _ component
    · exact bounded index
  | markForDownload name => exact marked name .downloading
  | markIdle name => exact marked name .idle
  | markUpdating name => exact marked name .updating

theorem reached_withinLimits (cfg : OtaConfig) (registry : List RegisteredComponent) (ops : List OtaOp)
    (limits : ∀ registered ∈ registry, registered.name.bytes.length ≤ cfg.maxPackageNameLen ∧
      registered.version.bytes.length ≤ cfg.maxVersionLen) :
    ∀ status ∈ componentStatuses registry (History.run (otaStep cfg registry) ⟨.boot cfg registry, []⟩ ops).state,
      WithinLimits cfg status := by
  have bounded : TargetsBounded cfg (History.run (otaStep cfg registry) ⟨.boot cfg registry, []⟩ ops).state := by
    apply History.run_invariant (otaStep cfg registry) (fun _ _ => True)
      (fun reached => TargetsBounded cfg reached.state) _ ops (boot_targetsBounded cfg registry)
    · exact History.meets_of_forall _ _ _ _ fun _ _ _ => trivial
    · intro reached op _ bounded
      exact bounded.step op
  intro status member
  obtain ⟨⟨registered, index⟩, found, rfl⟩ := List.mem_map.mp member
  obtain ⟨name, version⟩ := limits registered (List.fst_mem_of_mem_zipIdx found)
  exact ⟨name, version, bounded index⟩

end Targets

/-- Every registered component is reported, in order, if and only if each of them has strings that leave space for
everything else in the buffer. -/
theorem component_statuses_reported_iff (cfg : OtaConfig) (zcbor : ZcborEncoder)
    (registry : List RegisteredComponent) (ota : Ota) (canonical : zcbor.Canonical)
    (within : ∀ status ∈ componentStatuses registry ota, WithinLimits cfg status) :
    otaUplink cfg zcbor registry ota = (componentStatuses registry ota).map ComponentStatus.entry ↔
      ∀ status ∈ componentStatuses registry ota, status.Fits := by
  rw [otaUplink, otaUplinkFrom_eq canonical within, List.drop_zero]
  constructor
  · intro reported
    have length := congrArg List.length reported
    rw [List.length_map, List.length_map] at length
    have all := (List.takeWhile_prefix fun status : ComponentStatus => decide status.Fits).eq_of_length length
    intro status member
    simpa using List.takeWhile_eq_self_iff.mp all status member
  · intro fit
    rw [List.takeWhile_eq_self_iff.mpr]
    intro status member
    simpa using fit status member

theorem sample_status_reported :
    let ota := (History.run (otaStep sampleOtaConfig sampleRegistry) ⟨.boot sampleOtaConfig sampleRegistry, []⟩
      [.markForDownload samplePackage]).state
    otaUplink sampleOtaConfig bufferEncoder sampleRegistry ota =
      (componentStatuses sampleRegistry ota).map ComponentStatus.entry := by
  apply (component_statuses_reported_iff sampleOtaConfig bufferEncoder sampleRegistry _ bufferEncoder_canonical
    (reached_withinLimits _ _ _ (by decide +kernel))).mpr
  decide +kernel

-- A name with the 32 bytes that are configured.
def longPackage : CString := ⟨List.replicate 32 0x62, by simp⟩

def longVersionString : CString := ⟨List.replicate 32 0x31, by simp⟩

def longRegistry : List RegisteredComponent := ⟨longPackage, longVersionString⟩ :: sampleRegistry

/-- A component with a long name and a long version is not reported, and neither is the one behind it. -/
theorem long_component_not_reported :
    (∀ status ∈ componentStatuses longRegistry (.boot sampleOtaConfig longRegistry),
        WithinLimits sampleOtaConfig status) ∧
      otaUplink sampleOtaConfig bufferEncoder longRegistry (.boot sampleOtaConfig longRegistry) = [] ∧
      otaUplink sampleOtaConfig bufferEncoder longRegistry (.boot sampleOtaConfig longRegistry) ≠
        (componentStatuses longRegistry (.boot sampleOtaConfig longRegistry)).map ComponentStatus.entry := by
  have within : ∀ status ∈ componentStatuses longRegistry (.boot sampleOtaConfig longRegistry),
      WithinLimits sampleOtaConfig status :=
    reached_withinLimits sampleOtaConfig longRegistry [] (by decide +kernel)
  have none' : otaUplink sampleOtaConfig bufferEncoder longRegistry (.boot sampleOtaConfig longRegistry) = [] := by
    rw [otaUplink, otaUplinkFrom_eq bufferEncoder_canonical within]
    rfl
  refine ⟨within, none', ?_⟩
  rw [none']
  simp [componentStatuses, longRegistry]

end Pouch
