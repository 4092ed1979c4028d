import Pouch.GoliothSdk.Ota
import Pouch.Shared.History
import Mathlib.Data.Set.Basic

set_option autoImplicit false

/-!
# Offsets of component data

A component is received in runs: each starts at offset 0, and every call continues where the one
before it ended.
-/

namespace Pouch

def IsRunFrom (position : Nat) : List ReceiveCall → Prop
  | [] => True
  | call :: rest => call.offset = position ∧ IsRunFrom (position + call.data.length) rest

def SplitsIntoRuns (calls : List ReceiveCall) : Prop :=
  ∃ runs : List (List ReceiveCall), calls = runs.flatten ∧ ∀ run ∈ runs, IsRunFrom 0 run

def receivedLength : List ReceiveCall → Nat
  | [] => 0
  | call :: rest => call.data.length + receivedLength rest

theorem receivedLength_append (first second : List ReceiveCall) :
    receivedLength (first ++ second) = receivedLength first + receivedLength second := by
  induction first with
  | nil => simp [receivedLength]
  | cons call rest ih => simp [receivedLength, ih, Nat.add_assoc]

theorem isRunFrom_append (position : Nat) (first second : List ReceiveCall) :
    IsRunFrom position (first ++ second) ↔
      IsRunFrom position first ∧ IsRunFrom (position + receivedLength first) second := by
  induction first generalizing position with
  | nil => simp [IsRunFrom, receivedLength]
  | cons call rest ih => simp [IsRunFrom, receivedLength, ih, and_assoc, Nat.add_assoc]

structure Received (calls current : List ReceiveCall) : Prop where
  split : ∃ runs : List (List ReceiveCall), calls = runs.flatten ++ current ∧ ∀ run ∈ runs, IsRunFrom 0 run
  isRun : IsRunFrom 0 current

section Received

variable {calls current : List ReceiveCall}

theorem Received.splits (received : Received calls current) : SplitsIntoRuns calls := by
  obtain ⟨runs, split, areRuns⟩ := received.split
  refine ⟨runs ++ [current], by simp [split], ?_⟩
  intro run member
  rcases List.mem_append.mp member with earlier | last
  · exact areRuns run earlier
  · rw [List.mem_singleton.mp last]
    exact received.isRun

theorem Received.restart (received : Received calls current) : Received calls [] := by
  obtain ⟨runs, split, areRuns⟩ := received.splits
  exact ⟨⟨runs, by simp [split], areRuns⟩, trivial⟩

theorem Received.receive (received : Received calls current) (call : ReceiveCall)
    (continues : call.offset = receivedLength current) :
    Received (calls ++ [call]) (current ++ [call]) := by
  obtain ⟨runs, split, areRuns⟩ := received.split
  refine ⟨⟨runs, by simp [split], areRuns⟩, ?_⟩
  rw [isRunFrom_append]
  exact ⟨received.isRun, by simpa using continues, trivial⟩

end Received

structure OtaRecord where
  ota : Ota
  -- The components that did not want some data of the current stream.
  missed : Set Nat

section Model

variable (cfg : OtaConfig) (registry : List RegisteredComponent)

def OtaRecord.boot : OtaRecord := ⟨.boot cfg registry, ∅⟩

def Ota.streaming (ota : Ota) : Prop := ota.download.downlinkId ≠ downlinkIdInvalid

def Ota.Wanted (ota : Ota) (component : Nat) : Prop :=
  Wants registry ota.components (cfg.nameOf ota.download) component

def missedAfter (record : OtaRecord) : OtaOp → Set Nat
  | .start _ _ => ∅
  | .data _ data _ => { component | component ∈ record.missed ∨
      (record.ota.streaming ∧ data ≠ [] ∧ ¬ record.ota.Wanted cfg registry component) }
  | _ => record.missed

def OtaRecord.step (record : OtaRecord) (op : OtaOp) : OtaRecord × List ReceiveCall :=
  let (ota, calls) := otaStep cfg registry record.ota op
  (⟨ota, missedAfter cfg registry record op⟩, calls)

/-- A component that is given data was given all data of the stream before it. Beside that, a stream
has a path with a remainder, its name fits into its array, and its length into a `size_t`. -/
def WantedFromStart (reached : History OtaRecord ReceiveCall) : OtaOp → Prop
  | .start _ pathRemainder => ∃ remainder, pathRemainder = some remainder ∧
      ∀ nameLen, remainder.bytes.findIdx? (· = atSign) = some nameLen → nameLen ≤ cfg.maxPackageNameLen
  | .data _ data _ => reached.state.ota.streaming →
      reached.state.ota.download.offset + data.length < cfg.sizeRange ∧
        ∀ component, reached.state.ota.Wanted cfg registry component → component ∉ reached.state.missed
  | _ => True

end Model

section Steps

variable {cfg : OtaConfig} {registry : List RegisteredComponent}

def CaughtUp (component : Nat) (reached : History OtaRecord ReceiveCall) : Prop :=
  ∃ current, Received (receivedBy component reached.log) current ∧
    (reached.state.ota.streaming → component ∉ reached.state.missed →
      receivedLength current = reached.state.ota.download.offset)

theorem receivedBy_append (component : Nat) (first second : List ReceiveCall) :
    receivedBy component (first ++ second) = receivedBy component first ++ receivedBy component second :=
  List.filter_append ..

theorem setStatus_download (ota : Ota) (name : CString) (state : OtaState) :
    ((goliothOtaSetStatus registry ota name state).getD ota).download = ota.download := by
  unfold goliothOtaSetStatus
  split <;> rfl

theorem CaughtUp.quiet {component : Nat} {reached : History OtaRecord ReceiveCall}
    (caughtUp : CaughtUp component reached) (ota : Ota)
    (same : ota.download = reached.state.ota.download) :
    CaughtUp component ⟨⟨ota, reached.state.missed⟩, reached.log ++ []⟩ := by
  obtain ⟨current, received, position⟩ := caughtUp
  refine ⟨current, by simpa using received, ?_⟩
  simpa [Ota.streaming, same] using position

theorem CaughtUp.start {component : Nat} {reached : History OtaRecord ReceiveCall}
    (caughtUp : CaughtUp component reached) (id : DownlinkId) (remainder : CString) :
    CaughtUp component (History.record (OtaRecord.step cfg registry) reached (.start id (some remainder))) := by
  obtain ⟨current, received, _⟩ := caughtUp
  refine ⟨[], ?_, ?_⟩
  · simp only [History.record, OtaRecord.step, otaStep, otaReceiveComponentStart]
    cases remainder.bytes.findIdx? (· = atSign) <;> simpa using received.restart
  · simp only [History.record, OtaRecord.step, otaStep, otaReceiveComponentStart, Ota.streaming]
    cases remainder.bytes.findIdx? (· = atSign) <;> simp [receivedLength]

theorem record_data_streaming (reached : History OtaRecord ReceiveCall) (id : DownlinkId) (data : List UInt8)
    (isLast : Bool) (streaming : reached.state.ota.streaming)
    (fits : reached.state.ota.download.offset + data.length < cfg.sizeRange) :
    History.record (OtaRecord.step cfg registry) reached (.data id data isLast) =
      ⟨⟨{ reached.state.ota with
            download := { reached.state.ota.download with
              offset := reached.state.ota.download.offset + data.length } },
          missedAfter cfg registry reached.state (.data id data isLast)⟩,
        reached.log ++ (goliothOtaReceiveComponent registry reached.state.ota
          (cfg.nameOf reached.state.ota.download) reached.state.ota.download.offset data isLast).2⟩ := by
  have active : reached.state.ota.download.downlinkId ≠ downlinkIdInvalid := streaming
  have offset := Nat.mod_eq_of_lt fits
  simp only [History.record, OtaRecord.step, otaStep, otaReceiveComponentData, active, ne_eq,
    not_false_eq_true, if_true, offset]

theorem record_data_inactive (reached : History OtaRecord ReceiveCall) (id : DownlinkId) (data : List UInt8)
    (isLast : Bool) (inactive : reached.state.ota.download.downlinkId = downlinkIdInvalid) :
    History.record (OtaRecord.step cfg registry) reached (.data id data isLast) =
      ⟨⟨reached.state.ota, missedAfter cfg registry reached.state (.data id data isLast)⟩,
        reached.log ++ []⟩ := by
  simp only [History.record, OtaRecord.step, otaStep, otaReceiveComponentData, inactive, ne_eq,
    not_true_eq_false, if_false]

theorem CaughtUp.data {component : Nat} {reached : History OtaRecord ReceiveCall}
    (caughtUp : CaughtUp component reached) (id : DownlinkId) (data : List UInt8) (isLast : Bool)
    (wanted : WantedFromStart cfg registry reached (.data id data isLast)) :
    CaughtUp component (History.record (OtaRecord.step cfg registry) reached (.data id data isLast)) := by
  obtain ⟨current, received, position⟩ := caughtUp
  by_cases streaming : reached.state.ota.streaming
  next =>
    obtain ⟨fits, fromStart⟩ := wanted streaming
    have calls := goliothOtaReceiveComponent_receivedBy registry reached.state.ota
      (cfg.nameOf reached.state.ota.download) reached.state.ota.download.offset data isLast component
    rw [record_data_streaming reached id data isLast streaming fits]
    by_cases wants : reached.state.ota.Wanted cfg registry component
    next =>
      have total := position streaming (fromStart component wants)
      refine ⟨current ++ [⟨component, reached.state.ota.download.offset, data, isLast⟩], ?_, ?_⟩
      · rw [receivedBy_append, calls.1 wants]
        exact received.receive _ total.symm
      · intro _ _
        simpa [receivedLength_append, receivedLength] using total
    next =>
      refine ⟨current, ?_, ?_⟩
      · rw [receivedBy_append, calls.2 wants, List.append_nil]
        exact received
      · intro _ present
        have earlier : component ∉ reached.state.missed := fun member => present (.inl member)
        have empty : data = [] := by
          by_contra nonempty
          exact present (.inr ⟨streaming, nonempty, wants⟩)
        simpa [empty] using position streaming earlier
  next =>
    have inactive : reached.state.ota.download.downlinkId = downlinkIdInvalid := by
      simpa [Ota.streaming] using streaming
    rw [record_data_inactive reached id data isLast inactive]
    exact ⟨current, by simpa using received, fun active => absurd active streaming⟩

theorem CaughtUp.step {component : Nat} {reached : History OtaRecord ReceiveCall}
    (caughtUp : CaughtUp component reached) (op : OtaOp)
    (wanted : WantedFromStart cfg registry reached op) :
    CaughtUp component (History.record (OtaRecord.step cfg registry) reached op) := by
  cases op with
  | start id pathRemainder =>
    obtain ⟨remainder, present, _⟩ := wanted
    rw [present]
    exact caughtUp.start id remainder
  | data id data isLast => exact caughtUp.data id data isLast wanted
  | manifest component => exact caughtUp.quiet _ rfl
  | markForDownload name => exact caughtUp.quiet _ (setStatus_download ..)
  | markIdle name => exact caughtUp.quiet _ (setStatus_download ..)
  | markUpdating name => exact caughtUp.quiet _ (setStatus_download ..)

end Steps

/-- Every component is received in runs without gap or overlap, in every run of the service in which no
component is given the rest of a stream whose beginning it did not want. -/
theorem component_data_contiguous (cfg : OtaConfig) (registry : List RegisteredComponent) (ops : List OtaOp)
    (wanted : History.Meets (OtaRecord.step cfg registry) (WantedFromStart cfg registry)
      ⟨.boot cfg registry, []⟩ ops) (component : Nat) :
    SplitsIntoRuns (receivedBy component
      (History.run (OtaRecord.step cfg registry) ⟨.boot cfg registry, []⟩ ops).log) := by
  have final : CaughtUp component (History.run (OtaRecord.step cfg registry) ⟨.boot cfg registry, []⟩ ops) := by
    apply History.run_invariant (OtaRecord.step cfg registry) (WantedFromStart cfg registry)
      (CaughtUp component) _ ops ?_ wanted
    · intro reached op holds caughtUp
      exact caughtUp.step op holds
    · exact ⟨[], ⟨⟨[], rfl, by simp⟩, trivial⟩, by simp [OtaRecord.boot, Ota.boot, Ota.streaming]⟩
  obtain ⟨current, received, _⟩ := final
  exact received.splits

def sampleOtaConfig : OtaConfig where
  toConfig := defaultConfig .none
  maxPackageNameLen := 32
  maxVersionLen := 32
  maxVersionLenPositive := by decide

def samplePackage : CString := ⟨[0x61], List.forall_mem_singleton.mpr (by decide)⟩

def sampleRegistry : List RegisteredComponent := [⟨samplePackage, ⟨[0x31], List.forall_mem_singleton.mpr (by decide)⟩⟩]

def sampleRemainder : CString := ⟨[0x61, 0x40, 0x32], by simp⟩

theorem requested_download_contiguous :
    SplitsIntoRuns (receivedBy 0 (History.run (OtaRecord.step sampleOtaConfig sampleRegistry)
      ⟨.boot sampleOtaConfig sampleRegistry, []⟩
      [.markForDownload samplePackage, .start 1 (some sampleRemainder), .data 1 [1, 2] false,
        .data 1 [3] true]).log) := by
  apply component_data_contiguous
  refine ⟨trivial, ⟨sampleRemainder, rfl, by decide⟩, ?_, ?_, trivial⟩
  · exact fun _ => ⟨by decide, fun _ _ none' => none'⟩
  · refine fun _ => ⟨by decide +kernel, ?_⟩
    rintro component wanted (none' | ⟨_, _, unwanted⟩)
    · exact none'
    · exact unwanted wanted

theorem SplitsIntoRuns.head {call : ReceiveCall} {rest : List ReceiveCall}
    (splits : SplitsIntoRuns (call :: rest)) : call.offset = 0 := by
  obtain ⟨runs, flat, areRuns⟩ := splits
  obtain ⟨empty, first, others, rfl, _, _⟩ := List.flatten_eq_cons_iff.mp flat.symm
  exact (areRuns (call :: first) (by simp)).1

/-- A component that is marked for download in the middle of its stream gets the rest of it, with no
call at offset 0. -/
theorem late_mark_starts_inside :
    let ops : List OtaOp := [.start 1 (some sampleRemainder), .data 1 [1, 2] false,
      .markForDownload samplePackage, .data 1 [3] true]
    let log := (History.run (OtaRecord.step sampleOtaConfig sampleRegistry)
      ⟨.boot sampleOtaConfig sampleRegistry, []⟩ ops).log
    log = [⟨0, 2, [3], true⟩] ∧ ¬ SplitsIntoRuns (receivedBy 0 log) := by
  intro ops log
  have calls : log = [⟨0, 2, [3], true⟩] := by decide +kernel
  refine ⟨calls, ?_⟩
  rw [calls]
  intro splits
  have first : 2 = 0 := splits.head
  omega

end Pouch
