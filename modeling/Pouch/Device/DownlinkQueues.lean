import Pouch.Device.Downlink
import Pouch.Shared.History

set_option autoImplicit false

namespace Pouch

inductive QueueOp where
  | push (buf : Buf)
  | decrypt (decrypted : Option Buf)
  | consume

-- A handler runs only if its item is pending.
def queueStep (state : DownlinkState) : QueueOp → DownlinkState × List Event
  | .push buf => (state.blockDownlinkPush buf, [])
  | .decrypt decrypted => (if state.decryptWork then state.decryptBlocks decrypted else state, [])
  | .consume => (if state.consumeWork then state.consumeBlocks else state, [])

structure DownlinkState.Armed (state : DownlinkState) : Prop where
  decrypt : state.decryptWork = true ↔ state.decryptQueue ≠ []
  consume : state.consumeWork = true ↔ state.consumeQueue ≠ []

def StaysArmed (history : History DownlinkState Event) (op : QueueOp) : Prop :=
  (queueStep history.state op).1.Armed

def FailsAlone (history : History DownlinkState Event) : QueueOp → Prop
  | .decrypt none => history.state.decryptQueue.tail = []
  | _ => True

section Step

variable {state : DownlinkState}

theorem push_armed (armed : state.Armed) (buf : Buf) : (state.blockDownlinkPush buf).Armed :=
  ⟨by simp [DownlinkState.blockDownlinkPush], armed.consume⟩

theorem decrypted_armed (decrypted : Buf) : (state.decryptBlocks (some decrypted)).Armed :=
  ⟨by simp [DownlinkState.decryptBlocks], by simp [DownlinkState.decryptBlocks]⟩

theorem failed_armed_iff (armed : state.Armed) :
    (state.decryptBlocks none).Armed ↔ state.decryptQueue.tail = [] := by
  constructor
  · intro next
    have stalled := next.decrypt
    simpa [DownlinkState.decryptBlocks] using stalled
  · intro alone
    exact ⟨by simp [DownlinkState.decryptBlocks, alone], armed.consume⟩

theorem consumed_armed (armed : state.Armed) : state.consumeBlocks.Armed :=
  ⟨armed.decrypt, by simp [DownlinkState.consumeBlocks]⟩

theorem queueStep_armed_iff (armed : state.Armed) (log : List Event) (op : QueueOp) :
    StaysArmed ⟨state, log⟩ op ↔ FailsAlone ⟨state, log⟩ op := by
  cases op with
  | push buf => exact iff_of_true (push_armed armed buf) trivial
  | consume =>
    refine iff_of_true ?_ trivial
    simp only [StaysArmed, queueStep]
    split_ifs
    · exact consumed_armed armed
    · exact armed
  | decrypt decrypted =>
    cases decrypted with
    | some decrypted =>
      refine iff_of_true ?_ trivial
      simp only [StaysArmed, queueStep]
      split_ifs
      · exact decrypted_armed decrypted
      · exact armed
    | none =>
      by_cases pending : state.decryptWork = true
      · simp only [StaysArmed, queueStep, pending, if_true]
        exact failed_armed_iff armed
      · simp only [StaysArmed, queueStep, pending]
        have empty : state.decryptQueue = [] := by
          by_contra waiting
          exact pending (armed.decrypt.mpr waiting)
        exact iff_of_true armed (by simp [FailsAlone, empty])

end Step

def idleDownlink : DownlinkState := ⟨none, false, [], false, [], false⟩

theorem idleDownlink_armed : idleDownlink.Armed := ⟨by simp [idleDownlink], by simp [idleDownlink]⟩

/-- Neither queue ever stalls exactly in the runs in which every failed decryption is of the only
block in the queue. -/
theorem downlink_never_stalls_iff (ops : List QueueOp) :
    History.Meets queueStep StaysArmed ⟨idleDownlink, []⟩ ops ↔
      History.Meets queueStep FailsAlone ⟨idleDownlink, []⟩ ops := by
  refine History.meets_iff_of_invariant queueStep StaysArmed FailsAlone (fun history => history.state.Armed)
    ⟨idleDownlink, []⟩ ops idleDownlink_armed ?_ ?_
  · exact fun reached op armed => queueStep_armed_iff armed reached.log op
  · exact fun reached op alone armed => (queueStep_armed_iff armed reached.log op).mpr alone

def arrivedBlock (id : Nat) : Buf := ⟨id, .internal, .ofList [0, 17]⟩

/-- Two blocks arrive and the first one does not decrypt: the second one waits for nothing. -/
theorem downlink_stalls :
    ¬ History.Meets queueStep StaysArmed ⟨idleDownlink, []⟩
      [.push (arrivedBlock 0), .push (arrivedBlock 1), .decrypt none] := by
  rintro ⟨_, _, stalled, _⟩
  simpa [queueStep, History.record, idleDownlink, DownlinkState.blockDownlinkPush,
    DownlinkState.decryptBlocks] using stalled.decrypt

end Pouch
