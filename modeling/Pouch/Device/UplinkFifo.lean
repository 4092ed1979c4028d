import Pouch.Device.Traces

set_option autoImplicit false

namespace Pouch

def outgoingBlocks (packets : List Outgoing) : List Buf := packets.filterMap Outgoing.sent?

@[simp] theorem outgoingBlocks_nil : outgoingBlocks [] = [] := rfl

@[simp] theorem outgoingBlocks_append (first second : List Outgoing) :
    outgoingBlocks (first ++ second) = outgoingBlocks first ++ outgoingBlocks second :=
  List.filterMap_append

@[simp] theorem outgoingBlocks_block (plain buf : Buf) : outgoingBlocks [.block plain buf] = [buf] := rfl

@[simp] theorem outgoingBlocks_headers (headers : List Buf) : outgoingBlocks (headers.map .header) = [] := by
  simp [outgoingBlocks, Outgoing.sent?]

theorem outgoingBlocks_cons (packet : Outgoing) (rest : List Outgoing) :
    outgoingBlocks (packet :: rest) = outgoingBlocks [packet] ++ outgoingBlocks rest :=
  outgoingBlocks_append [packet] rest

def Event.enqueues : Event → List Buf
  | .entryPassed block | .streamPassed _ block _ | .streamClosed _ (some block) | .enqueued block => [block]
  | _ => []

theorem Event.enqueues_downlink {event : Event} (on : event.party = .downlink) : event.enqueues = [] := by
  rcases Event.of_downlink on with ⟨_, rfl⟩ | rfl | ⟨_, _, rfl⟩ | ⟨_, rfl⟩ <;> rfl

def Event.completes : Event → List Buf
  | .released packet => outgoingBlocks [packet]
  | .finished reader transport _ => outgoingBlocks reader.toList ++ outgoingBlocks transport
  | _ => []

variable {Key : Type}

def Uplink.inFlight (uplink : Uplink) : List Buf :=
  outgoingBlocks uplink.reader.toList ++ outgoingBlocks uplink.transport ++ uplink.queue

structure InOrder (device : Device Key) (log : List Event) : Prop where
  plaintext : device.crypto.isPlaintext = true
  conserved : log.flatMap Event.enqueues = log.flatMap Event.completes ++ device.uplink.inFlight

theorem InOrder.keep {device next : Device Key} {log : List Event} {event : Event}
    (inOrder : InOrder device log) (plaintext : next.crypto.isPlaintext = true)
    (balance : device.uplink.inFlight ++ event.enqueues = event.completes ++ next.uplink.inFlight) :
    InOrder next (log ++ [event]) := by
  refine ⟨plaintext, ?_⟩
  simp only [List.flatMap_append, List.flatMap_singleton, inOrder.conserved, List.append_assoc, balance]

theorem endSession_build (device : Device Key) :
    (endSession device).crypto.isPlaintext = device.crypto.isPlaintext := by
  simp only [endSession]
  cases device.crypto <;> rfl

theorem SmallStep.build {device next : Device Key} {event : Event} (small : SmallStep device event next) :
    next.crypto.isPlaintext = device.crypto.isPlaintext := by
  cases small with
  | processed block sent rest crypto pool active opened queue exchange build plain => exact build
  | dropped block rest crypto pool active opened queue exchange build encrypts => exact build
  | sessionStarted crypto next build => exact build
  | pouchStarted crypto next build => exact build
  | startFailed crypto inside build => exact build
  | sessionEnded => exact endSession_build device
  | downlink _ pool crypto downlink on build => exact build
  | _ => rfl

theorem SmallStep.crypto_kept {device next : Device Key} {event : Event}
    (small : SmallStep device event next)
    (worker : event.party ≠ .worker) (start : event.party ≠ .start) (downlink : event.party ≠ .downlink)
    (lasts : event ≠ .sessionEnded) : next.crypto = device.crypto := by
  cases small with
  | processed => exact absurd rfl worker
  | dropped => exact absurd rfl worker
  | sessionStarted => exact absurd rfl start
  | pouchStarted => exact absurd rfl start
  | startFailed => exact absurd rfl start
  | sessionEnded => exact absurd rfl lasts
  | downlink _ pool crypto downlink' on => exact absurd on downlink
  | _ => rfl

theorem InOrder.step {device next : Device Key} {log : List Event} {event : Event}
    (small : SmallStep device event next) (inOrder : InOrder device log) :
    InOrder next (log ++ [event]) := by
  have plaintext := inOrder.plaintext
  apply inOrder.keep (small.build.trans plaintext)
  cases small with
  | processed block sent rest crypto pool active opened queue exchange build plain =>
    simp [Event.enqueues, Event.completes, Uplink.inFlight, queue, plain plaintext]
  | dropped block rest crypto pool active opened queue exchange build encrypts =>
    simp [encrypts] at plaintext
  | taken packet rest queue free =>
    simp [Event.enqueues, Event.completes, Uplink.inFlight, queue, free, outgoingBlocks_cons packet rest]
  | released packet held => simp [Event.enqueues, Event.completes, Uplink.inFlight, held]
  | downlink _ pool crypto downlink on build =>
    rcases Event.of_downlink on with ⟨_, rfl⟩ | rfl | ⟨_, _, rfl⟩ | ⟨_, rfl⟩ <;>
      simp [Event.enqueues, Event.completes, Uplink.inFlight]
  | _ =>
    simp [Event.enqueues, Event.completes, Uplink.inFlight, uplinkEnqueue, Device.putStream, startFail,
      endSession]

/-- In the plaintext build no block is lost, duplicated or overtaken: all blocks ever enqueued are
those that were output or discarded, then the one in the reader, then those in the transport queue,
then those in the processing queue. -/
theorem uplink_fifo (cfg : Config) (plaintext : cfg.encryption = .none) (ops : List (DeviceOp Key)) :
    let reached := History.run (Device.step cfg) ⟨.boot Key cfg, []⟩ ops
    reached.log.flatMap Event.enqueues =
      reached.log.flatMap Event.completes ++ (outgoingBlocks reached.state.uplink.reader.toList ++
        outgoingBlocks reached.state.uplink.transport ++ reached.state.uplink.queue) := by
  have inOrder := (Device.step_traced cfg).run_invariant (fun _ _ => True) (fun _ => True) InOrder
    ⟨.boot Key cfg, []⟩ ops (Device.boot_formed cfg)
    ⟨by simp [Device.boot, Crypto.boot, plaintext, Crypto.isPlaintext], rfl⟩
    (History.meets_of_forall _ _ _ _ fun _ _ _ => trivial) (fun _ _ _ _ _ _ => trivial)
    (fun _ _ _ _ small _ holds => holds.step small)
  exact inOrder.conserved

def startedOps : List (DeviceOp Unit) :=
  [.startActivate, .startSession ⟨.none, none, ⟨fun _ _ _ => none, fun _ => none⟩⟩, .startPouch,
    .startHeader ⟨some fun _ => 0, true, some [0x82, 0x01]⟩]

def enqueuedBlock (bytes : List UInt8) : DeviceOp Unit := .enqueue (some fun _ => 0) bytes

def workerRun : DeviceOp Unit := .processBlocks fun _ => ⟨some fun _ => 0, fun _ => none⟩

def deviceRun (ops : List (DeviceOp Unit)) : History (Device Unit) Event :=
  History.run (Device.step (defaultConfig .none)) ⟨.boot Unit (defaultConfig .none), []⟩ ops

-- Four blocks: one output, one in the reader, one on the transport queue and one still waiting.
def pipelineOps : List (DeviceOp Unit) :=
  startedOps ++ [enqueuedBlock [0, 1, 0], enqueuedBlock [0, 1, 0], enqueuedBlock [0, 1, 0], workerRun,
    .fill 6, enqueuedBlock [0, 1, 0]]

theorem uplink_fifo_sample :
    let reached := deviceRun pipelineOps
    (outgoingBlocks reached.state.uplink.reader.toList).length = 1 ∧
      reached.log.flatMap Event.enqueues =
        reached.log.flatMap Event.completes ++ (outgoingBlocks reached.state.uplink.reader.toList ++
          outgoingBlocks reached.state.uplink.transport ++ reached.state.uplink.queue) :=
  ⟨by decide +kernel, uplink_fifo (defaultConfig .none) rfl pipelineOps⟩

end Pouch
