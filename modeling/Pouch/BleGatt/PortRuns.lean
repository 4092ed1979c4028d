import Pouch.BleGatt.UplinkTransfer
import Pouch.Device.EntrySupply
import Pouch.Device.PouchShapes

set_option autoImplicit false

/-!
# The port as steps of the library

What the reads of a peer do to the library, step by step. What these steps preserve holds in every run of the port.
-/

namespace Pouch

section Turns

variable {Key : Type} {cfg : Config}

inductive PacketTurn (cfg : Config) (device : Device Key) : Device Key → List Event → Prop
  | nothing : PacketTurn cfg device device []
  | part (maxlen : Nat) (active : device.uplink.sessionActive = true)
      (goesOn : (pouchUplinkFill cfg maxlen device).1 ≠ .noMoreData) :
      PacketTurn cfg device (pouchUplinkFill cfg maxlen device).2.device (pouchUplinkFill cfg maxlen device).2.events
  | whole (maxlen : Nat) :
      PacketTurn cfg device (pouchUplinkFinish (pouchUplinkFill cfg maxlen device).2.device).1
        ((pouchUplinkFill cfg maxlen device).2.events ++
          (pouchUplinkFinish (pouchUplinkFill cfg maxlen device).2.device).2)

theorem Serving.turn {packetizer : Packetizer (PouchArg Key)} {fresh : Bool}
    (serving : Serving cfg packetizer fresh) {device : Device Key} (readable : device.Readable cfg)
    (active : device.uplink.sessionActive = true) (len : Nat) :
    PacketTurn cfg device (portPacket packetizer len device).1.device
      (libraryLog (portPacket packetizer len device).2) := by
  by_cases short : len ≤ 1
  next =>
    rw [serving.short device short]
    exact .nothing
  next =>
    by_cases ends : (pouchUplinkFill cfg (len - 1) device).1 = .noMoreData
    next =>
      rw [serving.last device short ends]
      simpa using PacketTurn.whole (len - 1)
    next =>
      obtain ⟨goesOn, _, _⟩ := (fill_takes (len - 1) readable active).goesOn ends
      obtain ⟨next, _, packet⟩ := serving.more device short goesOn
      rw [packet]
      simpa using PacketTurn.part (len - 1) active ends

theorem portPacket_null_turn (pouch : PouchArg Key) (null : pouch.isNull = true) (healthy : pouch.faulted = false)
    (error : Option PacketizerError) (device : Device Key) (len : Nat) :
    let packet := portPacket ⟨.callback (PouchArg.fillCb cfg) pouch, true, error⟩ len device
    PacketTurn cfg device packet.1.device (libraryLog packet.2) := by
  rcases portPacket_null cfg true pouch null healthy error device len with ⟨_, refused⟩ | ⟨_, next, faults⟩
  · simp only [refused]
    exact .nothing
  · simp only [faults]
    exact .nothing

variable {device next : Device Key} {log events : List Event} {done : List (List WireEntry)}
  {entries : List WireEntry}

structure PacketTrace (cfg : Config) (device next : Device Key) (events : List Event) : Prop where
  trace : Trace SmallStep device events next
  formed : next.Formed cfg
  block : next.entryBlock = device.entryBlock
  passes : events.flatMap Event.enqueues = []
  accepts : writtenEntries events = []

theorem PacketTrace.append {middle : Device Key} {more : List Event} (left : PacketTrace cfg device middle events)
    (right : PacketTrace cfg middle next more) : PacketTrace cfg device next (events ++ more) := by
  constructor
  next => exact left.trace.append right.trace
  next => exact right.formed
  next => exact right.block.trans left.block
  next => rw [List.flatMap_append, left.passes, right.passes, List.append_nil]
  next => rw [writtenEntries_append, left.accepts, right.accepts, List.append_nil]

theorem CallTrace.packet {party : Party} {result : Device Key × List Event} (call : CallTrace cfg party device result)
    (application : party ≠ .application) (close : party ≠ .close) : PacketTrace cfg device result.1 result.2 := by
  obtain ⟨block, passes, accepts⟩ := call.entries_kept application close
  exact ⟨call.trace, call.formed, block, passes, accepts⟩

theorem PacketTurn.trace (turn : PacketTurn cfg device next events) (formed : device.Formed cfg)
    (idle : device.starting = none) : PacketTrace cfg device next events := by
  have reads (maxlen : Nat) : PacketTrace cfg device (pouchUplinkFill cfg maxlen device).2.device
      (pouchUplinkFill cfg maxlen device).2.events := by
    have reads := pouchUplinkFill_reads maxlen device formed idle
    have call : CallTrace cfg .read device (_, _) := ⟨reads.trace, reads.formed, reads.parties⟩
    exact call.packet (by simp) (by simp)
  cases turn with
  | nothing => exact ⟨.nil device, formed, rfl, rfl, rfl⟩
  | part maxlen => exact reads maxlen
  | whole maxlen =>
    have starting := (pouchUplinkFill_reads maxlen device formed idle).starting.trans idle
    have finish := (pouchUplinkFinish_call _ (reads maxlen).formed starting).packet (by simp) (by simp)
    exact (reads maxlen).append finish

theorem fillLoop_crypto (fuel left : Nat) (device : Device Key) :
    (fillLoop cfg fuel left device).device.crypto = device.crypto := by
  have copied (left : Nat) (packet : Outgoing) (device : Device Key) :
      (fillCopy cfg left packet device).device.crypto = device.crypto := by
    simp only [fillCopy]
    split_ifs <;> rfl
  induction fuel generalizing left device with
  | zero => rfl
  | succ fuel ih =>
    simp only [fillLoop]
    split_ifs with done ready
    · rfl
    · cases device.uplink.reader with
      | none => rfl
      | some packet => exact (ih _ _).trans (copied left packet device)
    · cases device.uplink.transport with
      | nil => rfl
      | cons packet rest => exact (ih _ _).trans (copied left packet _)

theorem fill_goesOn (maxlen : Nat) (active : device.uplink.sessionActive = true)
    (goesOn : (pouchUplinkFill cfg maxlen device).1 ≠ .noMoreData) :
    (pouchUplinkFill cfg maxlen device).2.device.uplink.sessionActive = true ∧
      (pouchUplinkFill cfg maxlen device).2.device.crypto = device.crypto := by
  simp only [pouchUplinkFill, active, if_true] at goesOn ⊢
  split_ifs at goesOn ⊢ with more
  · exact ⟨(fillLoop_readerOnly cfg _ maxlen device).active.trans active, fillLoop_crypto _ maxlen device⟩
  · exact absurd rfl goesOn

theorem fill_silent (maxlen : Nat) (formed : device.Formed cfg) (idle : device.starting = none) :
    Silent (pouchUplinkFill cfg maxlen device).2.events := fun event member =>
  Event.read_silent ((pouchUplinkFill_reads maxlen device formed idle).parties event member)

theorem SmallStep.read_header {event : Event} (small : SmallStep device event next) (read : event.party = .read) :
    next.uplink.header = device.uplink.header := by
  cases small with
  | taken | copied | released | sessionEnded | noMoreData => rfl
  | downlink _ _ _ _ on => simp [on] at read
  | _ => cases read

theorem Shaped.turn (shaped : Shaped device log) (turn : PacketTurn cfg device next events)
    (formed : device.Formed cfg) (idle : device.starting = none) : Shaped next (log ++ events) := by
  cases turn with
  | nothing => simpa using shaped
  | part maxlen active goesOn =>
    have reads := pouchUplinkFill_reads maxlen device formed idle
    have header := reads.trace.invariant (fun reached _ => reached.uplink.header = device.uplink.header)
      (fun event => event.party = .read) (fun _ _ _ _ small read holds => (small.read_header read).trans holds)
      (fun event member => by simpa [Event.reportedBy] using reads.parties event member) [] rfl
    exact shaped.keep (fill_silent maxlen formed idle) reads.starting
      ((fill_goesOn maxlen active goesOn).1.trans active.symm) header
  | whole maxlen => exact shaped.finish (fill_silent maxlen formed idle)

end Turns

section Port

variable {Key : Type} {cfg : Config} {port : UplinkPort Key} {log : List PortEvent}

def PortOp.calls : PortOp Key → List (DeviceOp Key)
  | .read call => call.start
  | .other op => [op.val]

theorem PortOp.calls_outside (op : PortOp Key) : ∀ call ∈ op.calls, call.party ≠ .read ∧ call.party ≠ .finish := by
  cases op with
  | read read => exact read.start_outside
  | other op =>
    rintro call member
    obtain rfl : call = op.val := by simpa [PortOp.calls] using member
    exact op.outside

structure PortTurn (cfg : Config) (port : UplinkPort Key) (op : PortOp Key) (calls : List (DeviceOp Key))
    (events : List Event) : Prop where
  within : ∀ call ∈ calls, call ∈ op.calls
  formed : (History.run (Device.step cfg) ⟨port.device, []⟩ calls).state.Formed cfg
  idle : (History.run (Device.step cfg) ⟨port.device, []⟩ calls).state.starting = none
  turn : PacketTurn cfg (History.run (Device.step cfg) ⟨port.device, []⟩ calls).state (portStep cfg port op).1.device
    events
  log : libraryLog (portStep cfg port op).2 =
    (History.run (Device.step cfg) ⟨port.device, []⟩ calls).log ++ events

theorem Transferring.start_turn (transferring : Transferring cfg port log) (healthy : port.faulted = false)
    (free : port.packetizer = none) (read : PeerRead Key) (inside : read.offset = 0)
    (sized : SizesFit cfg (portStep cfg port (.read read)).2) :
    ∃ events, PortTurn cfg port (.read read) read.start events := by
  have same : portStep cfg port (.read read) = portRead cfg read port := by simp [portStep, healthy]
  rw [same] at sized
  simp only [portRead, inside, ne_eq, not_true, if_false, free] at sized
  have sizedStart : ∀ event ∈ (History.run (Device.step cfg) ⟨port.device, []⟩ read.start).log, event.Sized cfg := by
    intro event member
    apply sized event
    cases read.malloc <;> simp [packetizerStartCallback, packetizerStart, member]
  obtain ⟨transfers, rest, data, supplies, idle, _, succeeds, _⟩ :=
    transferring.starts free healthy read sizedStart
  have packets : ∃ events,
      PacketTurn cfg (History.run (Device.step cfg) ⟨port.device, []⟩ read.start).state
        (portRead cfg read port).1.device events ∧
      libraryLog (portRead cfg read port).2 =
        (History.run (Device.step cfg) ⟨port.device, []⟩ read.start).log ++ events := by
    simp only [portRead, inside, ne_eq, not_true, if_false, free]
    generalize History.run (Device.step cfg) ⟨port.device, []⟩ read.start = started at supplies succeeds ⊢
    cases read.malloc with
    | false => exact ⟨[], .nothing, by simp [packetizerStartCallback, packetizerStart]⟩
    | true =>
      simp only [packetizerStartCallback, packetizerStart, if_true, libraryLog_append, libraryLog_device]
      cases succeeded : startSucceeded started.log with
      | true =>
        let pouch : PouchArg Key := ⟨false, started.state, [], false⟩
        have serving : Serving cfg ⟨.callback (PouchArg.fillCb cfg) pouch, true, none⟩ true :=
          ⟨pouch, none, rfl, rfl, rfl⟩
        exact ⟨_, serving.turn supplies.readable (succeeds succeeded).2 read.len, rfl⟩
      | false => exact ⟨_, portPacket_null_turn ⟨true, started.state, [], false⟩ rfl rfl none started.state read.len, rfl⟩
  obtain ⟨events, turn, reported⟩ := packets
  exact ⟨events, fun call member => member, supplies.readable.formed, idle, by rwa [same], by rw [same, reported]⟩

theorem Transferring.turn (transferring : Transferring cfg port log) (op : PortOp Key)
    (sized : SizesFit cfg (portStep cfg port op).2) : ∃ calls events, PortTurn cfg port op calls events := by
  have formed := transferring.readable.formed
  have idle := transferring.idle
  -- Steps of the port that do nothing.
  have nothing (same : portStep cfg port op = (port, [])) : PortTurn cfg port op [] [] := by
    refine ⟨by simp, formed, idle, ?_, by simp [same, libraryLog]⟩
    rw [same]
    exact .nothing
  cases healthy : port.faulted with
  | true => exact ⟨[], [], nothing (by simp [portStep, healthy])⟩
  | false =>
    cases op with
    | other op =>
      have call := Device.step_call cfg port.device op.val formed
      have kept := call.session_kept op.property
      have same : (portStep cfg port (.other op)).1.device = (port.device.step cfg op.val).1 := by
        simp [portStep, healthy]
      refine ⟨[op.val], [], by simp [PortOp.calls], call.formed, kept.starting.trans idle, ?_, ?_⟩
      · rw [same]
        exact .nothing
      · simp [portStep, healthy, History.record]
    | read read =>
      by_cases inside : read.offset = 0
      next =>
        cases held : port.packetizer with
        | some packetizer =>
          obtain ⟨_, rest, _, _, serves⟩ := transferring.carrying
          have stands := serves healthy
          simp only [UplinkPort.Serves, held] at stands
          have turn := stands.2.turn transferring.readable stands.1 read.len
          have same : portStep cfg port (.read read) = portPacket packetizer read.len port.device := by
            simp [portStep, healthy, portRead, inside, held]
          refine ⟨[], libraryLog (portPacket packetizer read.len port.device).2, by simp, formed, idle, ?_,
            by simp [same]⟩
          rw [same]
          exact turn
        | none =>
          obtain ⟨events, turn⟩ := transferring.start_turn healthy held read inside sized
          exact ⟨read.start, events, turn⟩
      next => exact ⟨[], [], nothing (by simp [portStep, portRead, inside])⟩

end Port

section Invariants

variable {Key : Type} {cfg : Config}

-- No block is taken from the processing queue during `pouch_uplink_start`.
def TakesOutsideStart (events : List Event) : Prop := ∀ event ∈ events, event.takenDuring ≠ some true

instance (events : List Event) : Decidable (TakesOutsideStart events) :=
  inferInstanceAs (Decidable (∀ event ∈ events, event.takenDuring ≠ some true))

theorem TakesOutsideStart.of_append {first second : List Event} (undisturbed : TakesOutsideStart (first ++ second)) :
    TakesOutsideStart first ∧ TakesOutsideStart second := by
  simp only [TakesOutsideStart, List.mem_append, or_imp, forall_and] at undisturbed
  exact undisturbed

structure PortInvariant (cfg : Config) (allowed : DeviceOp Key → Prop) (holds : Device Key → List Event → Prop) :
    Prop where
  step : ∀ device log op, device.Formed cfg → op.party ≠ .read ∧ op.party ≠ .finish → allowed op →
    TakesOutsideStart (device.step cfg op).2 → holds device log →
      holds (device.step cfg op).1 (log ++ (device.step cfg op).2)
  turn : ∀ device next log events, device.Formed cfg → device.starting = none → PacketTurn cfg device next events →
    holds device log → holds next (log ++ events)

variable {allowed : DeviceOp Key → Prop} {holds : Device Key → List Event → Prop}

theorem PortInvariant.run (preserved : PortInvariant cfg allowed holds) {device : Device Key} {log : List Event}
    (formed : device.Formed cfg) (ops : List (DeviceOp Key))
    (outside : ∀ op ∈ ops, op.party ≠ .read ∧ op.party ≠ .finish) (allows : ∀ op ∈ ops, allowed op)
    (undisturbed : TakesOutsideStart (History.run (Device.step cfg) ⟨device, []⟩ ops).log)
    (initial : holds device log) :
    let ended := History.run (Device.step cfg) ⟨device, []⟩ ops
    holds ended.state (log ++ ended.log) := by
  induction ops generalizing device log with
  | nil => simpa using initial
  | cons op rest ih =>
    simp only [List.mem_cons, forall_eq_or_imp] at outside allows
    rw [History.run_cons, History.record, History.run_log] at undisturbed ⊢
    simp only [List.nil_append] at undisturbed ⊢
    have next := preserved.step device log op formed outside.1 allows.1 undisturbed.of_append.1 initial
    rw [← List.append_assoc]
    exact ih ((Device.step_traced cfg).formed device op formed) outside.2 allows.2 undisturbed.of_append.2 next

theorem PortInvariant.port (preserved : PortInvariant cfg allowed holds) {port : UplinkPort Key}
    {log : List PortEvent} (transferring : Transferring cfg port log) (op : PortOp Key)
    (allows : ∀ call ∈ op.calls, allowed call) (sized : SizesFit cfg (portStep cfg port op).2)
    (undisturbed : TakesOutsideStart (libraryLog (portStep cfg port op).2))
    (initial : holds port.device (libraryLog log)) :
    holds (portStep cfg port op).1.device (libraryLog (log ++ (portStep cfg port op).2)) := by
  obtain ⟨calls, events, turn⟩ := transferring.turn op sized
  have reported := turn.log
  rw [reported] at undisturbed
  have called := preserved.run transferring.readable.formed calls
    (fun call member => op.calls_outside call (turn.within call member))
    (fun call member => allows call (turn.within call member)) undisturbed.of_append.1 initial
  have turned := preserved.turn _ _ _ _ turn.formed turn.idle turn.turn called
  rwa [libraryLog_append, reported, ← List.append_assoc]

/-- An invariant of the library holds in every run of the port. -/
theorem PortInvariant.run_port (preserved : PortInvariant cfg allowed holds) {port : UplinkPort Key}
    {log : List PortEvent} (transferring : Transferring cfg port log) (ops : List (PortOp Key))
    (allows : ∀ op ∈ ops, ∀ call ∈ op.calls, allowed call)
    (sized : SizesFit cfg (History.run (portStep cfg) ⟨port, log⟩ ops).log)
    (undisturbed : TakesOutsideStart (libraryLog (History.run (portStep cfg) ⟨port, log⟩ ops).log))
    (initial : holds port.device (libraryLog log)) :
    let reached := History.run (portStep cfg) ⟨port, log⟩ ops
    holds reached.state.device (libraryLog reached.log) := by
  induction ops generalizing port log with
  | nil => exact initial
  | cons op rest ih =>
    simp only [List.mem_cons, forall_eq_or_imp] at allows
    rw [History.run_cons] at sized undisturbed ⊢
    obtain ⟨after, whole⟩ := History.log_prefix (portStep cfg) (History.record (portStep cfg) ⟨port, log⟩ op) rest
    have sizedStep := (SizesFit.of_append (SizesFit.of_append (whole ▸ sized)).1).2
    have undisturbedStep : TakesOutsideStart (libraryLog (portStep cfg port op).2) := by
      rw [← whole, libraryLog_append, History.record, libraryLog_append] at undisturbed
      exact undisturbed.of_append.1.of_append.2
    have next := preserved.port transferring op allows.1 sizedStep undisturbedStep initial
    exact ih (transferring.step op sizedStep) allows.2 sized undisturbed next

end Invariants

end Pouch
