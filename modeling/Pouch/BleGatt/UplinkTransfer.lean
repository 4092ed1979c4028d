import Pouch.BleGatt.PacketizerRoundTrip
import Pouch.BleGatt.UplinkCharacteristic
import Pouch.Device.FailedStart
import Pouch.Device.UplinkSupply

set_option autoImplicit false

/-!
# A pouch on its way to the peer

The reads of a peer on the uplink characteristic of the library, between which the other parties take their steps in
any order, also while a read is inside `pouch_uplink_start`. The packets of one transfer carry one pouch.
-/

namespace Pouch

open ByteMemory

section Model

variable {Key : Type} (cfg : Config)

def OtherOp (Key : Type) := { op : DeviceOp Key // op.party.emits = false }

/-- A read, with the outcomes of the calls out of the library and what the other parties do in front of each of the
later steps of `pouch_uplink_start`, for the case that it starts a pouch. -/
structure PeerRead (Key : Type) where
  len : Nat
  offset : Nat
  malloc : Bool
  session : SessionCall Key
  header : HeaderCall
  meanwhile : StartStep → List (OtherOp Key)

def PeerRead.start (read : PeerRead Key) : List (DeviceOp Key) :=
  .startActivate :: (read.meanwhile .session).map (·.val) ++
    .startSession read.session :: (read.meanwhile .pouch).map (·.val) ++
    .startPouch :: (read.meanwhile .header).map (·.val) ++ [.startHeader read.header]

/-- The user argument of the fill callback, a pointer to the pouch or NULL, with the library that the callback is
called in and what it has reported. -/
structure PouchArg (Key : Type) where
  isNull : Bool
  device : Device Key
  events : List Event
  faulted : Bool

def PouchArg.after (pouch : PouchArg Key) (call : Device Key × List Event) : PouchArg Key :=
  { pouch with device := call.1, events := pouch.events ++ call.2 }

-- `uplink_fill_cb`.
def PouchArg.fillCb : FillCb (PouchArg Key) := fun pouch dstLen =>
  if pouch.isNull then
    -- `pouch_uplink_fill` uses NULL in a session, and `pouch_uplink_finish` does outside of one.
    ⟨.error, [], { pouch with faulted := true }⟩
  else
    let (pouchRet, read) := pouchUplinkFill cfg dstLen pouch.device
    let filled := pouch.after (read.device, read.events)
    match pouchRet with
    | .error => ⟨.error, [], filled.after (pouchUplinkFinish filled.device)⟩
    | .noMoreData => ⟨.noMoreData, read.output, filled.after (pouchUplinkFinish filled.device)⟩
    | .moreData => ⟨.moreData, read.output, filled⟩

-- The library with the context of the characteristic. After a fault there are no more steps.
structure UplinkPort (Key : Type) where
  device : Device Key
  packetizer : Option (Packetizer (PouchArg Key))
  faulted : Bool

def UplinkPort.boot (Key : Type) (cfg : Config) : UplinkPort Key := ⟨.boot Key cfg, none, false⟩

inductive PortEvent where
  | device (event : Event)
  -- A packet, with the room there was for it.
  | packet (room : Nat) (bytes : List UInt8)
  | attError

-- The pouch is behind a pointer: the callback meets it as it is at the read.
def Packetizer.meeting (packetizer : Packetizer (PouchArg Key)) (device : Device Key) : Packetizer (PouchArg Key) :=
  match packetizer.source with
  | .buffer _ => packetizer
  | .callback func pouch =>
    { packetizer with source := .callback func { pouch with device := device, events := [] } }

-- The second half of `uplink_read`, with a packetizer.
def portPacket (packetizer : Packetizer (PouchArg Key)) (len : Nat) (device : Device Key) :
    UplinkPort Key × List PortEvent :=
  let got := packetizerGet (packetizer.meeting device) len
  let pouch := got.packetizer.source.userArg?.getD ⟨false, device, [], false⟩
  let events := pouch.events.map .device
  if pouch.faulted then
    (⟨pouch.device, some got.packetizer, true⟩, events)
  else
    match got.result with
    | .error => (⟨pouch.device, none, false⟩, events ++ [.attError])
    | .noMoreData => (⟨pouch.device, none, false⟩, events ++ [.packet len got.packet])
    | _ => (⟨pouch.device, some got.packetizer, false⟩, events ++ [.packet len got.packet])

-- `uplink_read`.
def portRead (read : PeerRead Key) (port : UplinkPort Key) : UplinkPort Key × List PortEvent :=
  -- Packets are forced into a single MTU.
  if read.offset ≠ 0 then
    (port, [])
  else
    match port.packetizer with
    | some packetizer => portPacket packetizer read.len port.device
    | none =>
      let started := History.run (Device.step cfg) ⟨port.device, []⟩ read.start
      let pouch : PouchArg Key := ⟨!startSucceeded started.log, started.state, [], false⟩
      match packetizerStartCallback read.malloc (PouchArg.fillCb cfg) pouch with
      | none => (⟨started.state, none, true⟩, started.log.map .device)
      | some packetizer =>
        let (port, events) := portPacket packetizer read.len started.state
        (port, started.log.map .device ++ events)

inductive PortOp (Key : Type) where
  | read (read : PeerRead Key)
  | other (op : OtherOp Key)

def portStep (port : UplinkPort Key) (op : PortOp Key) : UplinkPort Key × List PortEvent :=
  if port.faulted then
    (port, [])
  else
    match op with
    | .read read => portRead cfg read port
    | .other op =>
      let (device, events) := port.device.step cfg op.val
      ({ port with device := device }, events.map .device)

def PortEvent.packet? : PortEvent → Option (List UInt8)
  | .packet _ bytes => some bytes
  | _ => none

def PortEvent.device? : PortEvent → Option Event
  | .device event => some event
  | _ => none

def readPackets (log : List PortEvent) : List (List UInt8) := log.filterMap PortEvent.packet?

def libraryLog (log : List PortEvent) : List Event := log.filterMap PortEvent.device?

end Model

section Log

variable {log more : List PortEvent}

@[simp] theorem readPackets_append : readPackets (log ++ more) = readPackets log ++ readPackets more :=
  List.filterMap_append

@[simp] theorem libraryLog_append : libraryLog (log ++ more) = libraryLog log ++ libraryLog more :=
  List.filterMap_append

@[simp] theorem readPackets_device (events : List Event) : readPackets (events.map .device) = [] := by
  simp [readPackets, PortEvent.packet?]

@[simp] theorem libraryLog_device (events : List Event) : libraryLog (events.map .device) = events := by
  simp [libraryLog, Function.comp_def, PortEvent.device?]

@[simp] theorem readPackets_packet (room : Nat) (bytes : List UInt8) : readPackets [.packet room bytes] = [bytes] :=
  rfl

@[simp] theorem libraryLog_packet (room : Nat) (bytes : List UInt8) : libraryLog [.packet room bytes] = [] := rfl

@[simp] theorem readPackets_attError : readPackets [.attError] = [] := rfl

@[simp] theorem libraryLog_attError : libraryLog [.attError] = [] := rfl

end Log

section Packets

inductive Begun : List (List UInt8) → List UInt8 → Prop
  | nothing : Begun [] []
  | packet {packets : List (List UInt8)} {data : List UInt8} (begun : Begun packets data) (piece : List UInt8) :
      Begun (packets ++ [packetFlags packets.isEmpty false :: piece]) (data ++ piece)

variable {packets : List (List UInt8)} {data : List UInt8}

theorem Begun.parts (begun : Begun packets data) :
    ∃ parts : List Packet, packets.map (fun packet => packetizerDecode (some packet)) = parts.map .ok ∧
      (parts.map (·.payload)).flatten = data ∧
      parts.map (·.isFirst) = (List.replicate parts.length false).set 0 true ∧
      parts.map (·.isLast) = List.replicate parts.length false := by
  induction begun with
  | nothing => exact ⟨[], rfl, rfl, rfl, rfl⟩
  | @packet packets data begun piece ih =>
    obtain ⟨parts, decoded, whole, firsts, lasts⟩ := ih
    have lengths : packets.length = parts.length := by simpa using congrArg List.length decoded
    refine ⟨parts ++ [⟨packets.isEmpty, false, piece⟩], ?_, ?_, ?_, ?_⟩
    · simp [decoded, packetizerDecode_flags]
    · simp [whole]
    · cases parts with
      | nil =>
        obtain rfl : packets = [] := List.eq_nil_of_length_eq_zero lengths
        rfl
      | cons part parts =>
        have more : packets.isEmpty = false := by
          cases packets with
          | nil => cases lengths
          | cons packet packets => rfl
        rw [List.map_append, firsts]
        simp [more, List.replicate_succ, ← List.replicate_succ']
    · simp [lasts, ← List.replicate_succ']

theorem Begun.carries (begun : Begun packets data) (piece : List UInt8) :
    CarriesData true (packets ++ [packetFlags packets.isEmpty true :: piece]) (data ++ piece) := by
  obtain ⟨parts, decoded, whole, firsts, lasts⟩ := begun.parts
  have lengths : packets.length = parts.length := by simpa using congrArg List.length decoded
  refine ⟨parts ++ [⟨packets.isEmpty, true, piece⟩], parts.length, ?_, ?_, ?_, ?_⟩
  · simp [decoded, packetizerDecode_flags]
  · simp [whole]
  · rw [List.map_append, firsts]
    cases parts with
    | nil =>
      obtain rfl : packets = [] := List.eq_nil_of_length_eq_zero lengths
      rfl
    | cons part parts =>
      have more : packets.isEmpty = false := by
        cases packets with
        | nil => cases lengths
        | cons packet packets => rfl
      simp [more, List.replicate_succ, ← List.replicate_succ']
  · simp [lasts]

end Packets

section Start

variable {Key : Type} {cfg : Config} {device : Device Key} {history : History (Device Key) Event}

theorem startSucceeded_append {first second : List Event} (before : startSucceeded first = false)
    (after : startSucceeded second = false) : startSucceeded (first ++ second) = false := by
  rw [startSucceeded, List.any_append, ← startSucceeded, ← startSucceeded, before, after]
  rfl

theorem OtherOp.silent (op : OtherOp Key) (formed : device.Formed cfg) :
    startSucceeded (device.step cfg op.val).2 = false := by
  have call := Device.step_call cfg device op.val formed
  rw [startSucceeded, List.any_eq_false]
  intro event member created
  cases event with
  | headerCreated header overwritten =>
    have reported := Event.party_of_reportedBy (call.parties _ member)
    have isStart : op.val.party = .start := by simpa [Event.party, eq_comm] using reported
    have other := op.property
    rw [isStart] at other
    cases other
  | _ => cases created

structure InStart (cfg : Config) (stage : StartStep) (history : History (Device Key) Event) : Prop where
  formed : history.state.Formed cfg
  unsuccessful : startSucceeded history.log = false
  stands : history.state.starting = none ∨
    history.state.starting = some stage ∧ history.state.uplink.sessionActive = true

theorem InStart.others {stage : StartStep} (inside : InStart cfg stage history) (ops : List (OtherOp Key)) :
    InStart cfg stage (History.run (Device.step cfg) history (ops.map (·.val))) := by
  induction ops generalizing history with
  | nil => exact inside
  | cons op rest ih =>
    have kept := (Device.step_call cfg history.state op.val inside.formed).session_kept op.property
    apply ih
    constructor
    next => exact (Device.step_traced cfg).formed _ _ inside.formed
    next => exact startSucceeded_append inside.unsuccessful (op.silent inside.formed)
    next =>
      simp only [History.record, kept.starting, kept.active]
      exact inside.stands

theorem InStart.activate (formed : history.state.Formed cfg) (unsuccessful : startSucceeded history.log = false)
    (idle : history.state.starting = none) :
    InStart cfg .session (history.record (Device.step cfg) .startActivate) := by
  refine ⟨(Device.step_traced cfg).formed _ _ formed, ?_, ?_⟩
  · refine startSucceeded_append unsuccessful ?_
    simp only [Device.step, startActivate]
    split_ifs <;> rfl
  · simp only [History.record, Device.step, startActivate]
    split_ifs with busy
    · exact .inl idle
    · exact .inr ⟨rfl, rfl⟩

theorem InStart.session (inside : InStart cfg .session history) (call : SessionCall Key) :
    InStart cfg .pouch (history.record (Device.step cfg) (.startSession call)) := by
  refine ⟨(Device.step_traced cfg).formed _ _ inside.formed, startSucceeded_append inside.unsuccessful ?_, ?_⟩
  · simp only [Device.step, startSession]
    split_ifs
    · generalize history.state.crypto.sessionStart cfg call = result
      obtain ⟨_ | _, crypto⟩ := result <;> rfl
    · rfl
  · simp only [History.record, Device.step, startSession]
    rcases inside.stands with failed | ⟨stage, active⟩
    · simp [failed]
    · simp only [stage, if_true]
      generalize history.state.crypto.sessionStart cfg call = result
      obtain ⟨_ | _, crypto⟩ := result
      · exact .inr ⟨rfl, active⟩
      · exact .inl rfl

theorem InStart.pouch (inside : InStart cfg .pouch history) :
    InStart cfg .header (history.record (Device.step cfg) .startPouch) := by
  refine ⟨(Device.step_traced cfg).formed _ _ inside.formed, startSucceeded_append inside.unsuccessful ?_, ?_⟩
  · simp only [Device.step, startPouch]
    split_ifs
    · generalize history.state.crypto.pouchStart = result
      obtain ⟨_ | _, crypto⟩ := result <;> rfl
    · rfl
  · simp only [History.record, Device.step, startPouch]
    rcases inside.stands with failed | ⟨stage, active⟩
    · simp [failed]
    · simp only [stage, if_true]
      generalize history.state.crypto.pouchStart = result
      obtain ⟨_ | _, crypto⟩ := result
      · exact .inr ⟨rfl, active⟩
      · exact .inl rfl

theorem InStart.header (inside : InStart cfg .header history) (call : HeaderCall) :
    let ended := history.record (Device.step cfg) (.startHeader call)
    ended.state.starting = none ∧
      (startSucceeded ended.log = true → ended.state.uplink.sessionActive = true) := by
  have unsuccessful := inside.unsuccessful
  simp only [History.record, Device.step, startHeader]
  rcases inside.stands with failed | ⟨stage, active⟩
  · simp [failed, unsuccessful]
  · simp only [stage, if_true]
    generalize pouchHeaderCreate call history.state.crypto history.state.pool = result
    obtain ⟨_ | header, pool⟩ := result
    · refine ⟨rfl, fun succeeded => ?_⟩
      rw [startSucceeded_append unsuccessful rfl] at succeeded
      cases succeeded
    · exact ⟨rfl, fun _ => active⟩

theorem start_ends (read : PeerRead Key) (formed : device.Formed cfg) (idle : device.starting = none) :
    let ended := History.run (Device.step cfg) ⟨device, []⟩ read.start
    ended.state.starting = none ∧
      (startSucceeded ended.log = true → ended.state.uplink.sessionActive = true) := by
  have activated : InStart cfg .session (History.record (Device.step cfg) ⟨device, []⟩ .startActivate) :=
    .activate formed rfl idle
  have inside := (((activated.others (read.meanwhile .session)).session read.session).others
    (read.meanwhile .pouch)).pouch.others (read.meanwhile .header)
  have ended := inside.header read.header
  simpa only [PeerRead.start, List.append_assoc, List.cons_append, History.run_cons, History.run_append,
    History.run_nil] using ended

theorem OtherOp.outside (op : OtherOp Key) : op.val.party ≠ .read ∧ op.val.party ≠ .finish := by
  have property := op.property
  constructor <;> intro isTransport <;> simp [isTransport, Party.emits] at property

theorem PeerRead.start_outside (read : PeerRead Key) :
    ∀ op ∈ read.start, op.party ≠ .read ∧ op.party ≠ .finish := by
  simp only [PeerRead.start, List.cons_append, List.append_assoc, List.mem_cons, List.mem_append, List.mem_map,
    List.not_mem_nil, or_false]
  rintro op (rfl | ⟨made, _, rfl⟩ | rfl | ⟨made, _, rfl⟩ | rfl | ⟨made, _, rfl⟩ | rfl)
  next => simp [DeviceOp.party]
  next => exact made.outside
  next => simp [DeviceOp.party]
  next => exact made.outside
  next => simp [DeviceOp.party]
  next => exact made.outside
  next => simp [DeviceOp.party]

structure Refused (cfg : Config) (history : History (Device Key) Event) : Prop where
  formed : history.state.Formed cfg
  idle : history.state.starting = none
  active : history.state.uplink.sessionActive = true
  unsuccessful : startSucceeded history.log = false

theorem Refused.step (refused : Refused cfg history) (op : DeviceOp Key)
    (outside : op.party ≠ .read ∧ op.party ≠ .finish) : Refused cfg (history.record (Device.step cfg) op) := by
  cases isOther : op.party.emits with
  | false =>
    let other : OtherOp Key := ⟨op, isOther⟩
    have kept := (Device.step_call cfg history.state op refused.formed).session_kept isOther
    constructor
    next => exact (Device.step_traced cfg).formed _ _ refused.formed
    next => exact kept.starting.trans refused.idle
    next => exact kept.active.trans refused.active
    next => exact startSucceeded_append refused.unsuccessful (other.silent refused.formed)
  | true =>
    have nothing : history.state.step cfg op = (history.state, []) := by
      cases op with
      | startActivate => simp [Device.step, startActivate, refused.active]
      | startSession call => simp [Device.step, startSession, refused.idle]
      | startPouch => simp [Device.step, startPouch, refused.idle]
      | startHeader call => simp [Device.step, startHeader, refused.idle]
      | fill maxlen => exact absurd rfl outside.1
      | finish => exact absurd rfl outside.2
      | _ => cases isOther
    simpa [History.record, nothing] using refused

theorem Refused.run (refused : Refused cfg history) (ops : List (DeviceOp Key))
    (outside : ∀ op ∈ ops, op.party ≠ .read ∧ op.party ≠ .finish) :
    Refused cfg (History.run (Device.step cfg) history ops) := by
  induction ops generalizing history with
  | nil => exact refused
  | cons op rest ih =>
    simp only [List.mem_cons, forall_eq_or_imp] at outside
    exact ih (refused.step op outside.1) outside.2

end Start

section Packet

variable {Key : Type} {cfg : Config} {packetizer : Packetizer (PouchArg Key)} {len : Nat}

def Serving (cfg : Config) (packetizer : Packetizer (PouchArg Key)) (fresh : Bool) : Prop :=
  ∃ pouch error, packetizer = ⟨.callback (PouchArg.fillCb cfg) pouch, fresh, error⟩ ∧ pouch.isNull = false ∧
    pouch.faulted = false

variable {fresh : Bool}

theorem Serving.short (serving : Serving cfg packetizer fresh) (device : Device Key) (short : len ≤ 1) :
    portPacket packetizer len device = (⟨device, none, false⟩, [.attError]) := by
  obtain ⟨pouch, error, rfl, _, healthy⟩ := serving
  simp [portPacket, Packetizer.meeting, packetizerGet, short, PacketSource.userArg?, healthy]

theorem Serving.error (serving : Serving cfg packetizer fresh) (device : Device Key) (long : ¬ len ≤ 1)
    (fails : (pouchUplinkFill cfg (len - 1) device).1 = .error) :
    let read := (pouchUplinkFill cfg (len - 1) device).2
    let finished := pouchUplinkFinish read.device
    portPacket packetizer len device =
      (⟨finished.1, none, false⟩, (read.events ++ finished.2).map .device ++ [.attError]) := by
  obtain ⟨pouch, error, rfl, given, healthy⟩ := serving
  simp [portPacket, Packetizer.meeting, packetizerGet, long, PacketSource.userArg?, PouchArg.fillCb, PouchArg.after,
    given, healthy, fails]

theorem Serving.last (serving : Serving cfg packetizer fresh) (device : Device Key) (long : ¬ len ≤ 1)
    (ends : (pouchUplinkFill cfg (len - 1) device).1 = .noMoreData) :
    let read := (pouchUplinkFill cfg (len - 1) device).2
    let finished := pouchUplinkFinish read.device
    portPacket packetizer len device =
      (⟨finished.1, none, false⟩,
        (read.events ++ finished.2).map .device ++ [.packet len (packetFlags fresh true :: read.output)]) := by
  obtain ⟨pouch, error, rfl, given, healthy⟩ := serving
  simp [portPacket, Packetizer.meeting, packetizerGet, long, PacketSource.userArg?, PouchArg.fillCb, PouchArg.after,
    given, healthy, ends]

theorem Serving.more (serving : Serving cfg packetizer fresh) (device : Device Key) (long : ¬ len ≤ 1)
    (goesOn : (pouchUplinkFill cfg (len - 1) device).1 = .moreData) :
    let read := (pouchUplinkFill cfg (len - 1) device).2
    ∃ next, Serving cfg next false ∧
      portPacket packetizer len device =
        (⟨read.device, some next, false⟩,
          read.events.map .device ++ [.packet len (packetFlags fresh false :: read.output)]) := by
  obtain ⟨pouch, error, rfl, given, healthy⟩ := serving
  let filled : PouchArg Key :=
    { pouch with
      device := (pouchUplinkFill cfg (len - 1) device).2.device
      events := (pouchUplinkFill cfg (len - 1) device).2.events }
  refine ⟨⟨.callback (PouchArg.fillCb cfg) filled, false, error⟩, ⟨filled, error, rfl, given, healthy⟩, ?_⟩
  by_cases empty : (pouchUplinkFill cfg (len - 1) device).2.output.length = 0
  next =>
    simp [filled, portPacket, Packetizer.meeting, packetizerGet, long, PacketSource.userArg?, PouchArg.fillCb,
      PouchArg.after, given, healthy, goesOn, empty]
  next =>
    simp [filled, portPacket, Packetizer.meeting, packetizerGet, long, PacketSource.userArg?, PouchArg.fillCb,
      PouchArg.after, given, healthy, goesOn, empty]

variable (cfg fresh) in
theorem portPacket_null (pouch : PouchArg Key) (null : pouch.isNull = true) (healthy : pouch.faulted = false)
    (error : Option PacketizerError) (device : Device Key) (len : Nat) :
    (len ≤ 1 ∧ portPacket ⟨.callback (PouchArg.fillCb cfg) pouch, fresh, error⟩ len device =
        (⟨device, none, false⟩, [.attError])) ∨
      (¬ len ≤ 1 ∧ ∃ next, portPacket ⟨.callback (PouchArg.fillCb cfg) pouch, fresh, error⟩ len device =
        (⟨device, some next, true⟩, [])) := by
  by_cases short : len ≤ 1
  next =>
    left
    simp [portPacket, Packetizer.meeting, packetizerGet, short, PacketSource.userArg?, healthy]
  next =>
    right
    refine ⟨short, ?_⟩
    simp [portPacket, Packetizer.meeting, packetizerGet, short, PacketSource.userArg?, PouchArg.fillCb, null]

end Packet

section Carrying

structure Carrying (unread : List UInt8) (log : List PortEvent) (transfers : List (List (List UInt8)))
    (rest : List (List UInt8)) (data : List UInt8) : Prop where
  packets : readPackets log = transfers.flatten ++ rest
  complete : List.Forall₂ (CarriesData true) transfers ((supplied (libraryLog log)).finished.map pouchBytes)
  begun : Begun rest data
  current : data ++ unread = pouchBytes (supplied (libraryLog log)).current
  fits : ∀ room bytes, .packet room bytes ∈ log → bytes.length ≤ room

variable {unread : List UInt8} {log : List PortEvent} {transfers : List (List (List UInt8))}
  {rest : List (List UInt8)} {data : List UInt8}

theorem Carrying.supply (carrying : Carrying unread log transfers rest data) (events : List Event)
    (unfinished : ∀ event ∈ events, event.finishes = false) :
    Carrying (unread ++ pouchBytes (events.flatMap Event.transports)) (log ++ events.map .device) transfers rest data := by
  have added := foldl_add (supplied (libraryLog log)) events unfinished
  constructor
  next => simp [carrying.packets]
  next => simpa [added] using carrying.complete
  next => exact carrying.begun
  next => simp [added, ← carrying.current]
  next => simpa using carrying.fits

theorem Carrying.more (carrying : Carrying unread log transfers rest data) (len : Nat) (piece left : List UInt8)
    (split : unread = piece ++ left) (room : piece.length + 1 ≤ len) :
    let packet := packetFlags rest.isEmpty false :: piece
    Carrying left (log ++ [.packet len packet]) transfers (rest ++ [packet]) (data ++ piece) := by
  constructor
  next => simp [carrying.packets]
  next => simpa using carrying.complete
  next => exact carrying.begun.packet piece
  next => simpa [split] using carrying.current
  next =>
    simp only [List.mem_append, List.mem_singleton, PortEvent.packet.injEq]
    rintro other bytes (earlier | ⟨rfl, rfl⟩)
    next => exact carrying.fits other bytes earlier
    next => simpa using room

theorem Carrying.attError (carrying : Carrying unread log transfers rest data) :
    Carrying unread (log ++ [.attError]) transfers rest data := by
  constructor
  next => simpa using carrying.packets
  next => simpa using carrying.complete
  next => exact carrying.begun
  next => simpa using carrying.current
  next => simpa using carrying.fits

-- The pouch is finished just before its last packet is handed out.
theorem Carrying.last (carrying : Carrying unread log transfers rest data) (finished : List Event)
    (finishes : ∀ supply, finished.foldl Supply.add supply = ⟨supply.finished ++ [supply.current], []⟩) (len : Nat)
    (room : unread.length + 1 ≤ len) :
    let packet := packetFlags rest.isEmpty true :: unread
    Carrying [] (log ++ (finished.map .device ++ [.packet len packet])) (transfers ++ [rest ++ [packet]]) [] [] := by
  have whole := carrying.begun.carries unread
  rw [carrying.current] at whole
  constructor
  next => simp [carrying.packets]
  next =>
    simp only [libraryLog_append, libraryLog_device, libraryLog_packet, List.append_nil, supplied_append, finishes,
      List.map_append]
    exact List.rel_append carrying.complete (.cons whole .nil)
  next => exact .nothing
  next => simp [finishes]
  next =>
    simp only [List.mem_append, List.mem_map, List.mem_singleton, PortEvent.packet.injEq, reduceCtorEq, and_false,
      exists_false, false_or]
    rintro other bytes (earlier | ⟨rfl, rfl⟩)
    next => exact carrying.fits other bytes earlier
    next => simpa using room

end Carrying

section Runs

variable {Key : Type} {cfg : Config} {port : UplinkPort Key} {log : List PortEvent}

def UplinkPort.Serves (cfg : Config) (port : UplinkPort Key) (rest : List (List UInt8)) : Prop :=
  match port.packetizer with
  | some packetizer => port.device.uplink.sessionActive = true ∧ Serving cfg packetizer rest.isEmpty
  | none => rest = [] ∨ port.device.uplink.sessionActive = true

structure Transferring (cfg : Config) (port : UplinkPort Key) (log : List PortEvent) : Prop where
  readable : port.device.Readable cfg
  idle : port.device.starting = none
  carrying : ∃ transfers rest data, Carrying port.device.uplink.unread log transfers rest data ∧
    (port.faulted = false → port.Serves cfg rest)

theorem fill_reported (maxlen : Nat) {device : Device Key} (readable : device.Readable cfg)
    (idle : device.starting = none) :
    let read := (pouchUplinkFill cfg maxlen device).2
    read.device.Readable cfg ∧ read.device.starting = none ∧ Silent read.events := by
  have step : device.step cfg (.fill maxlen) =
      ((pouchUplinkFill cfg maxlen device).2.device, (pouchUplinkFill cfg maxlen device).2.events) := by
    simp [Device.step, Device.inTransport, idle]
  have reads := pouchUplinkFill_reads maxlen device readable.formed idle
  have silent : Silent (pouchUplinkFill cfg maxlen device).2.events :=
    fun event member => Event.read_silent (reads.parties event member)
  refine ⟨⟨reads.formed, ?_, (fill_effect cfg maxlen device readable.uplink).readable.sized⟩,
    reads.starting.trans idle, silent⟩
  have placed := step_placed cfg device (.fill maxlen) readable.formed readable.placed
  rwa [step] at placed

theorem finish_readable {device : Device Key} (readable : device.Readable cfg) (idle : device.starting = none) :
    (pouchUplinkFinish device).1.Readable cfg := by
  have call := pouchUplinkFinish_call device readable.formed idle
  have nothing : (pouchUplinkFinish device).1.uplink.reader = none ∧
      (pouchUplinkFinish device).1.uplink.transport = [] := by
    simp only [pouchUplinkFinish]
    split_ifs <;> exact ⟨rfl, rfl⟩
  refine ⟨call.formed, ?_, ?_⟩
  · simp [Uplink.Placed, nothing.1]
  · simp [Uplink.Sized, nothing]

structure Takes (maxlen : Nat) (device : Device Key) (result : PouchResult) (read : Reading Key) : Prop where
  output : read.output = device.uplink.unread.take maxlen
  ends : result = .noMoreData → device.uplink.unread.length ≤ maxlen
  goesOn : result ≠ .noMoreData → result = .moreData ∧ read.device.uplink.sessionActive = true ∧
    read.device.uplink.unread = device.uplink.unread.drop maxlen
  closed : device.uplink.pouchClosed = true → device.uplink.unread.length < maxlen → result = .noMoreData
  stays : read.device.uplink.pouchClosed = device.uplink.pouchClosed

theorem fill_takes (maxlen : Nat) {device : Device Key} (readable : device.Readable cfg)
    (active : device.uplink.sessionActive = true) :
    Takes maxlen device (pouchUplinkFill cfg maxlen device).1 (pouchUplinkFill cfg maxlen device).2 := by
  have effect := fill_effect cfg maxlen device readable.uplink
  have offered : device.uplink.offered = device.uplink.unread := by simp [Uplink.offered, active]
  have rest := effect.rest
  rw [offered] at rest
  constructor
  next =>
    have output := effect.output
    rwa [offered] at output
  next =>
    intro ends
    rw [(effect.ended ends).2.1, eq_comm, List.drop_eq_nil_iff] at rest
    exact rest
  next =>
    intro goesOn
    obtain ⟨result, still⟩ := effect.goesOn active goesOn
    have offeredAfter : (pouchUplinkFill cfg maxlen device).2.device.uplink.offered =
        (pouchUplinkFill cfg maxlen device).2.device.uplink.unread := by simp [Uplink.offered, still]
    exact ⟨result, still, by rw [← offeredAfter, rest]⟩
  next =>
    intro closed short
    exact effect.ends active closed (by rwa [offered])
  next =>
    have same := fillLoop_readerOnly cfg (maxlen + device.uplink.transport.length) maxlen device
    simp only [pouchUplinkFill, active, if_true]
    split_ifs <;> exact same.closed

theorem Carrying.packet {transfers : List (List (List UInt8))} {rest : List (List UInt8)} {data : List UInt8}
    {device : Device Key} {packetizer : Packetizer (PouchArg Key)}
    (carrying : Carrying device.uplink.unread log transfers rest data) (readable : device.Readable cfg)
    (idle : device.starting = none) (active : device.uplink.sessionActive = true)
    (serving : Serving cfg packetizer rest.isEmpty) (len : Nat) :
    Transferring cfg (portPacket packetizer len device).1 (log ++ (portPacket packetizer len device).2) := by
  by_cases short : len ≤ 1
  next =>
    rw [serving.short device short]
    exact ⟨readable, idle, transfers, rest, data, carrying.attError, fun _ => .inr active⟩
  next =>
    have takes := fill_takes (len - 1) readable active
    obtain ⟨readableAfter, idleAfter, silent⟩ := fill_reported (len - 1) readable idle
    have last := fun ends => serving.last device short ends
    have more := fun goesOn => serving.more device short goesOn
    generalize pouchUplinkFill cfg (len - 1) device = filled at takes readableAfter idleAfter silent last more
    obtain ⟨result, read⟩ := filled
    simp only at takes readableAfter idleAfter silent last more
    -- What the read reports does not count.
    have reported := carrying.supply read.events silent.unfinished
    rw [silent.transports, pouchBytes_nil, List.append_nil] at reported
    by_cases ends : result = .noMoreData
    next =>
      have whole : read.output = device.uplink.unread := by
        rw [takes.output, List.take_of_length_le (takes.ends ends)]
      have fits := takes.ends ends
      have complete := reported.last (pouchUplinkFinish read.device).2 (finish_supply _) len (by omega)
      rw [last ends]
      refine ⟨finish_readable readableAfter idleAfter, (finish_unread _).2.trans idleAfter,
        transfers ++ [rest ++ [packetFlags rest.isEmpty true :: device.uplink.unread]], [], [], ?_,
        fun _ => .inl rfl⟩
      simp only [(finish_unread _).1, whole, List.map_append, List.append_assoc] at complete ⊢
      exact complete
    next =>
      obtain ⟨goesOn, still, left⟩ := takes.goesOn ends
      have split : device.uplink.unread = read.output ++ read.device.uplink.unread := by
        rw [takes.output, left, List.take_append_drop]
      have room : read.output.length + 1 ≤ len := by
        rw [takes.output, List.length_take]
        omega
      obtain ⟨next, serves, packet⟩ := more goesOn
      have carried := reported.more len _ _ split room
      rw [packet]
      simp only [List.append_assoc] at carried
      have notEmpty : (rest ++ [packetFlags rest.isEmpty false :: read.output]).isEmpty = false := by
        cases rest <;> rfl
      exact ⟨readableAfter, idleAfter, _, _, _, carried, fun _ => ⟨still, by rwa [notEmpty]⟩⟩

variable (cfg) in
def SizesFit (log : List PortEvent) : Prop := ∀ event ∈ libraryLog log, event.Sized cfg

instance (log : List PortEvent) : Decidable (SizesFit cfg log) :=
  inferInstanceAs (Decidable (∀ event ∈ libraryLog log, event.Sized cfg))

theorem Transferring.boot : Transferring cfg (.boot Key cfg) [] := by
  have carrying : Carrying [] [] [] [] [] := ⟨rfl, .nil, .nothing, rfl, by simp⟩
  refine ⟨⟨Device.boot_formed cfg, by simp [Uplink.Placed, UplinkPort.boot, Device.boot], ?_⟩, rfl, [], [], [], carrying, fun _ => .inl rfl⟩
  simp [UplinkPort.boot, Device.boot, Uplink.Sized]

theorem Transferring.other (transferring : Transferring cfg port log) (op : OtherOp Key)
    (sized : ∀ event ∈ (port.device.step cfg op.val).2, event.Sized cfg) :
    Transferring cfg { port with device := (port.device.step cfg op.val).1 }
      (log ++ (port.device.step cfg op.val).2.map .device) := by
  obtain ⟨readable, idle, transfers, rest, data, carrying, serves⟩ := transferring
  have supplies := readable.supplies cfg op.val op.outside sized
  have kept := (Device.step_call cfg port.device op.val readable.formed).session_kept op.property
  have grown := carrying.supply _ supplies.unfinished
  rw [← supplies.unread] at grown
  refine ⟨supplies.readable, kept.starting.trans idle, transfers, rest, data, grown, ?_⟩
  intro healthy
  have before := serves healthy
  simpa only [UplinkPort.Serves, kept.active] using before

theorem Transferring.starts (transferring : Transferring cfg port log) (free : port.packetizer = none)
    (healthy : port.faulted = false) (read : PeerRead Key)
    (sized : ∀ event ∈ (History.run (Device.step cfg) ⟨port.device, []⟩ read.start).log, event.Sized cfg) :
    let started := History.run (Device.step cfg) ⟨port.device, []⟩ read.start
    ∃ transfers rest data, Supplies cfg port.device (started.state, started.log) ∧ started.state.starting = none ∧
      Carrying started.state.uplink.unread (log ++ started.log.map .device) transfers rest data ∧
      (startSucceeded started.log = true → rest = [] ∧ started.state.uplink.sessionActive = true) ∧
      (rest = [] ∨ started.state.uplink.sessionActive = true) := by
  obtain ⟨readable, idle, transfers, rest, data, carrying, serves⟩ := transferring
  have supplies := readable.supplies_run cfg read.start read.start_outside sized
  obtain ⟨idleAfter, succeeds⟩ := start_ends read readable.formed idle
  have grown := carrying.supply _ supplies.unfinished
  rw [← supplies.unread] at grown
  have stands : rest = [] ∨ port.device.uplink.sessionActive = true := by
    have before := serves healthy
    simpa only [UplinkPort.Serves, free] using before
  have refused (active : port.device.uplink.sessionActive = true) :
      Refused cfg (History.run (Device.step cfg) ⟨port.device, []⟩ read.start) :=
    Refused.run ⟨readable.formed, idle, active, rfl⟩ read.start read.start_outside
  refine ⟨transfers, rest, data, supplies, idleAfter, grown, ?_, ?_⟩
  · intro succeeded
    refine ⟨stands.resolve_right fun active => ?_, succeeds succeeded⟩
    rw [(refused active).unsuccessful] at succeeded
    cases succeeded
  · exact stands.imp_right fun active => (refused active).active

theorem Transferring.read (transferring : Transferring cfg port log) (healthy : port.faulted = false)
    (read : PeerRead Key) (sized : SizesFit cfg (portRead cfg read port).2) :
    Transferring cfg (portRead cfg read port).1 (log ++ (portRead cfg read port).2) := by
  unfold portRead at sized ⊢
  split_ifs at sized ⊢ with inside
  · simpa using transferring
  · cases held : port.packetizer with
    | some packetizer =>
      obtain ⟨readable, idle, transfers, rest, data, carrying, serves⟩ := transferring
      have before := serves healthy
      simp only [UplinkPort.Serves, held] at before
      exact carrying.packet readable idle before.1 before.2 read.len
    | none =>
      simp only [held] at sized ⊢
      have sizedStart : ∀ event ∈ (History.run (Device.step cfg) ⟨port.device, []⟩ read.start).log,
          event.Sized cfg := by
        intro event member
        apply sized event
        cases read.malloc <;> simp [packetizerStartCallback, packetizerStart, member]
      obtain ⟨transfers, rest, data, supplies, idle, carrying, succeeds, stands⟩ :=
        transferring.starts held healthy read sizedStart
      generalize History.run (Device.step cfg) ⟨port.device, []⟩ read.start = started at supplies idle carrying succeeds stands ⊢
      cases read.malloc with
      | false => exact ⟨supplies.readable, idle, transfers, rest, data, carrying, fun healthy => by cases healthy⟩
      | true =>
        simp only [packetizerStartCallback, packetizerStart, if_true]
        rw [← List.append_assoc]
        cases succeeded : startSucceeded started.log with
        | true =>
          obtain ⟨rfl, active⟩ := succeeds succeeded
          exact carrying.packet supplies.readable idle active ⟨_, _, rfl, rfl, rfl⟩ read.len
        | false =>
          let pouch : PouchArg Key := ⟨true, started.state, [], false⟩
          rcases portPacket_null cfg true pouch rfl rfl none started.state read.len with
            ⟨_, refused⟩ | ⟨_, next, faults⟩
          · simp only [pouch] at refused
            simp only [Bool.not_false, refused]
            exact ⟨supplies.readable, idle, transfers, rest, data, carrying.attError, fun _ => stands⟩
          · simp only [pouch] at faults
            simp only [Bool.not_false, faults, List.append_nil]
            exact ⟨supplies.readable, idle, transfers, rest, data, carrying, fun healthy => by cases healthy⟩

theorem Transferring.step (transferring : Transferring cfg port log) (op : PortOp Key)
    (sized : SizesFit cfg (portStep cfg port op).2) :
    Transferring cfg (portStep cfg port op).1 (log ++ (portStep cfg port op).2) := by
  unfold portStep at sized ⊢
  split_ifs at sized ⊢ with faulted
  · simpa using transferring
  · cases op with
    | read read => exact transferring.read (by simpa using faulted) read sized
    | other op =>
      simp only [SizesFit, libraryLog_device] at sized
      exact transferring.other op sized

theorem run_transferring (ops : List (PortOp Key))
    (sized : SizesFit cfg (History.run (portStep cfg) ⟨.boot Key cfg, []⟩ ops).log) :
    let reached := History.run (portStep cfg) ⟨.boot Key cfg, []⟩ ops
    Transferring cfg reached.state reached.log := by
  have every : ∀ reported ∈ (History.run (portStep cfg) ⟨.boot Key cfg, []⟩ ops).log,
      ∀ event, reported.device? = some event → event.Sized cfg :=
    fun reported member event found => sized event (List.mem_filterMap.mpr ⟨reported, member, found⟩)
  have meets := (History.log_forall_iff (portStep cfg) _
    (fun reached op => SizesFit cfg (portStep cfg reached.state op).2) (fun _ => True) ⟨.boot Key cfg, []⟩ ops trivial
    ?_ (fun _ _ _ => trivial)).mp every
  · exact History.run_invariant (portStep cfg) _ (fun reached => Transferring cfg reached.state reached.log) _ ops
      .boot meets.2 fun reached op fits holds => holds.step op fits
  · intro reached op _
    simp only [SizesFit, libraryLog, List.mem_filterMap]
    exact ⟨fun fits event ⟨reported, member, found⟩ => fits reported member event found,
      fun fits reported member event found => fits event ⟨reported, member, found⟩⟩

/-- Whatever the reads are and whatever is done in between, each transfer carries one pouch: what was put on the
transport queue since the pouch before, in that order and to the last byte. A transfer that is not over goes on
with what there is to read, and no packet is longer than what was asked for. -/
theorem transfers_carry_pouches (ops : List (PortOp Key))
    (sized : SizesFit cfg (History.run (portStep cfg) ⟨.boot Key cfg, []⟩ ops).log) :
    let reached := History.run (portStep cfg) ⟨.boot Key cfg, []⟩ ops
    ∃ transfers rest data, readPackets reached.log = transfers.flatten ++ rest ∧
      List.Forall₂ (CarriesData true) transfers ((supplied (libraryLog reached.log)).finished.map pouchBytes) ∧
      Begun rest data ∧
      data ++ reached.state.device.uplink.unread = pouchBytes (supplied (libraryLog reached.log)).current ∧
      ∀ room bytes, .packet room bytes ∈ reached.log → bytes.length ≤ room := by
  obtain ⟨transfers, rest, data, carrying, _⟩ := (run_transferring ops sized).carrying
  exact ⟨transfers, rest, data, carrying.packets, carrying.complete, carrying.begun, carrying.current, carrying.fits⟩

end Runs

def peerRead (len : Nat) : PortOp Unit :=
  .read
    { len := len
      offset := 0
      malloc := true
      session := ⟨.none, none, ⟨fun _ _ _ => none, fun _ => none⟩⟩
      header := ⟨some fun _ => 0, true, some [0x82, 0x01]⟩
      meanwhile := fun _ => [] }

def portRun (ops : List (PortOp Unit)) : History (UplinkPort Unit) PortEvent :=
  History.run (portStep (defaultConfig .none)) ⟨.boot Unit (defaultConfig .none), []⟩ ops

def closeCalls : List (PortOp Unit) := [.other ⟨.closeCall, rfl⟩, .other ⟨.closeReturn none, rfl⟩]

def closeOps : List (PortOp Unit) := closeCalls ++ [.other ⟨workerRun, rfl⟩]

def halfReadOps : List (PortOp Unit) :=
  [peerRead 4, .other ⟨enqueuedBlock [0, 1, 0], rfl⟩, .other ⟨workerRun, rfl⟩, peerRead 4] ++ closeOps

theorem half_read_carried :
    let reached := portRun halfReadOps
    readPackets reached.log = [[0x01], [0x00, 0x82, 0x01, 0x00]] ∧
      ∃ transfers rest data, readPackets reached.log = transfers.flatten ++ rest ∧
        List.Forall₂ (CarriesData true) transfers ((supplied (libraryLog reached.log)).finished.map pouchBytes) ∧
        Begun rest data ∧
        data ++ reached.state.device.uplink.unread = pouchBytes (supplied (libraryLog reached.log)).current ∧
        ∀ room bytes, .packet room bytes ∈ reached.log → bytes.length ≤ room :=
  ⟨by decide +kernel, transfers_carry_pouches halfReadOps (by decide +kernel)⟩

section End

variable {Key : Type} {cfg : Config} {port : UplinkPort Key} {log : List PortEvent}

def PortOp.isUsable : PortOp Key → Bool
  | .read call => call.offset = 0 && 1 < call.len
  | .other _ => false

def PortOp.isShort : PortOp Key → Bool
  | .read call => call.offset = 0 && call.len ≤ 1
  | .other _ => false

theorem foldl_finished (supply : Supply) (events : List Event) :
    ∃ later, (events.foldl Supply.add supply).finished = supply.finished ++ later := by
  induction events generalizing supply with
  | nil => exact ⟨[], by simp⟩
  | cons event rest ih =>
    obtain ⟨later, grown⟩ := ih (supply.add event)
    rw [List.foldl_cons, grown]
    cases finishes : event.finishes with
    | true => exact ⟨supply.current :: later, by simp [Supply.add, finishes]⟩
    | false => exact ⟨later, by simp [Supply.add, finishes]⟩

theorem SizesFit.of_append {first second : List PortEvent} (fits : SizesFit cfg (first ++ second)) :
    SizesFit cfg first ∧ SizesFit cfg second := by
  simp only [SizesFit, libraryLog_append, List.mem_append, or_imp, forall_and] at fits
  exact fits

inductive ClosedStep (port : UplinkPort Key) (usable : Bool) (next : UplinkPort Key) (events : List PortEvent) : Prop
  | ends (finished : ∀ supply,
      (libraryLog events).foldl Supply.add supply = ⟨supply.finished ++ [supply.current], []⟩)
  | goesOn (silent : ∀ supply, (libraryLog events).foldl Supply.add supply = supply)
      (healthy : next.faulted = false) (serving : next.packetizer.isSome = true)
      (closed : next.device.uplink.pouchClosed = true)
      (less : next.device.uplink.unread.length + usable.toNat ≤ port.device.uplink.unread.length)

theorem Transferring.closed_packet (transferring : Transferring cfg port log)
    {packetizer : Packetizer (PouchArg Key)} {fresh : Bool} (active : port.device.uplink.sessionActive = true)
    (closed : port.device.uplink.pouchClosed = true) (serving : Serving cfg packetizer fresh) (len : Nat)
    (long : ¬ len ≤ 1) :
    ClosedStep port true (portPacket packetizer len port.device).1 (portPacket packetizer len port.device).2 := by
  have takes := fill_takes (len - 1) transferring.readable active
  obtain ⟨_, _, silent⟩ := fill_reported (len - 1) transferring.readable transferring.idle
  have read : ∀ supply : Supply,
      (pouchUplinkFill cfg (len - 1) port.device).2.events.foldl Supply.add supply = supply := by
    intro supply
    rw [foldl_add supply _ silent.unfinished, silent.transports, List.append_nil]
  by_cases ends : (pouchUplinkFill cfg (len - 1) port.device).1 = .noMoreData
  next =>
    rw [serving.last port.device long ends]
    exact .ends fun supply => by simp [read, finish_supply]
  next =>
    obtain ⟨goesOn, _, left⟩ := takes.goesOn ends
    obtain ⟨next, _, packet⟩ := serving.more port.device long goesOn
    have more : len - 1 ≤ port.device.uplink.unread.length := by
      by_contra short
      exact ends (takes.closed closed (by omega))
    rw [packet]
    refine .goesOn (fun supply => by simp [read]) rfl rfl (takes.stays.trans closed) ?_
    rw [left, List.length_drop, Bool.toNat_true]
    omega

theorem Transferring.closed_step (transferring : Transferring cfg port log) (healthy : port.faulted = false)
    (serving : port.packetizer.isSome = true) (closed : port.device.uplink.pouchClosed = true) (op : PortOp Key)
    (sized : SizesFit cfg (portStep cfg port op).2) (noShort : op.isShort = false) :
    ClosedStep port op.isUsable (portStep cfg port op).1 (portStep cfg port op).2 := by
  obtain ⟨packetizer, held⟩ := Option.isSome_iff_exists.mp serving
  cases op with
  | read read =>
    by_cases inside : read.offset = 0
    next =>
      have long : ¬ read.len ≤ 1 := by simpa [PortOp.isShort, inside] using noShort
      have usable : (PortOp.read read).isUsable = true := by
        simp only [PortOp.isUsable, inside, decide_true, Bool.true_and, decide_eq_true_eq]
        omega
      obtain ⟨_, rest, _, _, serves⟩ := transferring.carrying
      have stands := serves healthy
      simp only [UplinkPort.Serves, held] at stands
      have packet := transferring.closed_packet stands.1 closed stands.2 read.len long
      simpa [portStep, healthy, portRead, inside, held, usable] using packet
    next =>
      have unusable : (PortOp.read read).isUsable = false := by simp [PortOp.isUsable, inside]
      have nothing : portStep cfg port (.read read) = (port, []) := by simp [portStep, portRead, inside]
      rw [nothing, unusable]
      exact .goesOn (fun supply => rfl) healthy serving closed (Nat.le_refl _)
  | other op =>
    simp only [portStep, healthy, Bool.false_eq_true, if_false] at sized ⊢
    simp only [SizesFit, libraryLog_device] at sized
    have call := Device.step_call cfg port.device op.val transferring.readable.formed
    have kept := call.session_kept op.property
    have supplies := transferring.readable.supplies cfg op.val op.outside sized
    obtain ⟨still, nothing⟩ := kept.closed closed
    refine .goesOn ?_ rfl serving still ?_
    · intro supply
      rw [libraryLog_device, foldl_add supply _ supplies.unfinished, nothing, List.append_nil]
    · simp [supplies.unread, nothing, PortOp.isUsable]

theorem Transferring.ends (transferring : Transferring cfg port log) (healthy : port.faulted = false)
    (serving : port.packetizer.isSome = true) (closed : port.device.uplink.pouchClosed = true)
    (ops : List (PortOp Key)) (sized : SizesFit cfg (History.run (portStep cfg) ⟨port, log⟩ ops).log)
    (noShort : ∀ op ∈ ops, op.isShort = false)
    (enough : port.device.uplink.unread.length < ops.countP PortOp.isUsable) :
    ∃ later, (supplied (libraryLog (History.run (portStep cfg) ⟨port, log⟩ ops).log)).finished =
      (supplied (libraryLog log)).finished ++ (supplied (libraryLog log)).current :: later := by
  induction ops generalizing port log with
  | nil => exact absurd enough (Nat.not_lt_zero _)
  | cons op rest ih =>
    simp only [List.mem_cons, forall_eq_or_imp] at noShort
    rw [List.countP_cons] at enough
    rw [History.run_cons] at sized ⊢
    obtain ⟨after, whole⟩ := History.log_prefix (portStep cfg) (History.record (portStep cfg) ⟨port, log⟩ op) rest
    have sizedStep : SizesFit cfg (portStep cfg port op).2 :=
      (SizesFit.of_append (SizesFit.of_append (whole ▸ sized)).1).2
    cases transferring.closed_step healthy serving closed op sizedStep noShort.1 with
    | ends finished =>
      obtain ⟨later, grown⟩ := foldl_finished ((libraryLog (portStep cfg port op).2).foldl Supply.add
        (supplied (libraryLog log))) (libraryLog after)
      refine ⟨later, ?_⟩
      rw [← whole]
      simp only [History.record, libraryLog_append, supplied_append, grown]
      simp [finished]
    | goesOn silent healthyNext servingNext closedNext less =>
      have same : supplied (libraryLog (History.record (portStep cfg) ⟨port, log⟩ op).log) =
          supplied (libraryLog log) := by
        simp only [History.record, libraryLog_append, supplied_append, silent]
      rw [← same]
      apply ih (transferring.step op sizedStep) healthyNext servingNext closedNext sized noShort.2
      cases usable : op.isUsable <;> simp [usable] at enough less ⊢ <;> omega

/-- Once a pouch is closed while it is read, its transfer comes to an end: with more reads than there are bytes left
the peer has the whole of the pouch, whatever is done in between. -/
theorem closed_pouch_reaches_peer (ops more : List (PortOp Key))
    (sized : SizesFit cfg (History.run (portStep cfg) ⟨.boot Key cfg, []⟩ (ops ++ more)).log)
    (healthy : (History.run (portStep cfg) ⟨.boot Key cfg, []⟩ ops).state.faulted = false)
    (reading : (History.run (portStep cfg) ⟨.boot Key cfg, []⟩ ops).state.packetizer.isSome = true)
    (closed : (History.run (portStep cfg) ⟨.boot Key cfg, []⟩ ops).state.device.uplink.pouchClosed = true)
    (noShort : ∀ op ∈ more, op.isShort = false)
    (enough : (History.run (portStep cfg) ⟨.boot Key cfg, []⟩ ops).state.device.uplink.unread.length <
      more.countP PortOp.isUsable) :
    let before := supplied (libraryLog (History.run (portStep cfg) ⟨.boot Key cfg, []⟩ ops).log)
    ∃ transfers rest later,
      readPackets (History.run (portStep cfg) ⟨.boot Key cfg, []⟩ (ops ++ more)).log = transfers.flatten ++ rest ∧
      List.Forall₂ (CarriesData true) transfers ((before.finished ++ before.current :: later).map pouchBytes) := by
  obtain ⟨transfers, rest, _, carrying, _⟩ := (run_transferring (ops ++ more) sized).carrying
  rw [History.run_append] at sized carrying ⊢
  obtain ⟨after, whole⟩ := History.log_prefix (portStep cfg)
    (History.run (portStep cfg) ⟨.boot Key cfg, []⟩ ops) more
  have transferring := run_transferring ops (SizesFit.of_append (whole ▸ sized)).1
  obtain ⟨later, finished⟩ := transferring.ends healthy reading closed more sized noShort enough
  refine ⟨transfers, rest, later, carrying.packets, ?_⟩
  rw [← finished]
  exact carrying.complete

theorem half_read_reaches_peer :
    let before := supplied (libraryLog (portRun halfReadOps).log)
    let reached := portRun (halfReadOps ++ [peerRead 2, peerRead 2, peerRead 2])
    ∃ transfers rest later, readPackets reached.log = transfers.flatten ++ rest ∧
      List.Forall₂ (CarriesData true) transfers ((before.finished ++ before.current :: later).map pouchBytes) :=
  closed_pouch_reaches_peer halfReadOps [peerRead 2, peerRead 2, peerRead 2] (by decide +kernel) (by decide +kernel)
    (by decide +kernel) (by decide +kernel) (by decide) (by decide +kernel)

end End

end Pouch
