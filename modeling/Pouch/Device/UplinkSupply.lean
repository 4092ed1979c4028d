import Pouch.Device.EventQueue
import Pouch.Device.PouchHeaders
import Pouch.Device.UplinkReads

set_option autoImplicit false

/-!
# What there is to read

The worker puts the packets of a pouch behind what the transport has not read yet. No other party changes what is
to be read, until the pouch is finished.
-/

namespace Pouch

open ByteMemory

def pouchBytes (packets : List Outgoing) : List UInt8 := packets.flatMap Outgoing.bytes

@[simp] theorem pouchBytes_nil : pouchBytes [] = [] := rfl

@[simp] theorem pouchBytes_append (first second : List Outgoing) :
    pouchBytes (first ++ second) = pouchBytes first ++ pouchBytes second :=
  List.flatMap_append

def Event.finishes : Event → Bool
  | .finished _ _ _ => true
  | _ => false

/-- The pouches that are finished, and what there is of the next one: everything that was put on the transport
queue in between. -/
structure Supply where
  finished : List (List Outgoing)
  current : List Outgoing

def Supply.add (supply : Supply) (event : Event) : Supply :=
  if event.finishes then
    ⟨supply.finished ++ [supply.current], []⟩
  else
    { supply with current := supply.current ++ event.transports }

def supplied (log : List Event) : Supply := log.foldl Supply.add ⟨[], []⟩

@[simp] theorem supplied_append (log events : List Event) :
    supplied (log ++ events) = events.foldl Supply.add (supplied log) :=
  List.foldl_append

theorem foldl_add (supply : Supply) (events : List Event) (unfinished : ∀ event ∈ events, event.finishes = false) :
    events.foldl Supply.add supply = { supply with current := supply.current ++ events.flatMap Event.transports } := by
  induction events generalizing supply with
  | nil => simp
  | cons event rest ih =>
    simp only [List.mem_cons, forall_eq_or_imp] at unfinished
    rw [List.foldl_cons, ih _ unfinished.2]
    simp [Supply.add, unfinished.1]

theorem supplied_transports (log : List Event) :
    log.flatMap Event.transports = ((supplied log).finished ++ [(supplied log).current]).flatten := by
  induction log using List.reverseRecOn with
  | nil => rfl
  | append_singleton log event ih =>
    rw [List.flatMap_append, ih, supplied_append, List.foldl_cons, List.foldl_nil, Supply.add]
    split_ifs with finishes
    · have nothing : event.transports = [] := by
        cases event with
        | finished => rfl
        | _ => cases finishes
      simp [nothing]
    · simp

def Silent (events : List Event) : Prop := ∀ event ∈ events, event.transports = [] ∧ event.finishes = false

theorem Silent.transports {events : List Event} (silent : Silent events) : events.flatMap Event.transports = [] :=
  List.flatMap_eq_nil_iff.mpr fun event member => (silent event member).1

theorem Silent.unfinished {events : List Event} (silent : Silent events) : ∀ event ∈ events, event.finishes = false :=
  fun event member => (silent event member).2

theorem Silent.supplied {events : List Event} (silent : Silent events) (log : List Event) :
    supplied (log ++ events) = supplied log := by
  rw [supplied_append, foldl_add _ events silent.unfinished, silent.transports, List.append_nil]

theorem finish_supply {Key : Type} (device : Device Key) (supply : Supply) :
    (pouchUplinkFinish device).2.foldl Supply.add supply = ⟨supply.finished ++ [supply.current], []⟩ := by
  simp only [pouchUplinkFinish]
  split_ifs <;> simp [Supply.add, Event.finishes, Event.transports]

theorem finish_unread {Key : Type} (device : Device Key) :
    (pouchUplinkFinish device).1.uplink.unread = [] ∧ (pouchUplinkFinish device).1.starting = device.starting := by
  simp only [pouchUplinkFinish]
  split_ifs <;> exact ⟨rfl, rfl⟩

theorem finish_inactive {Key : Type} (device : Device Key) :
    (pouchUplinkFinish device).1.uplink.sessionActive = false := by
  simp only [pouchUplinkFinish]
  split_ifs <;> rfl

theorem Event.read_silent {event : Event} (reported : event.reportedBy .read = true) :
    event.transports = [] ∧ event.finishes = false := by
  cases event <;> first | exact ⟨rfl, rfl⟩ | simp [Event.reportedBy, Event.party] at reported

def Event.Sized (cfg : Config) (event : Event) : Prop :=
  ∀ packet ∈ event.transports, packet.buf.data.bytes < cfg.sizeRange

instance (cfg : Config) (event : Event) : Decidable (event.Sized cfg) :=
  inferInstanceAs (Decidable (∀ packet ∈ event.transports, packet.buf.data.bytes < cfg.sizeRange))

def Uplink.Sized (cfg : Config) (uplink : Uplink) : Prop :=
  ∀ packet ∈ uplink.reader.toList ++ uplink.transport, packet.buf.data.bytes < cfg.sizeRange

section Steps

variable {Key : Type} {cfg : Config} {device next : Device Key} {event : Event}

theorem SmallStep.unread_grows (small : SmallStep device event next) (read : event.party ≠ .read)
    (finish : event.party ≠ .finish) :
    next.uplink.unread = device.uplink.unread ++ pouchBytes event.transports := by
  cases small with
  | taken | copied | released | sessionEnded | noMoreData => exact absurd rfl read
  | finished => exact absurd rfl finish
  | processed block sent rest crypto pool active opened queue exchange build plain =>
    simp [Uplink.unread, Uplink.remainder, pouchBytes, Event.transports]
  | downlink _ pool crypto downlink on build => simp [Event.transports_downlink on, pouchBytes]
  | _ =>
    simp [pouchBytes, Event.transports, Uplink.unread, Uplink.remainder, uplinkEnqueue, Device.putStream, startFail]

theorem SmallStep.sized (small : SmallStep device event next) (sized : device.uplink.Sized cfg)
    (ofEvent : event.Sized cfg) : next.uplink.Sized cfg := by
  cases small with
  | processed block sent rest crypto pool active opened queue exchange build plain =>
    intro packet member
    rw [List.append_assoc, ← List.append_assoc, List.mem_append] at member
    rcases member with before | new
    · exact sized packet before
    · exact ofEvent packet new
  | taken packet rest queue free =>
    intro other member
    apply sized other
    simpa [queue, free] using member
  | released packet held =>
    intro other member
    exact sized other (List.mem_append_right _ (by simpa using member))
  | finished => simp [Uplink.Sized]
  | _ => exact sized

structure KeepsSession (device next : Device Key) (transports : List Outgoing) : Prop where
  active : next.uplink.sessionActive = device.uplink.sessionActive
  starting : next.starting = device.starting
  closed : device.uplink.pouchClosed = true → next.uplink.pouchClosed = true ∧ transports = []

theorem SmallStep.session_kept (small : SmallStep device event next) (other : event.party.emits = false) :
    KeepsSession device next event.transports := by
  cases small with
  | taken | copied | released | sessionEnded | noMoreData => cases other
  | finished => cases other
  | activated | sessionStarted | pouchStarted | startFailed | headerFailed | headerCreated => cases other
  | processed block sent rest crypto pool active opened queue exchange build plain =>
    exact ⟨rfl, rfl, fun closed => by simp [opened] at closed⟩
  | closed => exact ⟨rfl, rfl, fun _ => ⟨rfl, rfl⟩⟩
  | downlink _ pool crypto downlink on build => exact ⟨rfl, rfl, fun closed => ⟨closed, Event.transports_downlink on⟩⟩
  | _ => exact ⟨rfl, rfl, fun closed => ⟨closed, rfl⟩⟩

end Steps

section Calls

variable {Key : Type} {cfg : Config} {party : Party} {device : Device Key} {result : Device Key × List Event}

theorem KeepsSession.refl (device : Device Key) : KeepsSession device device [] :=
  ⟨rfl, rfl, fun closed => ⟨closed, rfl⟩⟩

theorem KeepsSession.trans {first second third : Device Key} {transports more : List Outgoing}
    (left : KeepsSession first second transports) (right : KeepsSession second third more) :
    KeepsSession first third (transports ++ more) := by
  constructor
  next => exact right.active.trans left.active
  next => exact right.starting.trans left.starting
  next =>
    intro closed
    obtain ⟨still, nothing⟩ := left.closed closed
    obtain ⟨after, nothingMore⟩ := right.closed still
    exact ⟨after, by rw [nothing, nothingMore, List.append_nil]⟩

theorem Event.finishes_eq (event : Event) : event.finishes = true ↔ event.party = .finish := by
  cases event <;> simp [Event.finishes, Event.party]

theorem CallTrace.unfinished (call : CallTrace cfg party device result) (read : party ≠ .read)
    (finish : party ≠ .finish) : ∀ event ∈ result.2, event.finishes = false := by
  intro event member
  have outside := call.outsideReading read finish event member
  rw [← Bool.not_eq_true, event.finishes_eq]
  exact outside.2

theorem CallTrace.unread_grows (call : CallTrace cfg party device result) (read : party ≠ .read)
    (finish : party ≠ .finish) :
    result.1.uplink.unread = device.uplink.unread ++ pouchBytes (result.2.flatMap Event.transports) := by
  have grows := call.trace.invariant
    (fun reached log => reached.uplink.unread = device.uplink.unread ++ pouchBytes (log.flatMap Event.transports))
    (fun event => event.party ≠ .read ∧ event.party ≠ .finish) ?_ (call.outsideReading read finish) [] (by simp)
  · simpa using grows
  · intro before event after log small outside holds
    rw [small.unread_grows outside.1 outside.2, holds]
    simp

theorem CallTrace.sized (call : CallTrace cfg party device result) (sized : device.uplink.Sized cfg)
    (ofEvents : ∀ event ∈ result.2, event.Sized cfg) : result.1.uplink.Sized cfg :=
  call.trace.invariant (fun reached _ => reached.uplink.Sized cfg) (fun event => event.Sized cfg)
    (fun _ _ _ _ small ofEvent holds => small.sized holds ofEvent) ofEvents [] sized

theorem CallTrace.session_kept (call : CallTrace cfg party device result) (other : party.emits = false) :
    KeepsSession device result.1 (result.2.flatMap Event.transports) := by
  have outside : ∀ event ∈ result.2, event.party.emits = false := by
    intro event member
    rcases Event.party_of_reportedBy (call.parties event member) with same | ⟨_, rfl⟩ | ⟨⟨block, rfl⟩, _⟩
    · rw [same, other]
    · cases other
    · rfl
  have kept := call.trace.invariant (fun reached log => KeepsSession device reached (log.flatMap Event.transports))
    (fun event => event.party.emits = false) ?_ outside [] (.refl device)
  · simpa using kept
  · intro before event after log small isOther holds
    simpa using holds.trans (small.session_kept isOther)

end Calls

section Transport

variable {Key : Type} (cfg : Config) {device : Device Key}

structure Device.Readable (device : Device Key) : Prop where
  formed : device.Formed cfg
  placed : device.uplink.Placed cfg
  sized : device.uplink.Sized cfg

theorem Device.Readable.uplink (readable : device.Readable cfg) : device.uplink.Readable cfg :=
  ⟨readable.sized, fun packet held => readable.placed packet held (readable.sized packet (by simp [held]))⟩

theorem Device.Readable.step (readable : device.Readable cfg) (op : DeviceOp Key)
    (ofEvents : ∀ event ∈ (device.step cfg op).2, event.Sized cfg) : (device.step cfg op).1.Readable cfg := by
  have call := Device.step_call cfg device op readable.formed
  exact ⟨call.formed, step_placed cfg device op readable.formed readable.placed, call.sized readable.sized ofEvents⟩

structure Supplies (device : Device Key) (result : Device Key × List Event) : Prop where
  readable : result.1.Readable cfg
  unread : result.1.uplink.unread = device.uplink.unread ++ pouchBytes (result.2.flatMap Event.transports)
  unfinished : ∀ event ∈ result.2, event.finishes = false

theorem Device.Readable.supplies (readable : device.Readable cfg) (op : DeviceOp Key)
    (outside : op.party ≠ .read ∧ op.party ≠ .finish) (ofEvents : ∀ event ∈ (device.step cfg op).2, event.Sized cfg) :
    Supplies cfg device (device.step cfg op) := by
  have call := Device.step_call cfg device op readable.formed
  exact ⟨readable.step cfg op ofEvents, call.unread_grows outside.1 outside.2, call.unfinished outside.1 outside.2⟩

theorem Device.Readable.supplies_run (readable : device.Readable cfg) (ops : List (DeviceOp Key))
    (outside : ∀ op ∈ ops, op.party ≠ .read ∧ op.party ≠ .finish)
    (ofEvents : ∀ event ∈ (History.run (Device.step cfg) ⟨device, []⟩ ops).log, event.Sized cfg) :
    let ended := History.run (Device.step cfg) ⟨device, []⟩ ops
    Supplies cfg device (ended.state, ended.log) := by
  induction ops generalizing device with
  | nil => exact ⟨readable, by simp, by simp⟩
  | cons op rest ih =>
    simp only [List.mem_cons, forall_eq_or_imp] at outside
    rw [History.run_cons, History.record, History.run_log] at ofEvents ⊢
    simp only [List.nil_append, List.mem_append, or_imp, forall_and] at ofEvents
    have first := readable.supplies cfg op outside.1 ofEvents.1
    have later := ih first.readable outside.2 ofEvents.2
    constructor
    next => exact later.readable
    next =>
      have grown := later.unread
      simp only at grown
      simp only [grown, first.unread, List.nil_append, List.flatMap_append, pouchBytes_append, List.append_assoc]
    next =>
      simp only [List.nil_append, List.mem_append]
      rintro event (member | member)
      next => exact first.unfinished event member
      next => exact later.unfinished event member

end Transport

end Pouch
