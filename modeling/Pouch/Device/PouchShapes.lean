import Pouch.Device.UplinkSupply

set_option autoImplicit false

/-!
# What the pouches are made of

From the end of one pouch to the end of the next, the transport queue is given a header and the blocks of one
session, as long as `pouch_uplink_start` finds no packets of an older one.
-/

namespace Pouch

def Event.created? : Event → Option Buf
  | .headerCreated header _ => some header
  | _ => none

def createdHeaders (log : List Event) : List Buf := log.filterMap Event.created?

@[simp] theorem createdHeaders_append (first second : List Event) :
    createdHeaders (first ++ second) = createdHeaders first ++ createdHeaders second :=
  List.filterMap_append

def IsPouch (log : List Event) (packets : List Outgoing) : Prop :=
  packets = [] ∨ ∃ header blocks, packets = .header header :: blocks ∧ header ∈ createdHeaders log ∧ blocks ≠ [] ∧
    ∀ packet ∈ blocks, packet.sent?.isSome = true

theorem IsPouch.later {log : List Event} {packets : List Outgoing} (pouch : IsPouch log packets)
    (events : List Event) : IsPouch (log ++ events) packets := by
  rcases pouch with empty | ⟨header, blocks, isPouch, created, filled, areBlocks⟩
  · exact .inl empty
  · refine .inr ⟨header, blocks, isPouch, ?_, filled, areBlocks⟩
    rw [createdHeaders_append]
    exact List.mem_append_left _ created

section Shape

variable {Key : Type} {cfg : Config} {device next : Device Key} {log events : List Event} {event : Event}

structure Shaped (device : Device Key) (log : List Event) : Prop where
  finished : ∀ packets ∈ (supplied log).finished, IsPouch log packets
  current : IsPouch log (supplied log).current
  quiet : device.starting.isSome = true ∨ device.uplink.sessionActive = false → (supplied log).current = []
  ready : device.starting = none → device.uplink.sessionActive = true → (supplied log).current = [] →
    ∃ header ∈ createdHeaders log, device.uplink.header = some header
  sent : (supplied log).current ≠ [] → device.uplink.header = none

theorem Shaped.keep (shaped : Shaped device log) (silent : Silent events)
    (starting : next.starting = device.starting)
    (active : next.uplink.sessionActive = device.uplink.sessionActive)
    (header : next.uplink.header = device.uplink.header) : Shaped next (log ++ events) := by
  constructor
  next =>
    rw [silent.supplied log]
    exact fun packets member => (shaped.finished packets member).later events
  next =>
    rw [silent.supplied log]
    exact shaped.current.later events
  next =>
    rw [silent.supplied log, starting, active]
    exact shaped.quiet
  next =>
    rw [silent.supplied log, starting, active, header, createdHeaders_append]
    intro idle isActive empty
    obtain ⟨made, created, held⟩ := shaped.ready idle isActive empty
    exact ⟨made, List.mem_append_left _ created, held⟩
  next =>
    rw [silent.supplied log, header]
    exact shaped.sent

theorem Shaped.begin (shaped : Shaped device log) (silent : Silent [event]) (empty : (supplied log).current = [])
    (ready : next.starting = none → next.uplink.sessionActive = true →
      ∃ header ∈ createdHeaders (log ++ [event]), next.uplink.header = some header) :
    Shaped next (log ++ [event]) := by
  constructor
  next =>
    rw [silent.supplied log]
    exact fun packets member => (shaped.finished packets member).later [event]
  next =>
    rw [silent.supplied log]
    exact shaped.current.later [event]
  next =>
    rw [silent.supplied log]
    exact fun _ => empty
  next => exact fun idle active _ => ready idle active
  next =>
    rw [silent.supplied log]
    exact fun filled => absurd empty filled

theorem Shaped.processed (shaped : Shaped device log) (idle : device.starting = none)
    (active : device.uplink.sessionActive = true) (block sent : Buf) (starting : Bool) (session : Nat)
    (starts : next.starting = device.starting)
    (activeNext : next.uplink.sessionActive = device.uplink.sessionActive) (taken : next.uplink.header = none) :
    Shaped next (log ++ [.processed block device.uplink.header sent starting session]) := by
  have added : supplied (log ++ [.processed block device.uplink.header sent starting session]) =
      { supplied log with
        current := (supplied log).current ++ (device.uplink.header.toList.map .header ++ [.block block sent]) } := by
    simp [Supply.add, Event.finishes, Event.transports]
  constructor
  next =>
    rw [added]
    exact fun packets member => (shaped.finished packets member).later _
  next =>
    rw [added]
    rcases shaped.current with empty | ⟨header, blocks, isPouch, created, _, areBlocks⟩
    · obtain ⟨header, created, held⟩ := shaped.ready idle active empty
      refine .inr ⟨header, [.block block sent], by simp [empty, held], ?_, by simp, by simp [Outgoing.sent?]⟩
      rw [createdHeaders_append]
      exact List.mem_append_left _ created
    · have gone := shaped.sent (by simp [isPouch])
      refine .inr ⟨header, blocks ++ [.block block sent], by simp [isPouch, gone], ?_, by simp, ?_⟩
      · rw [createdHeaders_append]
        exact List.mem_append_left _ created
      · simp only [List.mem_append, List.mem_singleton]
        rintro packet (earlier | rfl)
        · exact areBlocks packet earlier
        · rfl
  next => simp [starts, idle, activeNext, active]
  next => simp [added]
  next => exact fun _ => taken

theorem Shaped.small (shaped : Shaped device log) (small : SmallStep device event next)
    (outside : event.party ≠ .read ∧ event.party ≠ .finish) (undisturbed : event.takenDuring ≠ some true) :
    Shaped next (log ++ [event]) := by
  cases small with
  | taken | copied | released | sessionEnded | noMoreData => exact absurd rfl outside.1
  | finished => exact absurd rfl outside.2
  | processed block sent rest crypto pool active =>
    have idle : device.starting = none := by simpa [Event.takenDuring] using undisturbed
    exact shaped.processed idle active block sent _ _ rfl rfl rfl
  | activated idle inactive =>
    exact shaped.begin (by simp [Silent, Event.transports, Event.finishes]) (shaped.quiet (.inr inactive)) (by simp)
  | sessionStarted crypto inside =>
    exact shaped.begin (by simp [Silent, Event.transports, Event.finishes]) (shaped.quiet (.inl (by simp [inside])))
      (by simp)
  | pouchStarted crypto inside =>
    exact shaped.begin (by simp [Silent, Event.transports, Event.finishes]) (shaped.quiet (.inl (by simp [inside])))
      (by simp)
  | startFailed crypto inside =>
    exact shaped.begin (by simp [Silent, Event.transports, Event.finishes]) (shaped.quiet (.inl inside))
      (by simp [startFail])
  | headerFailed pool inside =>
    exact shaped.begin (by simp [Silent, Event.transports, Event.finishes]) (shaped.quiet (.inl (by simp [inside])))
      (by simp [startFail])
  | headerCreated header pool work inside =>
    refine shaped.begin (by simp [Silent, Event.transports, Event.finishes])
      (shaped.quiet (.inl (by simp [inside]))) fun _ _ => ⟨header, ?_, rfl⟩
    simp [createdHeaders, Event.created?]
  | downlink _ pool crypto downlink on =>
    have silent : Silent [event] := by
      simp only [Silent, List.mem_singleton, forall_eq]
      refine ⟨Event.transports_downlink on, ?_⟩
      rw [← Bool.not_eq_true, event.finishes_eq, on]
      simp
    exact shaped.keep silent rfl rfl rfl
  | _ => exact shaped.keep (by simp [Silent, Event.transports, Event.finishes]) rfl rfl rfl

theorem Shaped.step (shaped : Shaped device log) (formed : device.Formed cfg) (op : DeviceOp Key)
    (outside : op.party ≠ .read ∧ op.party ≠ .finish)
    (undisturbed : ∀ event ∈ (device.step cfg op).2, event.takenDuring ≠ some true) :
    Shaped (device.step cfg op).1 (log ++ (device.step cfg op).2) := by
  have call := Device.step_call cfg device op formed
  exact call.trace.invariant Shaped
    (fun event => (event.party ≠ .read ∧ event.party ≠ .finish) ∧ event.takenDuring ≠ some true)
    (fun _ _ _ _ small allowed holds => holds.small small allowed.1 allowed.2)
    (fun event member => ⟨call.outsideReading outside.1 outside.2 event member, undisturbed event member⟩) log shaped

theorem Shaped.finish (shaped : Shaped device log) (silent : Silent events) :
    Shaped (pouchUplinkFinish next).1 (log ++ (events ++ (pouchUplinkFinish next).2)) := by
  have ended : supplied (log ++ (events ++ (pouchUplinkFinish next).2)) =
      ⟨(supplied log).finished ++ [(supplied log).current], []⟩ := by
    rw [← List.append_assoc, supplied_append, silent.supplied log, finish_supply]
  constructor
  next =>
    rw [ended]
    simp only [List.mem_append, List.mem_singleton]
    rintro packets (earlier | rfl)
    · exact (shaped.finished packets earlier).later _
    · exact shaped.current.later _
  next =>
    rw [ended]
    exact .inl rfl
  next => exact fun _ => by rw [ended]
  next =>
    intro _ active
    rw [finish_inactive] at active
    cases active
  next =>
    rw [ended]
    exact fun filled => absurd rfl filled

end Shape

end Pouch
