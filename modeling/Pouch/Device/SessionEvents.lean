import Pouch.Device.UplinkFifo

set_option autoImplicit false

namespace Pouch

-- `enum pouch_event`.
inductive PouchEvent where
  | sessionStart
  | sessionEnd
  deriving DecidableEq, Repr

def PouchEvent.other : PouchEvent → PouchEvent
  | .sessionStart => .sessionEnd
  | .sessionEnd => .sessionStart

-- What `pouch_event_emit` is called with: at the end of `pouch_uplink_start`, and in `end_session`.
def Event.emission : Event → Option PouchEvent
  | .headerCreated _ _ => some .sessionStart
  | .sessionEnded => some .sessionEnd
  | _ => none

def emissions (log : List Event) : List PouchEvent := log.filterMap Event.emission

@[simp] theorem emissions_append (first second : List Event) :
    emissions (first ++ second) = emissions first ++ emissions second :=
  List.filterMap_append

theorem emissions_silent (log : List Event) (event : Event) (silent : event.emission = none) :
    emissions (log ++ [event]) = emissions log := by
  simp [emissions, silent]

def Alternating (first : PouchEvent) : List PouchEvent → Prop
  | [] => True
  | event :: rest => event = first ∧ Alternating first.other rest

def nextEvent (first : PouchEvent) (events : List PouchEvent) : PouchEvent :=
  (events.getLast?.map PouchEvent.other).getD first

theorem nextEvent_cons (first head : PouchEvent) (rest : List PouchEvent) :
    nextEvent first (head :: rest) = nextEvent head.other rest := by
  simp only [nextEvent, List.getLast?_cons, Option.map_some, Option.getD_some]
  cases rest.getLast? <;> rfl

theorem alternating_concat (first event : PouchEvent) (events : List PouchEvent)
    (alternating : Alternating first events) (follows : event = nextEvent first events) :
    Alternating first (events ++ [event]) := by
  induction events generalizing first with
  | nil => simpa [Alternating, nextEvent] using follows
  | cons head rest ih =>
    have next := ih first.other alternating.2 (by rw [follows, nextEvent_cons, alternating.1])
    exact ⟨alternating.1, next⟩

variable {Key : Type}

structure EventsPaired (device : Device Key) (events : List PouchEvent) : Prop where
  alternating : Alternating .sessionStart events
  idle : device.starting = none →
    (device.uplink.sessionActive = true ↔ events.getLast? = some .sessionStart)
  inside : device.starting.isSome = true →
    device.uplink.sessionActive = true ∧ events.getLast? ≠ some .sessionStart

section Emissions

variable {device next : Device Key} {events : List PouchEvent}

theorem EventsPaired.silent (paired : EventsPaired device events)
    (active : next.uplink.sessionActive = device.uplink.sessionActive)
    (starting : next.starting = device.starting) : EventsPaired next events := by
  constructor
  next => exact paired.alternating
  next => simpa [active, starting] using paired.idle
  next => simpa [active, starting] using paired.inside

theorem EventsPaired.starts (paired : EventsPaired device events) (silent : events.getLast? ≠ some .sessionStart)
    (active : next.uplink.sessionActive = true) (starting : next.starting.isSome = true) :
    EventsPaired next events := by
  constructor
  next => exact paired.alternating
  next =>
    intro idle
    simp [idle] at starting
  next => exact fun _ => ⟨active, silent⟩

theorem EventsPaired.failed (paired : EventsPaired device events) (inside : device.starting.isSome = true)
    (inactive : next.uplink.sessionActive = false) (starting : next.starting = none) :
    EventsPaired next events := by
  constructor
  next => exact paired.alternating
  next =>
    intro _
    simpa [inactive] using (paired.inside inside).2
  next => simp [starting]

theorem EventsPaired.started (paired : EventsPaired device events) (inside : device.starting.isSome = true)
    (active : next.uplink.sessionActive = device.uplink.sessionActive) (starting : next.starting = none) :
    EventsPaired next (events ++ [.sessionStart]) := by
  have before := paired.inside inside
  have ended : PouchEvent.sessionStart = nextEvent .sessionStart events := by
    cases found : events.getLast? with
    | none => simp [nextEvent, found]
    | some event =>
      cases event with
      | sessionStart => exact absurd found before.2
      | sessionEnd => simp [nextEvent, found, PouchEvent.other]
  constructor
  next => exact alternating_concat _ _ events paired.alternating ended
  next => simp [active, before.1]
  next => simp [starting]

theorem EventsPaired.ended (paired : EventsPaired device events) (idle : device.starting = none)
    (active : device.uplink.sessionActive = true) (inactive : next.uplink.sessionActive = false)
    (starting : next.starting = none) : EventsPaired next (events ++ [.sessionEnd]) := by
  have started : PouchEvent.sessionEnd = nextEvent .sessionStart events := by
    simp [nextEvent, (paired.idle idle).mp active, PouchEvent.other]
  constructor
  next => exact alternating_concat _ _ events paired.alternating started
  next => simp [inactive]
  next => simp [starting]

end Emissions

section Calls

variable {cfg : Config} {party : Party} {device next : Device Key} {event : Event} {log : List Event}

theorem EventsPaired.step (small : SmallStep device event next) (read : event.party ≠ .read)
    (finish : event.party ≠ .finish) (paired : EventsPaired device (emissions log)) :
    EventsPaired next (emissions (log ++ [event])) := by
  cases small with
  | taken | copied | released | sessionEnded | noMoreData => exact absurd rfl read
  | finished => exact absurd rfl finish
  | activated idle inactive =>
    have silent : ¬ (emissions log).getLast? = some .sessionStart := by
      simpa [inactive] using paired.idle idle
    rw [emissions_silent log _ rfl]
    exact paired.starts silent rfl rfl
  | sessionStarted crypto here build | pouchStarted crypto here build =>
    have before := paired.inside (by simp [here])
    rw [emissions_silent log _ rfl]
    exact paired.starts before.2 before.1 rfl
  | startFailed crypto inside build =>
    rw [emissions_silent log _ rfl]
    exact paired.failed inside rfl rfl
  | headerFailed pool inside exchange =>
    rw [emissions_silent log _ rfl]
    exact paired.failed (by simp [inside]) rfl rfl
  | headerCreated header pool work inside exchange =>
    rw [emissions_append]
    exact paired.started (by simp [inside]) rfl rfl
  | downlink _ pool crypto downlink on =>
    have silent : event.emission = none := by
      rcases Event.of_downlink on with ⟨_, rfl⟩ | rfl | ⟨_, _, rfl⟩ | ⟨_, rfl⟩ <;> rfl
    rw [emissions_silent log _ silent]
    exact paired.silent rfl rfl
  | _ =>
    rw [emissions_silent log _ rfl]
    exact paired.silent rfl rfl

theorem CallTrace.eventsPaired {result : Device Key × List Event} (call : CallTrace cfg party device result)
    (read : party ≠ .read) (finish : party ≠ .finish) (paired : EventsPaired device (emissions log)) :
    EventsPaired result.1 (emissions (log ++ result.2)) := by
  apply call.trace.invariant (fun reached reported => EventsPaired reached (emissions reported))
    (fun event => event.party ≠ .read ∧ event.party ≠ .finish) _ (call.outsideReading read finish) log paired
  intro before event after reported small others holds
  exact holds.step small others.1 others.2

end Calls

section Transport

variable (cfg : Config) (device : Device Key)

theorem fillCopy_silent (left : Nat) (packet : Outgoing) :
    emissions (fillCopy cfg left packet device).events = [] := by
  simp only [fillCopy]
  split_ifs <;> rfl

theorem fillLoop_silent (fuel left : Nat) : emissions (fillLoop cfg fuel left device).events = [] := by
  induction fuel generalizing left device with
  | zero => rfl
  | succ fuel ih =>
    simp only [fillLoop]
    split_ifs with done ready
    · rfl
    · cases device.uplink.reader with
      | none => rfl
      | some packet => simp [ih, fillCopy_silent]
    · cases device.uplink.transport with
      | nil => rfl
      | cons packet transport =>
        simp only
        rw [List.cons_append, ← List.singleton_append, emissions_append, emissions_append, fillCopy_silent, ih]
        rfl

theorem eventsPaired_fill (maxlen : Nat) (events : List PouchEvent) (idle : device.starting = none)
    (paired : EventsPaired device events) :
    EventsPaired (pouchUplinkFill cfg maxlen device).2.device
      (events ++ emissions (pouchUplinkFill cfg maxlen device).2.events) := by
  unfold pouchUplinkFill
  split_ifs with active
  · have silent := fillLoop_silent cfg device (maxlen + device.uplink.transport.length) maxlen
    have same := fillLoop_readerOnly cfg (maxlen + device.uplink.transport.length) maxlen device
    generalize fillLoop cfg (maxlen + device.uplink.transport.length) maxlen device = read at silent same ⊢
    have kept : EventsPaired read.device events := paired.silent same.active same.starting
    have idleStill := same.starting.trans idle
    simp only
    split_ifs
    · simpa [silent] using kept
    · have ended : emissions [.noMoreData, .sessionEnded] = [.sessionEnd] := rfl
      rw [emissions_append, silent, ended, List.nil_append]
      exact kept.ended idleStill (same.active.trans active) rfl idleStill
  · simpa [emissions] using paired

theorem eventsPaired_finish (events : List PouchEvent) (idle : device.starting = none)
    (paired : EventsPaired device events) :
    EventsPaired (pouchUplinkFinish device).1 (events ++ emissions (pouchUplinkFinish device).2) := by
  unfold pouchUplinkFinish
  simp only
  split_ifs with active
  · exact paired.ended idle active rfl idle
  · have silent : ∀ reader transport queue, emissions [.finished reader transport queue] = [] :=
      fun _ _ _ => rfl
    rw [silent, List.append_nil]
    apply paired.silent
    next => simpa using active
    next => rfl

end Transport

theorem eventsPaired_step (cfg : Config) (device : Device Key) (op : DeviceOp Key) (formed : device.Formed cfg)
    (log : List Event) (paired : EventsPaired device (emissions log)) :
    EventsPaired (device.step cfg op).1 (emissions (log ++ (device.step cfg op).2)) := by
  have call := Device.step_call cfg device op formed
  cases op with
  | fill maxlen =>
    rw [emissions_append]
    simp only [Device.step, Device.inTransport]
    split_ifs with busy
    · simpa [emissions] using paired
    · exact eventsPaired_fill cfg device maxlen (emissions log) (by simpa using busy) paired
  | finish =>
    rw [emissions_append]
    simp only [Device.step, Device.inTransport]
    split_ifs with busy
    · simpa [emissions] using paired
    · exact eventsPaired_finish device (emissions log) (by simpa using busy) paired
  | _ => exact call.eventsPaired nofun nofun paired

/-- The start and end events of sessions alternate, beginning with a start. Whenever the transport is
in no call, a session is active exactly when the last event was a start. -/
theorem session_events_pair_up (cfg : Config) (ops : List (DeviceOp Key)) :
    let reached := History.run (Device.step cfg) ⟨.boot Key cfg, []⟩ ops
    Alternating .sessionStart (emissions reached.log) ∧
      (reached.state.starting = none →
        (reached.state.uplink.sessionActive = true ↔
          (emissions reached.log).getLast? = some .sessionStart)) := by
  have both := History.run_invariant (Device.step cfg) (fun _ _ => True)
    (fun reached => reached.state.Formed cfg ∧ EventsPaired reached.state (emissions reached.log))
    ⟨.boot Key cfg, []⟩ ops ⟨Device.boot_formed cfg, ?_⟩
    (History.meets_of_forall _ _ _ _ fun _ _ _ => trivial) ?_
  · exact ⟨both.2.alternating, both.2.idle⟩
  · exact ⟨trivial, by simp [Device.boot, emissions], by simp [Device.boot]⟩
  · intro reached op _ holds
    exact ⟨(Device.step_traced cfg).formed reached.state op holds.1,
      eventsPaired_step cfg reached.state op holds.1 reached.log holds.2⟩

-- A session that is read to its end and finished twice, a start that fails, and another session.
def pairedOps : List (DeviceOp Unit) :=
  startedOps ++ [.closeCall, .closeReturn none, workerRun, .fill 8, .finish, .finish] ++
    startedOps.take 3 ++ [.startHeader ⟨none, true, none⟩] ++ startedOps

theorem session_events_pair_up_sample :
    let reached := deviceRun pairedOps
    emissions reached.log = [.sessionStart, .sessionEnd, .sessionStart] ∧
      (reached.state.uplink.sessionActive = true ↔
        (emissions reached.log).getLast? = some .sessionStart) :=
  ⟨by decide +kernel, (session_events_pair_up (defaultConfig .none) pairedOps).2 (by decide +kernel)⟩

end Pouch
