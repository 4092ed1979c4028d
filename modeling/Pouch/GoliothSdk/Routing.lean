import Pouch.GoliothSdk.Dispatch
import Pouch.Shared.History

set_option autoImplicit false

/-!
# Routing of downlink streams

What the dispatcher is for: a stream belongs to the service that its path selected, until its last
data. The streams are recorded beside the dispatcher, which itself has one ID for each service.
-/

namespace Pouch

structure Streams where
  -- For an open stream, the service its path selected, if any.
  opened : DownlinkId → Option (Option Nat)
  -- The stream that was started last on a service.
  latest : Nat → Option DownlinkId

def Streams.boot : Streams := ⟨fun _ => none, fun _ => none⟩

structure Routing where
  dispatch : Dispatch
  streams : Streams

def Routing.boot : Routing := ⟨.boot, .boot⟩

section Model

variable (cfg : Config) (services : List DownlinkService)

def Streams.step (streams : Streams) : DispatchOp → Streams
  | .start id path =>
    let selected := (selectService cfg services path).map Prod.snd
    { opened := Function.update streams.opened id (some selected)
      latest := match selected with
        | none => streams.latest
        | some index => Function.update streams.latest index (some id) }
  | .data id _ isLast =>
    if isLast then { streams with opened := Function.update streams.opened id none } else streams

def routingStep (routing : Routing) (op : DispatchOp) : Routing × List ServiceCall :=
  let (dispatch, calls) := dispatchStep cfg services routing.dispatch op
  (⟨dispatch, routing.streams.step cfg services op⟩, calls)

end Model

/-- An ID is not started again before its last data, and data comes only for started IDs. -/
def Disciplined (reached : History Routing ServiceCall) : DispatchOp → Prop
  | .start id _ => reached.state.streams.opened id = none
  | .data id _ _ => reached.state.streams.opened id ≠ none

instance (reached : History Routing ServiceCall) (op : DispatchOp) : Decidable (Disciplined reached op) :=
  match op with
  | .start id _ => inferInstanceAs (Decidable (reached.state.streams.opened id = none))
  | .data id _ _ => inferInstanceAs (Decidable (reached.state.streams.opened id ≠ none))

/-- Data goes to the service that the stream's path selected, and nowhere if there is none. -/
def DeliveredToSelected (cfg : Config) (services : List DownlinkService)
    (reached : History Routing ServiceCall) : DispatchOp → Prop
  | .start _ _ => True
  | .data id data isLast => ∃ selected, reached.state.streams.opened id = some selected ∧
      (routingStep cfg services reached.state (.data id data isLast)).2 =
        selected.toList.map fun service => .dataCb service id data isLast

/-- When data of a stream comes, no other stream has been started on its service since it was. -/
def NotTakenOver (reached : History Routing ServiceCall) : DispatchOp → Prop
  | .start _ _ => True
  | .data id _ _ => ∀ service, reached.state.streams.opened id = some (some service) →
      reached.state.streams.latest service = some id

structure RoutingInvariant (services : List DownlinkService) (routing : Routing) : Prop where
  bound : ∀ id service, routing.streams.opened id = some (some service) → service < services.length
  owned : ∀ service, routing.dispatch.downlinkIds service ≠ downlinkIdInvalid →
    routing.streams.opened (routing.dispatch.downlinkIds service) = some (some service) ∧
      routing.streams.latest service = some (routing.dispatch.downlinkIds service)
  kept : ∀ id service, routing.streams.opened id = some (some service) →
    routing.streams.latest service = some id → routing.dispatch.downlinkIds service = id

section Steps

variable {cfg : Config} {services : List DownlinkService} {routing : Routing}

theorem RoutingInvariant.owner (invariant : RoutingInvariant services routing) {id : DownlinkId}
    (valid : id ≠ downlinkIdInvalid) {service : Nat} (same : routing.dispatch.downlinkIds service = id) :
    routing.streams.opened id = some (some service) ∧ routing.streams.latest service = some id := by
  have owned := invariant.owned service (by rw [same]; exact valid)
  rwa [same] at owned

theorem RoutingInvariant.active (invariant : RoutingInvariant services routing) (id : DownlinkId)
    (valid : id ≠ downlinkIdInvalid) :
    (∃ service, activeService services routing.dispatch id = some service ∧
      routing.dispatch.downlinkIds service = id) ∨
    (activeService services routing.dispatch id = none ∧
      ∀ service, routing.dispatch.downlinkIds service ≠ id) := by
  apply activeService_spec
  intro service same
  exact invariant.bound id service (invariant.owner valid same).1

theorem RoutingInvariant.delivered_iff (cfg : Config) (invariant : RoutingInvariant services routing)
    (log : List ServiceCall) (op : DispatchOp) (disciplined : Disciplined ⟨routing, log⟩ op)
    (valid : op.id ≠ downlinkIdInvalid) :
    DeliveredToSelected cfg services ⟨routing, log⟩ op ↔ NotTakenOver ⟨routing, log⟩ op := by
  cases op with
  | start id path => exact Iff.rfl
  | data id data isLast =>
    have valid : id ≠ downlinkIdInvalid := valid
    have started : routing.streams.opened id ≠ none := disciplined
    obtain ⟨selected, opened⟩ := Option.ne_none_iff_exists'.mp started
    simp only [DeliveredToSelected, NotTakenOver, routingStep, dispatchStep, dispatchData]
    rcases invariant.active id valid with ⟨service, active, same⟩ | ⟨active, nobody⟩
    · obtain ⟨owned, latest⟩ := invariant.owner valid same
      simp [active, owned, latest]
    · -- Nothing is delivered, which is right for a stream that no service was selected for.
      have lost (service : Nat) (selects : selected = some service) :
          routing.streams.latest service ≠ some id := by
        intro latest
        exact nobody service (invariant.kept id service (by rw [opened, selects]) latest)
      cases selected with
      | none => simp [active, opened]
      | some service => simp [active, opened, lost service rfl]

theorem RoutingInvariant.start (cfg : Config) (invariant : RoutingInvariant services routing)
    (id : DownlinkId) (path : CString) (closed : routing.streams.opened id = none) :
    RoutingInvariant services (routingStep cfg services routing (.start id path)).1 := by
  -- The streams that the services have are open, so none of them is the new one.
  have others (service : Nat) (valid : routing.dispatch.downlinkIds service ≠ downlinkIdInvalid) :
      routing.dispatch.downlinkIds service ≠ id := by
    intro same
    have owned := (invariant.owned service valid).1
    rw [same, closed] at owned
    cases owned
  simp only [routingStep, dispatchStep, dispatchStart, Streams.step]
  cases selected : selectService cfg services path with
  | none =>
    constructor
    · intro other service
      by_cases same : other = id
      next => simp [same]
      next => simpa [same] using invariant.bound other service
    · intro service valid
      simpa [others service valid] using invariant.owned service valid
    · intro other service
      by_cases same : other = id
      next => simp [same]
      next => simpa [same] using invariant.kept other service
  | some entry =>
    obtain ⟨entryService, index⟩ := entry
    have bound := selectService_bound selected
    constructor
    · intro other service
      by_cases same : other = id
      next =>
        simp only [same, Function.update_self, Option.map_some, Option.some.injEq]
        rintro rfl
        exact bound
      next => simpa [same] using invariant.bound other service
    · intro service valid
      by_cases here : service = index
      next => simp [here]
      next =>
        simp only [ne_eq, here, not_false_eq_true, Function.update_of_ne] at valid ⊢
        simpa [others service valid, here] using invariant.owned service valid
    · intro other service
      by_cases same : other = id
      next =>
        simp only [same, Function.update_self, Option.map_some, Option.some.injEq]
        rintro rfl _
        exact Function.update_self ..
      next =>
        by_cases here : service = index
        next => simp [here, Ne.symm same]
        next => simpa [same, here] using invariant.kept other service

theorem RoutingInvariant.close (invariant : RoutingInvariant services routing) (id : DownlinkId)
    (dispatch : Dispatch)
    (cleared : ∀ service, dispatch.downlinkIds service ≠ downlinkIdInvalid →
      dispatch.downlinkIds service = routing.dispatch.downlinkIds service ∧
        routing.dispatch.downlinkIds service ≠ id)
    (others : ∀ service, routing.dispatch.downlinkIds service ≠ id →
      dispatch.downlinkIds service = routing.dispatch.downlinkIds service) :
    RoutingInvariant services
      ⟨dispatch, { routing.streams with opened := Function.update routing.streams.opened id none }⟩ := by
  constructor
  · intro other service
    by_cases same : other = id
    next => simp [same]
    next => simpa [same] using invariant.bound other service
  · intro service valid
    obtain ⟨kept, other⟩ := cleared service valid
    simp only at valid ⊢
    rw [kept] at valid ⊢
    simpa [other] using invariant.owned service valid
  · intro other service
    by_cases same : other = id
    next => simp [same]
    next =>
      simp only [ne_eq, same, not_false_eq_true, Function.update_of_ne]
      intro opened latest
      have kept := invariant.kept other service opened latest
      rw [others service (by rw [kept]; exact same), kept]

theorem RoutingInvariant.data (cfg : Config) (invariant : RoutingInvariant services routing)
    (id : DownlinkId) (data : List UInt8) (isLast : Bool) (valid : id ≠ downlinkIdInvalid) :
    RoutingInvariant services (routingStep cfg services routing (.data id data isLast)).1 := by
  simp only [routingStep, dispatchStep, dispatchData, Streams.step]
  cases isLast with
  | false =>
    cases activeService services routing.dispatch id with
    | none => exact invariant
    | some service => exact invariant
  | true =>
    rcases invariant.active id valid with ⟨service, active, same⟩ | ⟨active, nobody⟩
    · simp only [active, if_true]
      apply invariant.close id
      · intro other stillValid
        by_cases here : other = service
        next => simp [here] at stillValid
        next =>
          refine ⟨by simp [here], ?_⟩
          intro shared
          have twice := (invariant.owner valid shared).1
          rw [(invariant.owner valid same).1] at twice
          simp only [Option.some.injEq] at twice
          exact here twice.symm
      · intro other different
        have elsewhere : other ≠ service := by
          rintro rfl
          exact different same
        simp [elsewhere]
    · simp only [active, if_true]
      apply invariant.close id
      · intro other stillValid
        exact ⟨rfl, nobody other⟩
      · intro other different
        rfl

theorem RoutingInvariant.step (cfg : Config) (invariant : RoutingInvariant services routing)
    (log : List ServiceCall) (op : DispatchOp) (disciplined : Disciplined ⟨routing, log⟩ op)
    (valid : op.id ≠ downlinkIdInvalid) :
    RoutingInvariant services (routingStep cfg services routing op).1 := by
  cases op with
  | start id path => exact invariant.start cfg id path disciplined
  | data id data isLast => exact invariant.data cfg id data isLast valid

end Steps

theorem RoutingInvariant.boot (services : List DownlinkService) : RoutingInvariant services .boot where
  bound := by simp [Routing.boot, Streams.boot]
  owned := by simp [Routing.boot, Dispatch.boot]
  kept := by simp [Routing.boot, Streams.boot]

/-- All data of disciplined streams is delivered as it should be, in exactly the runs in which no stream
gets data after another one was started on its service. The block layer numbers streams with five bits,
so that none has the ID of a service without a stream. -/
theorem downlink_data_routed_iff (cfg : Config) (services : List DownlinkService) (ops : List DispatchOp)
    (disciplined : History.Meets (routingStep cfg services) Disciplined ⟨.boot, []⟩ ops)
    (numbered : ∀ op ∈ ops, op.id ≠ downlinkIdInvalid) :
    History.Meets (routingStep cfg services) (DeliveredToSelected cfg services) ⟨.boot, []⟩ ops ↔
      History.Meets (routingStep cfg services) NotTakenOver ⟨.boot, []⟩ ops := by
  have valid := (History.meets_iff_forall (routingStep cfg services)
    (fun op => op.id ≠ downlinkIdInvalid) ⟨.boot, []⟩ ops).mpr numbered
  apply History.meets_congr (routingStep cfg services) _ _ _
    (fun reached => RoutingInvariant services reached.state) _ _ (.boot services) (disciplined.both _ valid)
  · rintro ⟨routing, log⟩ op ⟨disciplined, valid⟩ invariant
    exact invariant.delivered_iff cfg log op disciplined valid
  · rintro ⟨routing, log⟩ op ⟨disciplined, valid⟩ invariant
    exact invariant.step cfg log op disciplined valid

def sampleServices : List DownlinkService :=
  [⟨⟨[0x2f, 0x61], by simp⟩, 0, false⟩, ⟨⟨[0x2f, 0x62, 0x2a], by simp⟩, 0, true⟩]

def firstPath : CString := ⟨[0x2f, 0x61], by simp⟩

def secondPath : CString := ⟨[0x2f, 0x62, 0x63], by simp⟩

def unknownPath : CString := ⟨[0x2f, 0x63], by simp⟩

theorem interleaved_streams_routed :
    History.Meets (routingStep (defaultConfig .none) sampleServices)
      (DeliveredToSelected (defaultConfig .none) sampleServices) ⟨.boot, []⟩
      [.start 1 firstPath, .start 2 secondPath, .start 3 unknownPath, .data 1 [7] false, .data 3 [8] true,
        .data 2 [9] true, .data 1 [10] true] := by
  apply (downlink_data_routed_iff _ _ _ _ _).mpr
  · refine ⟨trivial, trivial, trivial, ?_, ?_, ?_, ?_, trivial⟩
    · rintro service ⟨⟩
      rfl
    · rintro service ⟨⟩
    · rintro service ⟨⟩
      rfl
    · rintro service ⟨⟩
      rfl
  · decide
  · decide

/-- A second stream to the same service takes the service over: data of the first one is dropped. -/
theorem second_stream_takes_service :
    let ops : List DispatchOp := [.start 1 firstPath, .start 2 firstPath, .data 1 [7] true]
    let started := History.run (routingStep (defaultConfig .none) sampleServices) ⟨.boot, []⟩ (ops.take 2)
    History.Meets (routingStep (defaultConfig .none) sampleServices) Disciplined ⟨.boot, []⟩ ops ∧
      (∀ op ∈ ops, op.id ≠ downlinkIdInvalid) ∧
      started.state.streams.opened 1 = some (some 0) ∧
      (routingStep (defaultConfig .none) sampleServices started.state (.data 1 [7] true)).2 = [] ∧
      ¬ History.Meets (routingStep (defaultConfig .none) sampleServices)
        (DeliveredToSelected (defaultConfig .none) sampleServices) ⟨.boot, []⟩ ops := by
  intro ops started
  have selected : started.state.streams.opened 1 = some (some 0) := rfl
  have dropped : (routingStep (defaultConfig .none) sampleServices started.state (.data 1 [7] true)).2 = [] :=
    rfl
  refine ⟨by decide, by decide, selected, dropped, ?_⟩
  rintro ⟨_, _, ⟨service, opened, delivered⟩, _⟩
  have same : some (some 0) = some service := selected.symm.trans opened
  cases same
  have none' := dropped.symm.trans delivered
  simp at none'

end Pouch
