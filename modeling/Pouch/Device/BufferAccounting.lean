import Mathlib.Data.Finset.Card
import Pouch.Device.UplinkFifo

set_option autoImplicit false

namespace Pouch

open Ledger

variable {Key : Type}

def idsOfStreams (streams : List UplinkStream) : Multiset Nat := idsOf (streams.map UplinkStream.buf)

def openStreamIds (streams : Nat → Option UplinkStream) (handles : List Nat) : Multiset Nat :=
  idsOfStreams (handles.filterMap streams)

def Device.held (device : Device Key) : Multiset Nat :=
  idsOf device.entryBlock.toList + openStreamIds device.streams (List.range device.nextHandle) +
    idsOf device.uplink.header.toList + idsOf device.uplink.queue +
    idsOf (device.uplink.transport.map Outgoing.buf) + idsOf (device.uplink.reader.map Outgoing.buf).toList +
    device.downlink.held

def lostIds (log : List Event) : Multiset Nat := idsOf (log.filterMap Event.overwritten)

section Streams

variable (streams : Nat → Option UplinkStream) (handle next : Nat)

theorem openStreamIds_succ :
    openStreamIds streams (List.range (next + 1)) =
      openStreamIds streams (List.range next) + idsOfStreams (streams next).toList := by
  simp only [openStreamIds, List.range_succ, List.filterMap_append]
  cases held : streams next <;> simp [idsOfStreams, held]

theorem openStreamIds_split (bound : handle < next) :
    openStreamIds streams (List.range next) =
      idsOfStreams (streams handle).toList + openStreamIds streams ((List.range next).erase handle) := by
  have split := List.perm_cons_erase (List.mem_range.mpr bound)
  have mapped := ((split.filterMap streams).map UplinkStream.buf).map Buf.id
  have same : openStreamIds streams (List.range next) =
      openStreamIds streams (handle :: (List.range next).erase handle) := Multiset.coe_eq_coe.mpr mapped
  rw [same, openStreamIds, List.filterMap_cons]
  cases streams handle <;> simp [idsOfStreams, openStreamIds]

theorem openStreamIds_update (changed : Option UplinkStream) (handles : List Nat) (absent : handle ∉ handles) :
    openStreamIds (Function.update streams handle changed) handles = openStreamIds streams handles := by
  have same : handles.filterMap (Function.update streams handle changed) = handles.filterMap streams := by
    apply List.filterMap_congr
    intro other member
    rw [Function.update_of_ne]
    rintro rfl
    exact absent member
  rw [openStreamIds, same, openStreamIds]

theorem openStreamIds_changed (changed : Option UplinkStream) (bound : handle < next) :
    openStreamIds (Function.update streams handle changed) (List.range next) =
      idsOfStreams changed.toList + openStreamIds streams ((List.range next).erase handle) := by
  have absent : handle ∉ (List.range next).erase handle := by
    rw [List.nodup_range.mem_erase_iff]
    simp
  rw [openStreamIds_split _ handle next bound, Function.update_self,
    openStreamIds_update streams handle changed _ absent]

end Streams

theorem map_header_buf (headers : List Buf) :
    (headers.map Outgoing.header).map Outgoing.buf = headers := by
  simp [Function.comp_def, Outgoing.buf]

structure Accounted (device : Device Key) (log : List Event) : Prop where
  balanced : Balanced device.pool (device.held + lostIds log)
  bound : ∀ handle stream, device.streams handle = some stream → handle < device.nextHandle

theorem Accounted.exchange {device next : Device Key} {log : List Event} {event : Event}
    (accounted : Accounted device log) (small : SmallStep device event next)
    {taken given : Multiset Nat} (others : Multiset Nat)
    (exchange : Exchange device.pool taken next.pool given)
    (before : device.held = taken + others)
    (after : next.held + idsOf event.overwritten.toList = given + others) :
    Accounted next (log ++ [event]) := by
  refine ⟨?_, small.streams_bound accounted.bound⟩
  have balanced := accounted.balanced
  rw [before, add_assoc] at balanced
  have lost : lostIds (log ++ [event]) = lostIds log + idsOf event.overwritten.toList := by
    simp only [lostIds, List.filterMap_append, idsOf_append]
    cases overwritten : event.overwritten <;> simp [overwritten]
  have held : next.held + lostIds (log ++ [event]) = given + (others + lostIds log) := by
    rw [lost, ← add_assoc given, ← after]
    abel
  rw [held]
  exact exchange.balanced _ balanced

theorem Accounted.quiet {device next : Device Key} {log : List Event} {event : Event}
    (accounted : Accounted device log) (small : SmallStep device event next)
    (pool : next.pool = device.pool) (held : next.held + idsOf event.overwritten.toList = device.held) :
    Accounted next (log ++ [event]) := by
  have exchange : Exchange device.pool 0 next.pool 0 := by
    rw [pool]
    exact Exchange.refl device.pool 0
  exact accounted.exchange small device.held exchange (by simp) (by rw [held, zero_add])

theorem Accounted.step {device next : Device Key} {log : List Event} {event : Event}
    (small : SmallStep device event next) (accounted : Accounted device log) :
    Accounted next (log ++ [event]) := by
  have taken := small
  cases small with
  | entryOpened block closed id owner header =>
    refine accounted.exchange taken device.held (exchange_alloc device.pool) (by simp) ?_
    simp only [Device.held, closed, Event.overwritten, Option.toList_none, Option.toList_some, idsOf_cons,
      idsOf_nil, id]
    abel
  | entryAccepted opened block entry held id owner contents =>
    refine accounted.quiet taken rfl ?_
    simp only [Device.held, held, Event.overwritten, Option.toList_none, Option.toList_some, idsOf_cons,
      idsOf_nil, id, add_zero]
  | entryPassed opened block held id owner contents =>
    refine accounted.quiet taken rfl ?_
    simp only [Device.held, held, uplinkEnqueue, Event.overwritten, Option.toList_none, Option.toList_some,
      idsOf_cons, idsOf_nil, idsOf_append, id]
    abel
  | streamOpened stream streamId id session owner =>
    refine accounted.exchange taken device.held (exchange_alloc device.pool) (by simp) ?_
    have others := openStreamIds_update device.streams device.nextHandle (some stream)
      (List.range device.nextHandle) (by simp)
    simp only [Device.held, openStreamIds_succ, others, Function.update_self, Event.overwritten,
      idsOfStreams, Option.toList_none, Option.toList_some, List.map_cons, List.map_nil, idsOf_cons,
      idsOf_nil, id]
    abel
  | streamWrote handle old stream held id owner session =>
    have bound := accounted.bound handle old held
    refine accounted.quiet taken rfl ?_
    simp only [Device.held, Device.putStream, openStreamIds_changed device.streams handle _ _ bound,
      openStreamIds_split device.streams handle _ bound, held, Event.overwritten, idsOfStreams,
      Option.toList_none, Option.toList_some, List.map_cons, List.map_nil, idsOf_cons, idsOf_nil, id]
    abel
  | streamPassed handle old stream block held valid id owner fresh session freshOwner =>
    have bound := accounted.bound handle old held
    refine accounted.exchange taken device.held (exchange_alloc device.pool) (by simp) ?_
    simp only [Device.held, uplinkEnqueue, openStreamIds_changed device.streams handle _ _ bound,
      openStreamIds_split device.streams handle _ bound, held, Event.overwritten, idsOfStreams,
      Option.toList_none, Option.toList_some, List.map_cons, List.map_nil, idsOf_cons, idsOf_nil,
      idsOf_append, id, fresh]
    abel
  | streamClosed handle stream block held valid id owner =>
    have bound := accounted.bound handle stream held
    refine accounted.quiet taken rfl ?_
    simp only [Device.held, uplinkEnqueue, openStreamIds_changed device.streams handle _ _ bound,
      openStreamIds_split device.streams handle _ bound, held, Event.overwritten, idsOfStreams,
      Option.toList_none, Option.toList_some, List.map_cons, List.map_nil, idsOf_cons, idsOf_nil,
      idsOf_append, id]
    abel
  | streamDiscarded handle stream held =>
    have bound := accounted.bound handle stream held
    refine accounted.exchange taken _ (exchange_free device.pool stream.buf.id) ?_ (zero_add _).symm
    simp only [Device.held, openStreamIds_changed device.streams handle _ _ bound,
      openStreamIds_split device.streams handle _ bound, held, Event.overwritten, idsOfStreams,
      Option.toList_none, Option.toList_some, List.map_cons, List.map_nil, idsOf_cons, idsOf_nil]
    abel
  | enqueued block id owner =>
    refine accounted.exchange taken device.held (exchange_alloc device.pool) (by simp) ?_
    simp only [Device.held, uplinkEnqueue, Event.overwritten, Option.toList_none, idsOf_cons, idsOf_nil,
      idsOf_append, id]
    abel
  | processed block sent rest crypto pool active opened queue exchange build plain =>
    -- What was neither the block nor what it was turned into.
    refine accounted.exchange taken
      (idsOf device.entryBlock.toList + openStreamIds device.streams (List.range device.nextHandle) +
        idsOf device.uplink.header.toList + idsOf rest + idsOf (device.uplink.transport.map Outgoing.buf) +
        idsOf (device.uplink.reader.map Outgoing.buf).toList + device.downlink.held) exchange ?_ ?_
    · simp only [Device.held, queue, idsOf_cons]
      abel
    · simp only [Device.held, Event.overwritten, Option.toList_none, idsOf_nil, List.map_append,
        map_header_buf, List.map_cons, List.map_nil, Outgoing.buf, idsOf_append, idsOf_cons]
      abel
  | dropped block rest crypto pool active opened queue exchange build encrypts =>
    refine accounted.exchange taken _ exchange ?_ (zero_add _).symm
    simp only [Device.held, queue, Event.overwritten, Option.toList_none, idsOf_cons, idsOf_nil]
    abel
  | headerFailed pool inside exchange =>
    refine accounted.exchange taken device.held exchange (by simp) ?_
    simp only [Device.held, startFail, Event.overwritten, Option.toList_none, idsOf_nil]
    abel
  | headerCreated header pool work inside exchange =>
    refine accounted.exchange taken device.held exchange (by simp) ?_
    simp only [Device.held, Event.overwritten, Option.toList_some, idsOf_cons, idsOf_nil]
    abel
  | taken packet rest queue free =>
    refine accounted.quiet taken rfl ?_
    simp only [Device.held, queue, free, Event.overwritten, Option.map_none, Option.map_some,
      Option.toList_none, Option.toList_some, List.map_cons, idsOf_cons, idsOf_nil]
    abel
  | released packet held =>
    refine accounted.exchange taken _ (exchange_free device.pool packet.buf.id) ?_ (zero_add _).symm
    simp only [Device.held, held, Event.overwritten, Option.map_some, Option.map_none, Option.toList_none,
      Option.toList_some, idsOf_cons, idsOf_nil]
    abel
  | finished pool idle exchange =>
    refine accounted.exchange taken _ exchange ?_ (zero_add _).symm
    simp only [Device.held, Event.overwritten, Option.map_none, Option.toList_none, List.map_nil, idsOf_nil]
    abel
  | downlink _ pool crypto downlink on build exchange =>
    refine accounted.exchange taken _ exchange (add_comm _ _) ?_
    simp only [Device.held]
    abel
  | _ =>
    refine accounted.quiet taken rfl ?_
    simp [Device.held, Event.overwritten, startFail, endSession]

section Condition

variable (cfg : Config)

/-- No pointer is overwritten while it is in use: `pouch_uplink_start` creates its header when there
is none, and `pouch_downlink_start` allocates its buffer when there is none. -/
def NothingOverwritten (history : History (Device Key) Event) : DeviceOp Key → Prop
  | .startHeader _ => history.state.starting = some .header → history.state.uplink.header = none
  | .downlinkStart _ => history.state.downlink.pouchBuf = none
  | _ => True

theorem party_overwrites_nothing (event : Event) (start : event.party ≠ .start)
    (downlink : event.party ≠ .downlink) : event.overwritten = none := by
  cases event <;> first | rfl | exact absurd rfl start | exact absurd rfl downlink

theorem overwritten_iff (device : Device Key) (op : DeviceOp Key) (log : List Event)
    (formed : device.Formed cfg) :
    (∀ event ∈ (device.step cfg op).2, event.overwritten = none) ↔ NothingOverwritten ⟨device, log⟩ op := by
  have otherParties : op.party ≠ .start → op.party ≠ .downlink →
      ∀ event ∈ (device.step cfg op).2, event.overwritten = none := by
    intro start downlink event member
    rcases Event.party_of_reportedBy ((Device.step_call cfg device op formed).parties event member) with
      same | ⟨rfl, _⟩ | ⟨⟨block, rfl⟩, _⟩
    · exact party_overwrites_nothing event (same ▸ start) (same ▸ downlink)
    · rfl
    · rfl
  cases op with
  | startActivate =>
    simp only [NothingOverwritten, iff_true, Device.step, startActivate]
    split_ifs <;> simp [Event.overwritten]
  | startSession call =>
    simp only [NothingOverwritten, iff_true, Device.step, startSession]
    split_ifs
    · rcases device.crypto.sessionStart cfg call with ⟨_ | err, crypto⟩ <;> simp [Event.overwritten]
    · simp
  | startPouch =>
    simp only [NothingOverwritten, iff_true, Device.step, startPouch]
    split_ifs
    · rcases device.crypto.pouchStart with ⟨_ | err, crypto⟩ <;> simp [Event.overwritten]
    · simp
  | startHeader call =>
    simp only [NothingOverwritten, Device.step, startHeader]
    split_ifs with inside
    · rcases pouchHeaderCreate call device.crypto device.pool with ⟨_ | header, pool⟩ <;>
        simp [Event.overwritten, inside]
    · simp [inside]
  | downlinkStart malloc => simp [NothingOverwritten, Device.step, Device.pouchDownlinkStart, Event.overwritten]
  | downlinkPush call data => simp [NothingOverwritten, Device.step, Device.pouchDownlinkPush, Event.overwritten]
  | decryptBlocks call =>
    simp only [NothingOverwritten, iff_true, Device.step, Device.decryptBlocks]
    split_ifs
    · split <;> simp [Event.overwritten]
    · simp
  | consumeBlocks =>
    simp only [NothingOverwritten, iff_true, Device.step, Device.consumeBlocks]
    split_ifs
    · split <;> simp [Event.overwritten]
    · simp
  | _ => exact ⟨fun _ => trivial, fun _ => otherParties (by simp [DeviceOp.party]) (by simp [DeviceOp.party])⟩

end Condition

theorem lostIds_eq_zero (log : List Event) : lostIds log = 0 ↔ ∀ event ∈ log, event.overwritten = none := by
  simp [lostIds, idsOf, List.filterMap_eq_nil_iff]

/-- The counter is the number of buffers that the state holds, and nothing is freed twice, in exactly
the runs that overwrite no pointer in use. -/
theorem buffers_accounted_iff (cfg : Config) (ops : List (DeviceOp Key)) :
    let reached := History.run (Device.step cfg) ⟨.boot Key cfg, []⟩ ops
    (reached.state.pool.active = reached.state.held.toFinset.card ∧ reached.state.pool.freed.Nodup) ↔
      History.Meets (Device.step cfg) NothingOverwritten ⟨.boot Key cfg, []⟩ ops := by
  intro reached
  have accounted := (Device.step_traced cfg).run_invariant (fun _ _ => True) (fun _ => True) Accounted
    ⟨.boot Key cfg, []⟩ ops (Device.boot_formed cfg) ⟨Balanced.empty, by simp [Device.boot]⟩
    (History.meets_of_forall _ _ _ _ fun _ _ _ => trivial) (fun _ _ _ _ _ _ => trivial)
    (fun _ _ _ _ small _ holds => holds.step small)
  have balanced : Balanced reached.state.pool (reached.state.held + lostIds reached.log) := accounted.balanced
  have distinct := (Multiset.nodup_add.mp balanced.held_nodup).1
  have count : reached.state.held.toFinset.card = reached.state.held.card :=
    Multiset.toFinset_card_of_nodup distinct
  have active := balanced.active
  rw [Multiset.card_add, Nat.cast_add] at active
  have lost : lostIds reached.log = 0 ↔
      History.Meets (Device.step cfg) NothingOverwritten ⟨.boot Key cfg, []⟩ ops := by
    rw [lostIds_eq_zero]
    have iff := History.log_forall_iff (Device.step cfg) (fun event => event.overwritten = none)
      NothingOverwritten (Device.Formed cfg) ⟨.boot Key cfg, []⟩ ops (Device.boot_formed cfg)
      (fun history op formed => overwritten_iff cfg history.state op history.log formed)
      (Device.step_traced cfg).formed
    simpa using iff
  rw [← lost, count]
  constructor
  · rintro ⟨counted, _⟩
    have none' : (lostIds reached.log).card = 0 := by omega
    exact Multiset.card_eq_zero.mp none'
  · intro none'
    refine ⟨?_, balanced.freed_nodup⟩
    rw [active, none']
    simp

/-- A download that is started again leaves the buffer of the first one behind. -/
theorem restarted_download_leaks :
    let reached := deviceRun [.downlinkStart (some fun _ => 0), .downlinkStart (some fun _ => 0)]
    reached.state.pool.active = 2 ∧ reached.state.held.toFinset.card = 1 ∧
      ¬ reached.state.pool.active = reached.state.held.toFinset.card := by
  decide +kernel

end Pouch
