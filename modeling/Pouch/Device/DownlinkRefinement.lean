import Pouch.Device.DownlinkPouches
import Pouch.Device.DownlinkQueues
import Pouch.DownlinkTurns

set_option autoImplicit false

/-!
# Framing on the heap

`pouch_downlink_push` on the heap of the device frames the blocks that it frames when it is given
nothing but bytes.
-/

namespace Pouch

open ByteMemory

variable {Key : Type}

def Device.framing (device : Device Key) : Downlink (Crypto Key) :=
  ⟨device.downlink.pouchBuf.map Buf.data, device.downlink.pouchHeader, device.crypto⟩

structure Queued (before after : DownlinkState) (blocks : List Buf) : Prop where
  decryptQueue : after.decryptQueue = before.decryptQueue ++ blocks
  decryptWork : after.decryptWork = (before.decryptWork || !blocks.isEmpty)
  consumeQueue : after.consumeQueue = before.consumeQueue
  consumeWork : after.consumeWork = before.consumeWork

theorem Queued.none {before after : DownlinkState} (decryptQueue : after.decryptQueue = before.decryptQueue)
    (decryptWork : after.decryptWork = before.decryptWork) (consumeQueue : after.consumeQueue = before.consumeQueue)
    (consumeWork : after.consumeWork = before.consumeWork) : Queued before after [] :=
  ⟨by rw [decryptQueue, List.append_nil], by simp [decryptWork], consumeQueue, consumeWork⟩

theorem Queued.trans {first second third : DownlinkState} {blocks more : List Buf}
    (left : Queued first second blocks) (right : Queued second third more) :
    Queued first third (blocks ++ more) := by
  constructor
  next => rw [right.decryptQueue, left.decryptQueue, List.append_assoc]
  next =>
    rw [right.decryptWork, left.decryptWork, Bool.or_assoc]
    cases blocks <;> cases more <;> simp
  next => rw [right.consumeQueue, left.consumeQueue]
  next => rw [right.consumeWork, left.consumeWork]

theorem Queued.armed {before after : DownlinkState} {blocks : List Buf} (queued : Queued before after blocks)
    (armed : before.Armed) : after.Armed := by
  constructor
  next =>
    rw [queued.decryptQueue, queued.decryptWork, Bool.or_eq_true, armed.decrypt]
    cases blocks <;> simp
  next =>
    rw [queued.consumeQueue, queued.consumeWork]
    exact armed.consume

section Turns

variable (cfg : Config)

theorem Cut.single {malloc : Option Memory} {buf : PouchBuf} {pushed : PushedBlock}
    (cut : Cut cfg malloc buf pushed) : pushed.sent.length ≤ 1 := by
  cases cut <;> simp

theorem pushTurn_single {Info State : Type} (handling : HeaderHandling Info State) (malloc : Option Memory)
    (state : Downlink State) (data : List UInt8) :
    let turn := pushTurn cfg handling malloc state data
    turn.sent.length ≤ 1 ∧ (state.pouchBuf = none → turn.state.pouchBuf = none ∧ turn.sent = []) := by
  have turned := pushTurn_turned cfg handling malloc state data
  generalize turnView cfg handling state data = view at turned
  generalize pushTurn cfg handling malloc state data = turn at turned ⊢
  cases turned with
  | missing absent => exact ⟨Nat.zero_le 1, fun _ => ⟨absent, rfl⟩⟩
  | full buf held => exact ⟨Nat.zero_le 1, by simp [held]⟩
  | undecoded buf written unread next held => exact ⟨Nat.zero_le 1, by simp [held]⟩
  | header buf written unread next info headerLen pushed held room header copied decoded cut =>
    exact ⟨cut.single, by simp [held]⟩
  | blocks buf written unread pushed held room header copied cut => exact ⟨cut.single, by simp [held]⟩

theorem bufHold_data (pool : Ledger) (owner : Owner) (allocated : Option PouchBuf) :
    (bufHold pool owner allocated).1.map Buf.data = allocated := by
  cases allocated <;> rfl

theorem turn_refines (push : PushState Key) (turn : PushTurn (Crypto Key)) (single : turn.sent.length ≤ 1)
    (absent : push.state.pouchBuf = none → turn.state.pouchBuf = none ∧ turn.sent = []) :
    (push.turn turn).framing = turn.state ∧
      ∃ blocks, Queued push.state (push.turn turn).state blocks ∧ blocks.map Buf.data = turn.sent := by
  obtain ⟨state, unread, sent, returned⟩ := turn
  simp only at single absent ⊢
  cases held : push.state.pouchBuf with
  | none =>
    obtain ⟨missing, nothing⟩ := absent held
    simp only [PushState.turn, held, PushState.framing, Option.map_none, nothing]
    exact ⟨by rw [← missing], [], .none rfl rfl rfl rfl, rfl⟩
  | some buf =>
    cases sent with
    | nil =>
      simp only [PushState.turn, held, PushState.framing, Option.map_map]
      refine ⟨?_, [], .none rfl rfl rfl rfl, rfl⟩
      have same : (Buf.data ∘ fun data => ({ buf with data := data } : Buf)) = id := rfl
      rw [same, Option.map_id_fun, id]
    | cons block rest =>
      obtain rfl : rest = [] := by simpa using single
      simp only [PushState.turn, held, PushState.framing, DownlinkState.blockDownlinkPush]
      refine ⟨by rw [bufHold_data], [{ buf with data := block }], ⟨rfl, by simp, rfl, rfl⟩, rfl⟩

theorem loop_refines (call : PushCall Key) (fuel index : Nat) (push : PushState Key) (data : List UInt8) :
    let loop := PushState.loop cfg call fuel index push data
    let plain := pushLoop cfg (call.handling cfg) fuel (fun offset => call.malloc (index + offset))
      push.framing data
    loop.framing = plain.1 ∧ ∃ blocks, Queued push.state loop.state blocks ∧ blocks.map Buf.data = plain.2 := by
  induction fuel generalizing index push data with
  | zero => exact ⟨rfl, [], .none rfl rfl rfl rfl, rfl⟩
  | succ fuel ih =>
    simp only [PushState.loop, pushLoop, Nat.add_zero]
    by_cases empty : data.length = 0
    next =>
      rw [if_pos empty, if_pos empty]
      exact ⟨rfl, [], .none rfl rfl rfl rfl, rfl⟩
    next =>
      obtain ⟨single, absent⟩ := pushTurn_single cfg (call.handling cfg) (call.malloc index) push.framing data
      have held : push.state.pouchBuf = none → push.framing.pouchBuf = none := by
        intro missing
        simp [PushState.framing, missing]
      obtain ⟨framing, blocks, queued, sent⟩ := turn_refines push
        (pushTurn cfg (call.handling cfg) (call.malloc index) push.framing data) single
        (fun missing => absent (held missing))
      simp only [empty, if_false]
      split_ifs with returned
      next => exact ⟨framing, blocks, queued, sent⟩
      next =>
        obtain ⟨last, others, queuedOthers, sentOthers⟩ := ih (index + 1)
          (push.turn (pushTurn cfg (call.handling cfg) (call.malloc index) push.framing data))
          (pushTurn cfg (call.handling cfg) (call.malloc index) push.framing data).unread
        have shifted : (fun offset => call.malloc (index + 1 + offset)) =
            fun offset => call.malloc (index + (offset + 1)) := by
          funext offset
          congr 1
          omega
        rw [framing, shifted] at last sentOthers
        refine ⟨last, blocks ++ others, queued.trans queuedOthers, ?_⟩
        rw [List.map_append, sent, sentOthers]

end Turns

namespace Device

variable (cfg : Config) (device : Device Key)

/-- A push on the device is the push of the same bytes on its framing state. -/
theorem pouchDownlinkPush_refines (call : PushCall Key) (data : List UInt8) :
    let next := (device.pouchDownlinkPush cfg call data).1
    let plain := Pouch.pouchDownlinkPush cfg (call.handling cfg) call.malloc device.framing data
    next.framing = plain.1 ∧
      ∃ blocks, Queued device.downlink next.downlink blocks ∧ blocks.map Buf.data = plain.2 := by
  have refines := loop_refines cfg call data.length 0 ⟨device.pool, device.crypto, device.downlink⟩ data
  simp only [Nat.zero_add] at refines
  exact refines

theorem pouchDownlinkStart_refines (malloc : Option Memory) :
    let next := (device.pouchDownlinkStart malloc).1
    next.framing = Pouch.pouchDownlinkStart malloc device.framing ∧
      Queued device.downlink next.downlink [] := by
  have data := bufHold_data device.pool .internal (bufAlloc malloc)
  refine ⟨?_, .none rfl rfl rfl rfl⟩
  simp only [Device.pouchDownlinkStart, Device.framing, Pouch.pouchDownlinkStart]
  rw [data]

end Device

end Pouch
