import Pouch.DownlinkDelivery
import Pouch.DownlinkTurns

set_option autoImplicit false

/-!
# Framing of arbitrary input

The calls of the transport, taken apart into the iterations of `pouch_downlink_push`, so that a property
may be stated of every moment of a call.
-/

namespace Pouch

open ByteMemory

-- The generated decoder reports a header that is part of its input.
structure Decoding (Info Crypto : Type) extends HeaderHandling Info Crypto where
  within : ∀ raw info headerLen, cborDecodePouchHeader raw = some (info, headerLen) → headerLen ≤ raw.length

structure Receiving (Crypto : Type) where
  downlink : Downlink Crypto
  -- What the call that is under way has still to take in.
  unread : List UInt8

def Receiving.boot {Crypto : Type} (crypto : Crypto) : Receiving Crypto := ⟨⟨none, false, crypto⟩, []⟩

inductive FramingOp (Info Crypto : Type) where
  | start (malloc : Option Memory)
  | push (data : List UInt8)
  | turn (decoding : Decoding Info Crypto) (malloc : Option Memory)
  -- The crypto layer is also used by others.
  | crypto (next : Crypto)

inductive FramingEvent where
  | started
  | pushed (data : List UInt8)
  | accepted (headerLen : Nat)
  -- The block was given to `block_downlink_push`.
  | sent (block : PouchBuf)

section Model

variable {Info Crypto : Type} (cfg : Config)

def turnEvents (view : TurnView) (turn : PushTurn Crypto) : List FramingEvent :=
  view.header.toList.map .accepted ++ turn.sent.map .sent

def framingStep (receiving : Receiving Crypto) :
    FramingOp Info Crypto → Receiving Crypto × List FramingEvent
  | .start malloc =>
    if receiving.unread = [] then
      ({ receiving with downlink := pouchDownlinkStart malloc receiving.downlink }, [.started])
    else
      (receiving, [])
  | .push data =>
    if receiving.unread = [] then
      ({ receiving with unread := data }, [.pushed data])
    else
      (receiving, [])
  | .turn decoding malloc =>
    if receiving.unread = [] then
      (receiving, [])
    else
      let handling := decoding.toHeaderHandling
      let turn := pushTurn cfg handling malloc receiving.downlink receiving.unread
      (⟨turn.state, if turn.returned then [] else turn.unread⟩,
        turnEvents (turnView cfg handling receiving.downlink receiving.unread) turn)
  | .crypto next => ({ receiving with downlink := { receiving.downlink with crypto := next } }, [])

def handedBlocks (log : List FramingEvent) : List PouchBuf :=
  log.filterMap fun
    | .sent block => some block
    | _ => none

def pushedBytes (log : List FramingEvent) : List UInt8 :=
  log.flatMap fun
    | .pushed data => data
    | _ => []

def acceptedHeader (log : List FramingEvent) : Option Nat :=
  log.findSome? fun
    | .accepted headerLen => some headerLen
    | _ => none

def handedBytes (log : List FramingEvent) : List UInt8 := (handedBlocks log).flatMap PouchBuf.contents

def FramingEvent.isStart : FramingEvent → Bool
  | .started => true
  | _ => false

def sinceStart (log : List FramingEvent) : List FramingEvent := History.since FramingEvent.isStart log

end Model

section Calls

variable {Info Crypto : Type} (cfg : Config) (decoding : Decoding Info Crypto)

@[simp] theorem handedBlocks_append (first second : List FramingEvent) :
    handedBlocks (first ++ second) = handedBlocks first ++ handedBlocks second :=
  List.filterMap_append

@[simp] theorem handedBlocks_turnEvents (view : TurnView) (turn : PushTurn Crypto) :
    handedBlocks (turnEvents view turn) = turn.sent := by
  have headers : handedBlocks (view.header.toList.map .accepted) = [] := by
    cases view.header <;> rfl
  have blocks : handedBlocks (turn.sent.map .sent) = turn.sent := by
    simp [handedBlocks, List.filterMap_map]
  simp only [turnEvents, handedBlocks_append, headers, blocks, List.nil_append]

def callTurns : Nat → (Nat → Option Memory) → List (FramingOp Info Crypto)
  | 0, _ => []
  | fuel + 1, malloc => .turn decoding (malloc 0) :: callTurns fuel fun index => malloc (index + 1)

theorem callTurns_idle (fuel : Nat) (malloc : Nat → Option Memory) (state : Downlink Crypto)
    (log : List FramingEvent) :
    History.run (framingStep cfg) ⟨⟨state, []⟩, log⟩ (callTurns decoding fuel malloc) = ⟨⟨state, []⟩, log⟩ := by
  induction fuel generalizing malloc with
  | zero => rfl
  | succ fuel ih =>
    simp only [callTurns, History.run_cons, History.record, framingStep, if_true, List.append_nil]
    exact ih _

theorem pushLoop_turns (fuel : Nat) (malloc : Nat → Option Memory) (state : Downlink Crypto)
    (data : List UInt8) (log : List FramingEvent) (enough : data.length ≤ fuel) :
    let reached := History.run (framingStep cfg) ⟨⟨state, data⟩, log⟩ (callTurns decoding fuel malloc)
    let pushed := pushLoop cfg decoding.toHeaderHandling fuel malloc state data
    reached.state = ⟨pushed.1, []⟩ ∧ handedBlocks reached.log = handedBlocks log ++ pushed.2 := by
  induction fuel generalizing malloc state data log with
  | zero =>
    have empty : data = [] := List.eq_nil_of_length_eq_zero (Nat.le_zero.mp enough)
    simp [callTurns, pushLoop, empty]
  | succ fuel ih =>
    by_cases empty : data = []
    next =>
      rw [empty, callTurns_idle]
      simp [pushLoop]
    next =>
      have nonempty : ¬ data.length = 0 := by simpa using empty
      simp only [callTurns, History.run_cons, History.record, framingStep, empty, if_false, pushLoop,
        nonempty]
      cases continues : (pushTurn cfg decoding.toHeaderHandling (malloc 0) state data).returned with
      | true =>
        simp only [if_true]
        rw [callTurns_idle]
        simp
      | false =>
        have shorter := pushTurn_unread cfg decoding.toHeaderHandling (malloc 0) state data nonempty continues
        simp only [Bool.false_eq_true, if_false]
        obtain ⟨final, sent⟩ := ih (fun index => malloc (index + 1)) _
          (pushTurn cfg decoding.toHeaderHandling (malloc 0) state data).unread _ (by omega)
        refine ⟨final, ?_⟩
        rw [sent, handedBlocks_append, handedBlocks_turnEvents, List.append_assoc]

/-- A call of `pouch_downlink_push` is a run of its iterations. -/
theorem downlinkPush_turns (malloc : Nat → Option Memory) (state : Downlink Crypto) (data : List UInt8)
    (log : List FramingEvent) :
    let reached := History.run (framingStep cfg) ⟨⟨state, []⟩, log⟩
      (.push data :: callTurns decoding data.length malloc)
    let pushed := pouchDownlinkPush cfg decoding.toHeaderHandling malloc state data
    reached.state = ⟨pushed.1, []⟩ ∧ handedBlocks reached.log = handedBlocks log ++ pushed.2 := by
  have turns := pushLoop_turns cfg decoding data.length malloc state data (log ++ [.pushed data])
    (Nat.le_refl _)
  have silent : handedBlocks (log ++ [.pushed data]) = handedBlocks log := by
    rw [handedBlocks_append]
    exact List.append_nil _
  rw [silent] at turns
  exact turns

end Calls

section Blocks

variable {Info Crypto : Type} (cfg : Config)

def Framed (block : PouchBuf) : Prop := ∃ size, sizeField block = some size ∧ block.bytes = 2 + size

instance (block : PouchBuf) : Decidable (Framed block) :=
  match field : sizeField block with
  | none => .isFalse (by simp [Framed, field])
  | some size => decidable_of_iff (block.bytes = 2 + size) (by simp [Framed, field])

theorem framed_iff (block : PouchBuf) (field : 2 ≤ block.bytes) :
    Framed block ↔ block.bytes = 2 + leadingSize block := by
  have length := block.contents_length
  match whole : block.contents with
  | [] | [_] =>
    rw [whole] at length
    simp at length
    omega
  | high :: low :: rest => simp [Framed, leadingSize, sizeField, whole]

theorem leadingSize_front (block buf : PouchBuf) (rest : List UInt8) (field : 2 ≤ block.bytes)
    (front : block.contents ++ rest = buf.contents) : leadingSize block = leadingSize buf := by
  have length := block.contents_length
  match whole : block.contents with
  | [] | [_] =>
    rw [whole] at length
    simp at length
    omega
  | high :: low :: others =>
    rw [whole] at front
    simp [leadingSize, sizeField, whole, ← front]

/-- The iteration does not have to do without a new buffer while bytes follow the block that is
complete. -/
def NothingBehind (reached : History (Receiving Crypto) FramingEvent) : FramingOp Info Crypto → Prop
  | .turn decoding none => reached.state.unread ≠ [] →
      ∀ front, (turnView cfg decoding.toHeaderHandling reached.state.downlink
        reached.state.unread).front = some front →
      2 < front.bytes → leadingSize front ≤ cfg.maxBlockSizeFieldValue →
        front.bytes ≤ 2 + leadingSize front
  | _ => True

theorem Cut.framed_iff {malloc : Option Memory} {front : PouchBuf} {pushed : PushedBlock}
    (cut : Cut cfg malloc front pushed) :
    (∀ block ∈ pushed.sent, Framed block) ↔
      (malloc = none → 2 < front.bytes → leadingSize front ≤ cfg.maxBlockSizeFieldValue →
        front.bytes ≤ 2 + leadingSize front) := by
  cases cut with
  | waiting short =>
    refine iff_of_true (List.forall_mem_nil _) ?_
    intro _ field supported
    omega
  | oversized field large =>
    refine iff_of_true (List.forall_mem_nil _) ?_
    intro _ _ supported
    omega
  | uncut field supported complete failed =>
    simp only [List.mem_singleton, forall_eq, failed, field, supported, true_imp_iff]
    rw [Pouch.framed_iff front (Nat.le_of_lt field)]
    omega
  | cut memory next sent allocated supported sized split =>
    have same := leadingSize_front sent front next.contents (by omega) split
    simp only [List.mem_singleton, forall_eq, allocated, reduceCtorEq, false_imp_iff, iff_true]
    rw [Pouch.framed_iff sent (by omega), same]
    exact sized

def FramingEvent.Framed : FramingEvent → Prop
  | .sent block => Pouch.Framed block
  | _ => True

theorem mem_handedBlocks {block : PouchBuf} {log : List FramingEvent} :
    block ∈ handedBlocks log ↔ .sent block ∈ log := by
  simp only [handedBlocks, List.mem_filterMap]
  constructor
  · rintro ⟨event, member, isSent⟩
    cases event with
    | sent other =>
      obtain rfl := Option.some.inj isSent
      exact member
    | _ => simp at isSent
  · intro member
    exact ⟨.sent block, member, rfl⟩

theorem forall_handedBlocks_framed (log : List FramingEvent) :
    (∀ block ∈ handedBlocks log, Framed block) ↔ ∀ event ∈ log, event.Framed := by
  simp only [mem_handedBlocks]
  constructor
  · intro blocks event member
    cases event with
    | sent block => exact blocks block member
    | _ => trivial
  · intro events block member
    exact events (.sent block) member

theorem turnEvents_framed (view : TurnView) (turn : PushTurn Crypto) :
    (∀ event ∈ turnEvents view turn, event.Framed) ↔ ∀ block ∈ turn.sent, Framed block := by
  simp [turnEvents, or_imp, forall_and, FramingEvent.Framed]

theorem Turned.framed_iff {handling : HeaderHandling Info Crypto} {malloc : Option Memory}
    {state : Downlink Crypto} {data : List UInt8} {view : TurnView} {turn : PushTurn Crypto}
    (turned : Turned cfg handling malloc state data view turn) :
    (∀ block ∈ turn.sent, Framed block) ↔
      (malloc = none → ∀ front, view.front = some front → 2 < front.bytes →
        leadingSize front ≤ cfg.maxBlockSizeFieldValue → front.bytes ≤ 2 + leadingSize front) := by
  cases turned with
  | missing => simp
  | full => simp
  | undecoded => simp
  | header buf written unread next info headerLen pushed held room header copied decoded cut =>
    simp only [Option.some.injEq, forall_eq']
    exact cut.framed_iff
  | blocks buf written unread pushed held room header copied cut =>
    simp only [Option.some.injEq, forall_eq']
    exact cut.framed_iff

theorem framingStep_framed (reached : History (Receiving Crypto) FramingEvent) (op : FramingOp Info Crypto) :
    (∀ event ∈ (framingStep cfg reached.state op).2, event.Framed) ↔ NothingBehind cfg reached op := by
  cases op with
  | start malloc =>
    simp only [framingStep, NothingBehind]
    split_ifs <;> simp [FramingEvent.Framed]
  | push data =>
    simp only [framingStep, NothingBehind]
    split_ifs <;> simp [FramingEvent.Framed]
  | crypto next => simp [framingStep, NothingBehind]
  | turn decoding malloc =>
    have turned := pushTurn_turned cfg decoding.toHeaderHandling malloc reached.state.downlink
      reached.state.unread
    by_cases idle : reached.state.unread = []
    next => cases malloc <;> simp [framingStep, NothingBehind, idle]
    next =>
      simp only [framingStep, idle, if_false, turnEvents_framed, turned.framed_iff]
      cases malloc with
      | none => simp [NothingBehind, idle]
      | some memory => simp [NothingBehind]

end Blocks

/-- Every block that is passed on is as long as its size field says, exactly in the runs in which no
allocation fails while bytes follow a complete block in the reassembly buffer. -/
theorem blocks_framed_iff {Info Crypto : Type} (cfg : Config) (crypto : Crypto)
    (ops : List (FramingOp Info Crypto)) :
    (∀ block ∈ handedBlocks (History.run (framingStep cfg) ⟨.boot crypto, []⟩ ops).log, Framed block) ↔
      History.Meets (framingStep cfg) (NothingBehind cfg) ⟨.boot crypto, []⟩ ops := by
  have events := History.log_forall_iff (framingStep cfg) FramingEvent.Framed (NothingBehind cfg)
    (fun _ => True) ⟨.boot crypto, []⟩ ops trivial (fun reached op _ => framingStep_framed cfg reached op)
    (fun _ _ _ => trivial)
  rw [forall_handedBlocks_framed, events]
  simp

def sampleDecoding : Decoding Encryption Unit where
  toHeaderHandling := sampleHandling
  within := by
    intro raw info headerLen decoded
    simp only [sampleHandling, plaintextHandling] at decoded
    split_ifs at decoded with isPrefix
    obtain rfl := (Prod.mk.inj (Option.some.inj decoded)).2
    exact (List.isPrefixOf_iff_prefix.mp isPrefix).length_le

-- Two blocks arrive with one push and there is no second buffer: both are passed on as one.
theorem failed_allocation_joins_blocks :
    let sent := handedBlocks (History.run (framingStep (defaultConfig .none)) ⟨.boot (), []⟩
      [.start (some fun _ => 0), .push (sampleHeader ++ emptyEntryBlock.bytes ++ emptyEntryBlock.bytes),
        .turn sampleDecoding none]).log
    sent.map PouchBuf.contents = [[0x00, 0x01, 0xc0, 0x00, 0x01, 0xc0]] ∧
      ¬ ∀ block ∈ sent, Framed block := by
  intro sent
  exact ⟨by decide +kernel, by decide +kernel⟩

end Pouch
