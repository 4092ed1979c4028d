import Pouch.Device.DownlinkRefinement

set_option autoImplicit false

/-!
# The arrival of a pouch on the device

A pouch comes in pieces of any size. Where the device stands in it only depends on how much of it has
come, and on the pieces it was cut into.
-/

namespace Pouch

open ByteMemory
open Reassembly

def decodingOnly (State : Type) (decode : List UInt8 → Option (EncryptionInfo × Nat)) :
    HeaderHandling EncryptionInfo State where
  cborDecodePouchHeader := decode
  cryptoDownlinkStart state _ := (none, state)

/-- A pouch as it was sent: whether the receiver accepts its header is left open. -/
abbrev SentPouch (cfg : Config) (decode : List UInt8 → Option (EncryptionInfo × Nat)) :=
  WirePouch cfg (decodingOnly Unit decode) ()

section Sent

variable {cfg : Config} {decode : List UInt8 → Option (EncryptionInfo × Nat)} {State : Type}

def SentPouch.taken (pouch : SentPouch cfg decode) (handling : HeaderHandling EncryptionInfo State)
    (state : State) (decodes : handling.cborDecodePouchHeader = decode)
    (accepted : (handling.cryptoDownlinkStart state pouch.info).1 = none) : WirePouch cfg handling state where
  header := pouch.header
  info := pouch.info
  blocks := pouch.blocks
  decoded := decodes ▸ pouch.decoded
  undecoded := decodes ▸ pouch.undecoded
  accepted := accepted

theorem SentPouch.taken_stands (pouch : SentPouch cfg decode) (handling : HeaderHandling EncryptionInfo State)
    (state : Downlink State) (decodes : handling.cborDecodePouchHeader = decode)
    (accepted : (handling.cryptoDownlinkStart state.crypto pouch.info).1 = none) (handed : Option Nat)
    (position : Nat) :
    StandsAt (pouch.taken handling state.crypto decodes accepted) handed position state ↔
      StandsAt pouch handed position ⟨state.pouchBuf, state.pouchHeader, ()⟩ := by
  cases handed with
  | none => exact ⟨fun stands => ⟨stands.1, rfl, stands.2.2⟩, fun stands => ⟨stands.1, rfl, stands.2.2⟩⟩
  | some handed => exact Iff.rfl

end Sent

section Behind

variable {Info State : Type} (cfg : Config) (first second : HeaderHandling Info State)

theorem pushTurn_behind (malloc : Option Memory) (state : Downlink State) (data : List UInt8)
    (header : state.pouchHeader = true) :
    pushTurn cfg first malloc state data = pushTurn cfg second malloc state data ∧
      (pushTurn cfg second malloc state data).state.pouchHeader = true := by
  simp only [pushTurn]
  cases state.pouchBuf with
  | none => exact ⟨rfl, header⟩
  | some buf =>
    simp only [header, if_true]
    split_ifs
    · exact ⟨trivial, header⟩
    · exact ⟨trivial, rfl⟩

theorem pushLoop_behind (fuel : Nat) (malloc : Nat → Option Memory) (state : Downlink State)
    (data : List UInt8) (header : state.pouchHeader = true) :
    pushLoop cfg first fuel malloc state data = pushLoop cfg second fuel malloc state data := by
  induction fuel generalizing malloc state data with
  | zero => rfl
  | succ fuel ih =>
    obtain ⟨same, still⟩ := pushTurn_behind cfg first second (malloc 0) state data header
    simp only [pushLoop, same, ih _ _ _ still]

end Behind

structure PushCall.Works {Key : Type} (call : PushCall Key)
    (decode : List UInt8 → Option (EncryptionInfo × Nat)) : Prop where
  decodes : call.decode = decode
  allocates : ∀ index, (call.malloc index).isSome = true

namespace Device

variable {Key : Type} {cfg : Config} {decode : List UInt8 → Option (EncryptionInfo × Nat)}
  (pouch : SentPouch cfg decode) (device : Device Key)

def frames (device : Device Key) : Downlink Unit :=
  ⟨device.downlink.pouchBuf.map Buf.data, device.downlink.pouchHeader, ()⟩

theorem pouchDownlinkPush_taken (call : PushCall Key) (handling : HeaderHandling EncryptionInfo (Crypto Key))
    (works : call.Works decode) (decodes : handling.cborDecodePouchHeader = decode)
    (accepted : (handling.cryptoDownlinkStart device.crypto pouch.info).1 = none) (before : Option Nat)
    (position target : Nat) (fits : pouch.header.length ≤ cfg.maxCiphertextBlockSize)
    (stands : StandsAt pouch before position device.frames) (start : pouch.framing.Between before position)
    (more : position < target) (ending : target ≤ pouch.stream.length) :
    let push := Pouch.pouchDownlinkPush cfg handling call.malloc device.framing
      (slice pouch.stream position target)
    ∃ after, pouch.framing.Receives target before position after ∧
      StandsAt pouch after target ⟨push.1.pouchBuf, push.1.pouchHeader, ()⟩ ∧
      pouch.blockBytes.take (before.getD 0) ++ push.2.map PouchBuf.contents =
        pouch.blockBytes.take (after.getD 0) := by
  let wire := SentPouch.taken pouch handling device.crypto decodes accepted
  have standing : StandsAt wire before position device.framing :=
    (SentPouch.taken_stands pouch handling device.framing decodes accepted before position).mpr stands
  have fitting : wire.header.length ≤ cfg.maxCiphertextBlockSize := fits
  obtain ⟨after, receives, afterStands, conserved⟩ := downlinkPush_receives call.malloc works.allocates
    device.framing before fitting standing start more ending
  refine ⟨after, receives, ?_, conserved⟩
  cases after with
  | none => exact ⟨afterStands.1, rfl, afterStands.2.2⟩
  | some handed => exact afterStands

theorem pouchDownlinkPush_arrives (call : PushCall Key) (works : call.Works decode) (before : Option Nat)
    (accepted : before = none → (device.crypto.downlinkStart cfg pouch.info call.keys).1 = none)
    (position target : Nat) (fits : pouch.header.length ≤ cfg.maxCiphertextBlockSize)
    (stands : StandsAt pouch before position device.frames) (start : pouch.framing.Between before position)
    (more : position < target) (ending : target ≤ pouch.stream.length) :
    let next := (device.pouchDownlinkPush cfg call (slice pouch.stream position target)).1
    ∃ after blocks, pouch.framing.Receives target before position after ∧
      StandsAt pouch after target next.frames ∧ Queued device.downlink next.downlink blocks ∧
      pouch.blockBytes.take (before.getD 0) ++ blocks.map (·.data.contents) =
        pouch.blockBytes.take (after.getD 0) := by
  obtain ⟨framing, blocks, queued, sent⟩ := device.pouchDownlinkPush_refines cfg call
    (slice pouch.stream position target)
  have contents (bufs : List Buf) : bufs.map (·.data.contents) = (bufs.map Buf.data).map PouchBuf.contents := by
    rw [List.map_map]
    rfl
  simp only [contents]
  have frames : (device.pouchDownlinkPush cfg call (slice pouch.stream position target)).1.frames =
      ⟨((device.pouchDownlinkPush cfg call (slice pouch.stream position target)).1.framing).pouchBuf,
        ((device.pouchDownlinkPush cfg call (slice pouch.stream position target)).1.framing).pouchHeader, ()⟩ := rfl
  rw [frames, framing]
  cases before with
  | none =>
    obtain ⟨after, receives, afterStands, conserved⟩ := pouchDownlinkPush_taken pouch device call
      (call.handling cfg) works works.decodes (accepted rfl) none position target fits stands start more ending
    refine ⟨after, blocks, receives, afterStands, queued, ?_⟩
    rw [sent]
    exact conserved
  | some handed =>
    -- The header has been taken, so that the real crypto layer makes no difference.
    have header : device.framing.pouchHeader = true := stands.1
    have same := pushLoop_behind cfg (call.handling cfg) (decodingOnly (Crypto Key) decode)
      (slice pouch.stream position target).length call.malloc device.framing (slice pouch.stream position target)
      header
    obtain ⟨after, receives, afterStands, conserved⟩ := pouchDownlinkPush_taken pouch device call
      (decodingOnly (Crypto Key) decode) works rfl rfl (some handed) position target fits stands start more ending
    rw [Pouch.pouchDownlinkPush, same] at sent ⊢
    refine ⟨after, blocks, receives, afterStands, queued, ?_⟩
    rw [sent]
    exact conserved

end Device

section Opening

variable {Key : Type} {cfg : Config} {decode : List UInt8 → Option (EncryptionInfo × Nat)}

theorem loop_opens (call : PushCall Key) (fuel index : Nat) (push : PushState Key) (data : List UInt8)
    (header : push.state.pouchHeader = false)
    (opened : (PushState.loop cfg call fuel index push data).state.pouchHeader = true) :
    let turn := pushTurn cfg (call.handling cfg) (call.malloc index) push.framing data
    turn.state.pouchHeader = true ∧
      (PushState.loop cfg call fuel index push data).crypto = turn.state.crypto := by
  cases fuel with
  | zero => simp [PushState.loop, header] at opened
  | succ fuel =>
    simp only [PushState.loop] at opened ⊢
    by_cases empty : data.length = 0
    next => simp [empty, header] at opened
    next =>
      rw [if_neg empty] at opened ⊢
      generalize made : pushTurn cfg (call.handling cfg) (call.malloc index) push.framing data = turn at opened ⊢
      by_cases returned : turn.returned = true
      next =>
        rw [if_pos returned, turn_header] at opened
        rw [if_pos returned, turn_crypto]
        exact ⟨opened, rfl⟩
      next =>
        rw [if_neg returned]
        have taken : turn.state.pouchHeader = true := by
          by_contra untaken
          have shape : push.framing.pouchHeader = false := header
          subst made
          revert returned untaken
          unfold pushTurn
          cases push.framing.pouchBuf with
          | none => simp
          | some buf =>
            simp only [shape, Bool.false_eq_true, if_false]
            split_ifs
            · simp
            · generalize pouchDownlinkParseHeader cfg (call.handling cfg) push.framing.crypto _ = parsed
              obtain ⟨outcome, crypto⟩ := parsed
              cases outcome <;> simp
        have rest := loop_effect cfg call fuel (index + 1) (push.turn turn) turn.unread
        have behind := rest.behind (by rw [turn_header]; exact taken)
        exact ⟨taken, by rw [behind.2, turn_crypto]⟩

theorem pushTurn_opens {State : Type} (handling : HeaderHandling EncryptionInfo State) (malloc : Option Memory)
    (state : Downlink State) (data : List UInt8) (header : state.pouchHeader = false) (buf : PouchBuf)
    (held : state.pouchBuf = some buf) (room : buf.bytes < cfg.maxCiphertextBlockSize)
    (opened : (pushTurn cfg handling malloc state data).state.pouchHeader = true) :
    let written := bufWrite buf (data.take (min data.length (cfg.maxCiphertextBlockSize - bufSizeGet buf)))
    ∃ info headerLen, handling.cborDecodePouchHeader written.contents = some (info, headerLen) ∧
      (pushTurn cfg handling malloc state data).state.crypto = (handling.cryptoDownlinkStart state.crypto info).2 := by
  intro written
  have copied := copied_room cfg buf data room
  have fits := Nat.lt_of_le_of_lt copied.within cfg.maxCiphertextBlockSize_fits
  have parsed : pouchDownlinkParseHeader cfg handling state.crypto (pouchBufviewInit written) = _ :=
    parseHeader_eq state.crypto written fits
  have notFull : ¬ cfg.maxCiphertextBlockSize ≤ bufSizeGet buf := Nat.not_le.mpr room
  simp only [pushTurn, held, notFull, header, if_false, Bool.false_eq_true] at opened ⊢
  rw [parsed] at opened ⊢
  cases decoded : handling.cborDecodePouchHeader written.contents with
  | none => simp [decoded] at opened
  | some decoding =>
    obtain ⟨info, headerLen⟩ := decoding
    refine ⟨info, headerLen, rfl, ?_⟩
    simp only [decoded] at opened ⊢
    generalize handling.cryptoDownlinkStart state.crypto info = started at opened ⊢
    obtain ⟨status, next⟩ := started
    cases status with
    | none => rfl
    | some err => simp at opened

theorem Device.pouchDownlinkPush_opens (pouch : SentPouch cfg decode) (device : Device Key) (call : PushCall Key)
    (works : call.Works decode) (position target : Nat) (room : position < cfg.maxCiphertextBlockSize)
    (stands : StandsAt pouch none position device.frames) (more : position ≤ target)
    (ending : target ≤ pouch.stream.length)
    (opened : (device.pouchDownlinkPush cfg call (slice pouch.stream position target)).1.downlink.pouchHeader = true) :
    (device.pouchDownlinkPush cfg call (slice pouch.stream position target)).1.crypto =
      (device.crypto.downlinkStart cfg pouch.info call.keys).2 := by
  obtain ⟨header, _, buf, held, contents⟩ := stands
  obtain ⟨taken, crypto⟩ := loop_opens call _ 0 ⟨device.pool, device.crypto, device.downlink⟩ _ header opened
  obtain ⟨notFull, written, _, _⟩ := bufWrite_filled 0 buf contents (Nat.zero_le _) (by omega) more ending
  obtain ⟨info, headerLen, decoded, started⟩ := pushTurn_opens (call.handling cfg) (call.malloc 0)
    ⟨device.downlink.pouchBuf.map Buf.data, device.downlink.pouchHeader, device.crypto⟩ _ header buf held notFull taken
  rw [Nat.zero_add, slice_zero] at written
  rw [written] at decoded
  have announced : info = pouch.info := by
    have decodes : (call.handling cfg).cborDecodePouchHeader = decode := works.decodes
    rw [decodes] at decoded
    by_cases seen : pouch.header.length ≤ min target cfg.maxCiphertextBlockSize
    next =>
      have complete := pouch.decoded
        (pouch.blockBytes.flatten.take (min target cfg.maxCiphertextBlockSize - pouch.header.length))
      rw [WirePouch.stream, List.take_append, List.take_of_length_le seen] at decoded
      have same := complete.symm.trans decoded
      simp only [Option.some.injEq, Prod.mk.injEq] at same
      exact same.1.symm
    next =>
      have incomplete := pouch.undecoded _ (Nat.not_le.mp seen)
      rw [WirePouch.stream, List.take_append_of_le_length (by omega)] at decoded
      simp only [decodingOnly] at incomplete
      rw [incomplete] at decoded
      cases decoded
  rw [← announced]
  exact crypto.trans started

end Opening

end Pouch
