import Pouch.DownlinkFraming
import Pouch.Shared.History
import Pouch.Shared.Reassembly
import Pouch.WireFormat

set_option autoImplicit false

namespace Pouch

open ByteMemory
open Reassembly

structure WireFrame (cfg : Config) where
  body : List UInt8
  nonempty : 1 ≤ body.length
  supported : body.length ≤ cfg.maxBlockSizeFieldValue
  field : body.length < 65536

namespace WireFrame

variable {cfg : Config}

def bytes (frame : WireFrame cfg) : List UInt8 := putBe16 frame.body.length ++ frame.body

theorem bytes_length (frame : WireFrame cfg) : frame.bytes.length = frame.body.length + 2 := by
  simp only [bytes, List.length_append, putBe16_length]
  omega

theorem bytes_length_le (frame : WireFrame cfg) :
    frame.bytes.length ≤ cfg.maxCiphertextBlockSize := by
  have supported := frame.supported
  have room := cfg.maxPlaintextBlockSize_ge
  rw [frame.bytes_length]
  simp only [Config.maxBlockSizeFieldValue, Config.maxCiphertextBlockSize] at supported ⊢
  omega

end WireFrame

section Cut

variable {cfg : Config} {buf : PouchBuf}

theorem blockSize_read (frame : WireFrame cfg) (rest : List UInt8) (fits : buf.bytes < cfg.sizeRange)
    (contents : buf.contents = putBe16 frame.body.length ++ rest) :
    (pouchBufviewReadBe16 cfg (pouchBufviewInit buf)).1 = frame.body.length ∧
      (pouchBufviewReadBe16 cfg (pouchBufviewInit buf)).2.At buf rest := by
  have start := Bufview.At.start buf
  rw [contents] at start
  have read := start.readBe16_put _ fits
  rwa [Nat.mod_eq_of_lt frame.field] at read

theorem pushBlock_complete (frame : WireFrame cfg) (rest : List UInt8) (memory : Memory)
    (fits : buf.bytes < cfg.sizeRange) (contents : buf.contents = frame.bytes ++ rest) :
    ∃ next sent, pushBlock cfg (some memory) buf = ⟨some next, [sent], false⟩ ∧
      next.contents = rest ∧ sent.contents = frame.bytes := by
  have length := congrArg List.length contents
  simp only [PouchBuf.contents_length, List.length_append, frame.bytes_length] at length
  have nonempty := frame.nonempty
  have available := (Bufview.At.start buf).available fits
  rw [PouchBuf.contents_length] at available
  rw [WireFrame.bytes, List.append_assoc] at contents
  obtain ⟨size, bodyAt⟩ := blockSize_read frame _ fits contents
  have behind := bodyAt.available fits
  have supported : ¬ cfg.maxBlockSizeFieldValue < frame.body.length := Nat.not_lt.mpr frame.supported
  simp only [List.length_append] at behind
  simp only [pushBlock, available, size, behind, supported, bufAlloc, Option.map_some, if_false,
    Nat.le_add_right, if_true, show 2 < buf.bytes by omega]
  by_cases more : frame.body.length < frame.body.length + rest.length
  · rw [if_pos more, bodyAt.read fits 0 (Nat.zero_le _)]
    have stillAt := bodyAt.advance fits 0 (Nat.zero_le _)
    have left := stillAt.available fits
    have copied := bodyAt.loaded_drop frame.body.length (by simp)
    simp only [List.drop_zero, List.length_append] at left
    simp only [List.length_append, Nat.add_sub_cancel_left, List.drop_left] at copied
    have remainingLen : cfg.sizeSub (frame.body.length + rest.length) frame.body.length =
        rest.length := by
      rw [cfg.sizeSub_of_le _ _ (Nat.le_add_right _ _) (by omega), Nat.add_sub_cancel_left]
    refine ⟨_, _, rfl, ?_, ?_⟩
    · rw [bufWrite_contents, left, remainingLen]
      exact copied
    · rw [bufTrimEnd_contents, left, remainingLen, contents, WireFrame.bytes, ← List.append_assoc]
      exact List.take_left' (by simp only [List.length_append, putBe16_length]; omega)
  · rw [if_neg more]
    obtain rfl : rest = [] := List.eq_nil_of_length_eq_zero (by omega)
    refine ⟨_, _, rfl, rfl, ?_⟩
    simpa [WireFrame.bytes] using contents

theorem pushBlock_partial (frame : WireFrame cfg) (malloc : Option Memory)
    (fits : buf.bytes < cfg.sizeRange) (short : buf.bytes < frame.bytes.length)
    (contents : buf.contents = frame.bytes.take buf.bytes) :
    pushBlock cfg malloc buf = ⟨some buf, [], false⟩ := by
  have available := (Bufview.At.start buf).available fits
  rw [PouchBuf.contents_length] at available
  simp only [pushBlock, available]
  by_cases field : 2 < buf.bytes
  · rw [frame.bytes_length] at short
    have body : buf.contents = putBe16 frame.body.length ++ frame.body.take (buf.bytes - 2) := by
      rw [contents, WireFrame.bytes, List.take_append, putBe16_length, List.take_of_length_le]
      rw [putBe16_length]
      omega
    obtain ⟨size, bodyAt⟩ := blockSize_read frame _ fits body
    have behind := bodyAt.available fits
    have supported : ¬ cfg.maxBlockSizeFieldValue < frame.body.length :=
      Nat.not_lt.mpr frame.supported
    have incomplete : ¬ frame.body.length ≤ (frame.body.take (buf.bytes - 2)).length := by
      simp only [List.length_take]
      omega
    simp only [field, size, behind, supported, incomplete, if_true, if_false]
  · simp only [field, if_false]

end Cut

/-- A pouch whose header is accepted: the decoder takes it as soon as it is complete, whatever
follows, and the crypto layer takes what was decoded. -/
structure WirePouch {Info Crypto : Type} (cfg : Config) (handling : HeaderHandling Info Crypto)
    (crypto : Crypto) where
  header : List UInt8
  info : Info
  blocks : List (WireFrame cfg)
  decoded : ∀ tail, handling.cborDecodePouchHeader (header ++ tail) = some (info, header.length)
  undecoded : ∀ count < header.length, handling.cborDecodePouchHeader (header.take count) = none
  accepted : (handling.cryptoDownlinkStart crypto info).1 = none

namespace WirePouch

variable {Info Crypto : Type} {cfg : Config} {handling : HeaderHandling Info Crypto}
  {crypto : Crypto} (pouch : WirePouch cfg handling crypto)

def blockBytes : List (List UInt8) := pouch.blocks.map WireFrame.bytes

def stream : List UInt8 := pouch.header ++ pouch.blockBytes.flatten

def bound (index : Nat) : Nat := pouch.header.length + (pouch.blockBytes.take index).flatten.length

@[simp] theorem blockBytes_length : pouch.blockBytes.length = pouch.blocks.length :=
  List.length_map _

theorem bound_succ (index : Nat) (within : index < pouch.blocks.length) :
    pouch.bound (index + 1) = pouch.bound index + pouch.blocks[index].bytes.length := by
  have inside : index < pouch.blockBytes.length := by simpa using within
  have grown := flatten_take_succ pouch.blockBytes index inside
  have block : pouch.blockBytes[index] = pouch.blocks[index].bytes := List.getElem_map _
  rw [bound, grown, block, bound, Nat.add_assoc]

theorem bound_grows (index : Nat) (within : index < pouch.blocks.length) :
    pouch.bound index < pouch.bound (index + 1) := by
  rw [pouch.bound_succ index within, pouch.blocks[index].bytes_length]
  omega

theorem bound_small (index : Nat) (within : index < pouch.blocks.length) :
    pouch.bound (index + 1) ≤ pouch.bound index + cfg.maxCiphertextBlockSize := by
  rw [pouch.bound_succ index within]
  exact Nat.add_le_add_left pouch.blocks[index].bytes_length_le _

def framing : Framing where
  capacity := cfg.maxCiphertextBlockSize
  count := pouch.blocks.length
  bound := pouch.bound
  positive := cfg.maxCiphertextBlockSize_pos
  grows := pouch.bound_grows
  small := pouch.bound_small

theorem bound_zero : pouch.bound 0 = pouch.header.length := by simp [bound]

theorem bound_count : pouch.bound pouch.blocks.length = pouch.stream.length := by
  rw [bound, ← pouch.blockBytes_length, List.take_length, stream, List.length_append]

theorem slice_block (index : Nat) (within : index < pouch.blocks.length) :
    slice pouch.stream (pouch.bound index) (pouch.bound (index + 1)) =
      pouch.blocks[index].bytes := by
  have inside : index < pouch.blockBytes.length := by simpa using within
  have parts := slice_flatten (pouch.header :: pouch.blockBytes) (index + 1)
    (Nat.succ_lt_succ inside)
  have block : pouch.blockBytes[index] = pouch.blocks[index].bytes := List.getElem_map _
  simpa [stream, bound, block] using parts

end WirePouch

section Simulation

variable {Info Crypto : Type} {cfg : Config} {handling : HeaderHandling Info Crypto}
  {crypto : Crypto} {pouch : WirePouch cfg handling crypto} {handed position target : Nat}

theorem pushBlock_handOver (memory : Memory) (buf : PouchBuf) (within : handed ≤ pouch.blocks.length)
    (reached : pouch.bound handed ≤ position) (ending : position ≤ pouch.stream.length)
    (fits : buf.bytes < cfg.sizeRange)
    (contents : buf.contents = slice pouch.stream (pouch.bound handed) position) :
    ∃ next sent, pushBlock cfg (some memory) buf = ⟨some next, sent, false⟩ ∧
      next.contents =
        slice pouch.stream (pouch.bound (pouch.framing.handOver handed position)) position ∧
      pouch.blockBytes.take handed ++ sent.map PouchBuf.contents =
        pouch.blockBytes.take (pouch.framing.handOver handed position) := by
  have bytes : buf.bytes = position - pouch.bound handed := by
    have length := congrArg List.length contents
    rwa [PouchBuf.contents_length, slice_length _ _ _ ending] at length
  simp only [Framing.handOver]
  split_ifs with ready
  · obtain ⟨more, complete⟩ : handed < pouch.blocks.length ∧ pouch.bound (handed + 1) ≤ position :=
      ready
    have split := slice_append pouch.stream (pouch.framing.grows handed more).le complete
    have block := pouch.slice_block handed more
    obtain ⟨next, sent, pushed, rest, whole⟩ := pushBlock_complete pouch.blocks[handed]
      (slice pouch.stream (pouch.bound (handed + 1)) position) memory fits
      (by rw [contents, ← block]; exact split.symm)
    refine ⟨next, [sent], pushed, rest, ?_⟩
    have inside : handed < pouch.blockBytes.length := by simpa using more
    have same : pouch.blockBytes[handed] = sent.contents := by
      rw [whole]
      exact List.getElem_map _
    rw [List.take_succ_eq_append_getElem inside, same]
    rfl
  · refine ⟨buf, [], ?_, contents, by simp⟩
    rcases Nat.lt_or_eq_of_le within with more | rfl
    · have incomplete : position < pouch.bound (handed + 1) := by
        by_contra arrived
        exact ready ⟨more, Nat.not_lt.mp arrived⟩
      have length := pouch.bound_succ handed more
      apply pushBlock_partial pouch.blocks[handed] _ fits (by omega)
      rw [← pouch.slice_block handed more, slice_take, contents, bytes]
      congr 1
      omega
    · have empty : buf.bytes = 0 := by
        rw [pouch.bound_count] at bytes
        omega
      have available := (Bufview.At.start buf).available fits
      rw [PouchBuf.contents_length, empty] at available
      simp [pushBlock, available]

theorem bufWrite_filled (start : Nat) (buf : PouchBuf)
    (contents : buf.contents = slice pouch.stream start position) (begun : start ≤ position)
    (room : position < start + cfg.maxCiphertextBlockSize) (more : position ≤ target)
    (ending : target ≤ pouch.stream.length) :
    let data := slice pouch.stream position target
    let bufWritten := min data.length (cfg.maxCiphertextBlockSize - bufSizeGet buf)
    let filled := min target (start + cfg.maxCiphertextBlockSize)
    bufSizeGet buf < cfg.maxCiphertextBlockSize ∧
      (bufWrite buf (data.take bufWritten)).contents = slice pouch.stream start filled ∧
      (bufWrite buf (data.take bufWritten)).bytes < cfg.sizeRange ∧
      data.drop bufWritten = slice pouch.stream filled target := by
  intro data bufWritten filled
  have bytes : bufSizeGet buf = position - start := by
    have length := congrArg List.length contents
    rwa [PouchBuf.contents_length, slice_length _ _ _ (by omega)] at length
  have dataLength : data.length = target - position := slice_length _ _ _ ending
  have reached : position + bufWritten = filled := by
    simp only [bufWritten, filled, dataLength, bytes]
    omega
  have written : (bufWrite buf (data.take bufWritten)).contents = slice pouch.stream start filled := by
    have taken : min target (position + bufWritten) = filled := by omega
    rw [bufWrite_contents, contents, slice_take, taken]
    exact slice_append _ begun (by omega)
  refine ⟨by omega, written, ?_, ?_⟩
  · have length := congrArg List.length written
    rw [PouchBuf.contents_length, slice_length _ _ _ (by omega)] at length
    have range := cfg.sizeRange_ge
    have small := cfg.maxCiphertextBlockSize_lt
    omega
  · rw [slice_drop, reached]

variable (pouch) in
def StandsAt : Option Nat → Nat → Downlink Crypto → Prop
  | none, position, state => state.pouchHeader = false ∧ state.crypto = crypto ∧
      ∃ buf, state.pouchBuf = some buf ∧ buf.contents = slice pouch.stream 0 position
  | some handed, position, state => state.pouchHeader = true ∧
      ∃ buf, state.pouchBuf = some buf ∧
        buf.contents = slice pouch.stream (pouch.bound handed) position

theorem pushTurn_frames (memory : Memory) (state : Downlink Crypto)
    (stands : StandsAt pouch (some handed) position state)
    (start : pouch.framing.Within handed position) (more : position ≤ target)
    (ending : target ≤ pouch.stream.length) :
    let filled := pouch.framing.filled target handed
    let after := pouch.framing.handOver handed filled
    ∃ next sent, pushTurn cfg handling (some memory) state (slice pouch.stream position target) =
        ⟨next, slice pouch.stream filled target, sent, false⟩ ∧
      StandsAt pouch (some after) filled next ∧
      pouch.blockBytes.take handed ++ sent.map PouchBuf.contents = pouch.blockBytes.take after := by
  intro filled after
  obtain ⟨header, buf, held, contents⟩ := stands
  obtain ⟨counted, reached, room⟩ := start
  obtain ⟨notFull, written, fits, unread⟩ :=
    bufWrite_filled (pouch.bound handed) buf contents reached room more ending
  have begun : pouch.bound handed ≤ filled :=
    Nat.le_min.mpr ⟨Nat.le_trans reached more, Nat.le_add_right _ _⟩
  obtain ⟨next, sent, pushed, rest, conserved⟩ := pushBlock_handOver memory _ counted begun
    (Nat.le_trans (Nat.min_le_left _ _) ending) fits written
  refine ⟨{ state with pouchBuf := some next }, sent, ?_, ⟨header, next, rfl, rest⟩, conserved⟩
  simp only [pushTurn, held, header, Nat.not_le.mpr notFull, if_false, if_true, pushed, unread]
  rfl

theorem pushLoop_refills (fuel : Nat) (malloc : Nat → Option Memory)
    (allocates : ∀ index, (malloc index).isSome) (state : Downlink Crypto)
    (stands : StandsAt pouch (some handed) position state)
    (start : pouch.framing.Within handed position) (more : position ≤ target)
    (ending : target ≤ pouch.stream.length) (enough : target - position ≤ fuel) :
    let loop := pushLoop cfg handling fuel malloc state (slice pouch.stream position target)
    ∃ final, pouch.framing.Refills target handed position final ∧
      StandsAt pouch (some final) target loop.1 ∧
      pouch.blockBytes.take handed ++ loop.2.map PouchBuf.contents =
        pouch.blockBytes.take final := by
  induction fuel generalizing malloc state handed position with
  | zero =>
    obtain rfl : position = target := by omega
    exact ⟨handed, .done handed, stands, by simp [pushLoop]⟩
  | succ fuel ih =>
    by_cases arrived : position = target
    · subst arrived
      exact ⟨handed, .done handed, by simpa [pushLoop] using stands, by simp [pushLoop]⟩
    · have length := slice_length pouch.stream position target ending
      have unread : ¬ (slice pouch.stream position target).length = 0 := by omega
      obtain ⟨memory, allocated⟩ := Option.isSome_iff_exists.mp (allocates 0)
      obtain ⟨next, sent, turned, nextStands, conserved⟩ :=
        pushTurn_frames memory state stands start more ending
      have bounded : target ≤ pouch.framing.bound pouch.framing.count :=
        Nat.le_trans ending (Nat.le_of_eq pouch.bound_count.symm)
      have nextStart := start.handOver more bounded
      have filled : position < pouch.framing.filled target handed := by
        have room := start.room
        simp only [Framing.filled]
        omega
      obtain ⟨final, refills, finalStands, rest⟩ :=
        ih (fun index => malloc (index + 1)) (fun index => allocates (index + 1)) next nextStands
          nextStart (Nat.min_le_left _ _) (by omega)
      refine ⟨final, .turn _ _ _ (by omega) refills, ?_⟩
      simp only [pushLoop, unread, if_false, allocated, turned, Bool.false_eq_true]
      refine ⟨finalStands, ?_⟩
      rw [List.map_append, ← List.append_assoc, conserved, rest]

theorem parseHeader_eq (state : Crypto) (buf : PouchBuf) (fits : buf.bytes < cfg.sizeRange) :
    pouchDownlinkParseHeader cfg handling state (pouchBufviewInit buf) =
      match handling.cborDecodePouchHeader buf.contents with
      | none => (.error .eio, state)
      | some (info, headerLen) =>
        match handling.cryptoDownlinkStart state info with
        | (some err, next) => (.error err, next)
        | (none, next) => (.ok headerLen, next) := by
  have start := Bufview.At.start buf
  have stillAt := start.advance fits 0 (Nat.zero_le _)
  have available := stillAt.available fits
  have loaded := stillAt.loaded
  simp only [List.drop_zero] at available loaded
  have offset : (bufviewRead cfg (pouchBufviewInit buf) 0).2.offset = 0 := Nat.zero_mod _
  rw [offset] at loaded
  simp only [pouchDownlinkParseHeader, start.read fits 0 (Nat.zero_le _), available]
  have raw : load (bufviewRead cfg (pouchBufviewInit buf) 0).2.memory
      ((some (pouchBufviewInit buf).offset).getD 0) buf.contents.length = buf.contents := loaded
  rewrite [raw]
  rfl

theorem pushTurn_waiting (malloc : Option Memory) (state : Downlink Crypto)
    (stands : StandsAt pouch none position state) (room : position < cfg.maxCiphertextBlockSize)
    (more : position ≤ target) (ending : target ≤ pouch.stream.length)
    (short : min target cfg.maxCiphertextBlockSize < pouch.header.length) :
    let filled := min target cfg.maxCiphertextBlockSize
    ∃ next, pushTurn cfg handling malloc state (slice pouch.stream position target) =
        ⟨next, slice pouch.stream filled target, [], true⟩ ∧
      StandsAt pouch none filled next := by
  intro filled
  obtain ⟨header, started, buf, held, contents⟩ := stands
  obtain ⟨notFull, written, fits, unread⟩ :=
    bufWrite_filled 0 buf contents (Nat.zero_le _) (by omega) more ending
  rw [Nat.zero_add] at written unread
  have incomplete : handling.cborDecodePouchHeader
      (slice pouch.stream 0 (min target cfg.maxCiphertextBlockSize)) = none := by
    rw [slice_zero, WirePouch.stream, List.take_append_of_le_length (Nat.le_of_lt short)]
    exact pouch.undecoded _ short
  refine ⟨{ state with pouchBuf := some _ }, ?_, ⟨header, started, _, rfl, written⟩⟩
  simp only [pushTurn, held, header, Nat.not_le.mpr notFull, if_false, Bool.false_eq_true,
    parseHeader_eq _ _ fits, written, incomplete, unread, filled]

theorem pushTurn_preamble (memory : Memory) (state : Downlink Crypto)
    (stands : StandsAt pouch none position state) (room : position < cfg.maxCiphertextBlockSize)
    (more : position ≤ target) (ending : target ≤ pouch.stream.length)
    (seen : pouch.header.length ≤ min target cfg.maxCiphertextBlockSize) :
    let filled := min target cfg.maxCiphertextBlockSize
    let after := pouch.framing.handOver 0 filled
    ∃ next sent, pushTurn cfg handling (some memory) state (slice pouch.stream position target) =
        ⟨next, slice pouch.stream filled target, sent, false⟩ ∧
      StandsAt pouch (some after) filled next ∧
      sent.map PouchBuf.contents = pouch.blockBytes.take after := by
  intro filled after
  obtain ⟨header, started, buf, held, contents⟩ := stands
  obtain ⟨notFull, written, fits, unread⟩ :=
    bufWrite_filled 0 buf contents (Nat.zero_le _) (by omega) more ending
  rw [Nat.zero_add] at written unread
  have complete : handling.cborDecodePouchHeader
      (slice pouch.stream 0 (min target cfg.maxCiphertextBlockSize)) =
        some (pouch.info, pouch.header.length) := by
    rw [slice_zero, WirePouch.stream, List.take_append, List.take_of_length_le seen]
    exact pouch.decoded _
  have started' : handling.cryptoDownlinkStart state.crypto pouch.info =
      (none, (handling.cryptoDownlinkStart crypto pouch.info).2) := by
    rw [started]
    exact Prod.ext pouch.accepted rfl
  have aligned := bufTrimStart_contents (bufWrite buf ((slice pouch.stream position target).take
    (min (slice pouch.stream position target).length
      (cfg.maxCiphertextBlockSize - bufSizeGet buf)))) pouch.header.length
  rw [written, slice_drop, Nat.zero_add] at aligned
  nth_rewrite 2 [← pouch.bound_zero] at aligned
  have begun : pouch.bound 0 ≤ filled := by rwa [pouch.bound_zero]
  obtain ⟨next, sent, pushed, rest, conserved⟩ := pushBlock_handOver memory _ (Nat.zero_le _) begun
    (Nat.le_trans (Nat.min_le_left _ _) ending)
    (Nat.lt_of_le_of_lt (Nat.sub_le _ _) fits) aligned
  refine ⟨⟨some next, true, (handling.cryptoDownlinkStart crypto pouch.info).2⟩, sent, ?_,
    ⟨rfl, next, rfl, rest⟩, by simpa using conserved⟩
  simp only [pushTurn, held, header, Nat.not_le.mpr notFull, if_false, Bool.false_eq_true,
    parseHeader_eq _ _ fits, written, complete, started', pushed, unread]
  rfl

/-- One push of a chunk simulates the arrival of that part of the stream. -/
theorem downlinkPush_receives (malloc : Nat → Option Memory)
    (allocates : ∀ index, (malloc index).isSome) (state : Downlink Crypto) (before : Option Nat)
    (fits : pouch.header.length ≤ cfg.maxCiphertextBlockSize)
    (stands : StandsAt pouch before position state)
    (start : pouch.framing.Between before position) (more : position < target)
    (ending : target ≤ pouch.stream.length) :
    let push := pouchDownlinkPush cfg handling malloc state (slice pouch.stream position target)
    ∃ after, pouch.framing.Receives target before position after ∧
      StandsAt pouch after target push.1 ∧
      pouch.blockBytes.take (before.getD 0) ++ push.2.map PouchBuf.contents =
        pouch.blockBytes.take (after.getD 0) := by
  have length := slice_length pouch.stream position target ending
  have bounded : target ≤ pouch.framing.bound pouch.framing.count :=
    Nat.le_trans ending (Nat.le_of_eq pouch.bound_count.symm)
  cases before with
  | some handed =>
    obtain ⟨final, refills, finalStands, conserved⟩ := pushLoop_refills _ malloc allocates state stands
      start.1 (Nat.le_of_lt more) ending (Nat.le_of_eq length.symm)
    exact ⟨some final, .frames _ _ _ refills, finalStands, conserved⟩
  | none =>
    have capacity := pouch.framing.positive
    have waiting : position < max 1 pouch.header.length := by
      rw [← pouch.bound_zero]
      exact start
    have room : position < cfg.maxCiphertextBlockSize := by
      have positive : 0 < cfg.maxCiphertextBlockSize := capacity
      omega
    obtain ⟨fuel, chunk⟩ : ∃ fuel, (slice pouch.stream position target).length = fuel + 1 :=
      Nat.exists_eq_succ_of_ne_zero (by omega)
    by_cases seen : pouch.header.length ≤ target
    · have inBuffer : pouch.header.length ≤ min target cfg.maxCiphertextBlockSize := by omega
      obtain ⟨memory, allocated⟩ := Option.isSome_iff_exists.mp (allocates 0)
      obtain ⟨next, sent, turned, nextStands, conserved⟩ :=
        pushTurn_preamble memory state stands room (Nat.le_of_lt more) ending inBuffer
      have within : pouch.framing.Within _ (min target pouch.framing.capacity) :=
        Framing.preamble_within (pouch.bound_zero.trans_le fits) (by omega)
          (pouch.bound_zero.trans_le seen) bounded
      obtain ⟨final, refills, finalStands, rest⟩ := pushLoop_refills fuel
        (fun index => malloc (index + 1)) (fun index => allocates (index + 1)) next nextStands
        within (Nat.min_le_left _ _) ending (by omega)
      refine ⟨some final, .preamble _ _ (pouch.bound_zero.trans_le seen) refills, ?_⟩
      simp only [pouchDownlinkPush, chunk, pushLoop, Nat.add_one_ne_zero, if_false, allocated,
        turned, Bool.false_eq_true]
      refine ⟨finalStands, ?_⟩
      rw [List.map_append, Option.getD_none, List.take_zero, List.nil_append, conserved]
      exact rest
    · have short : min target cfg.maxCiphertextBlockSize < pouch.header.length := by omega
      obtain ⟨next, turned, nextStands⟩ :=
        pushTurn_waiting (malloc 0) state stands room (Nat.le_of_lt more) ending short
      have all : min target cfg.maxCiphertextBlockSize = target := by omega
      rw [all] at nextStands
      have notYet : target < pouch.framing.bound 0 := by
        have zero : pouch.framing.bound 0 = pouch.header.length := pouch.bound_zero
        omega
      refine ⟨none, .waiting _ notYet, ?_⟩
      simp only [pouchDownlinkPush, chunk, pushLoop, Nat.add_one_ne_zero, if_false, turned, if_true]
      exact ⟨nextStands, by simp⟩

theorem downlinkPush_overlong (malloc : Nat → Option Memory) (state : Downlink Crypto)
    (overlong : cfg.maxCiphertextBlockSize < pouch.header.length)
    (stands : StandsAt pouch none (min position cfg.maxCiphertextBlockSize) state)
    (more : position < target) (ending : target ≤ pouch.stream.length) :
    let push := pouchDownlinkPush cfg handling malloc state (slice pouch.stream position target)
    StandsAt pouch none (min target cfg.maxCiphertextBlockSize) push.1 ∧ push.2 = [] := by
  have length := slice_length pouch.stream position target ending
  obtain ⟨fuel, chunk⟩ : ∃ fuel, (slice pouch.stream position target).length = fuel + 1 :=
    Nat.exists_eq_succ_of_ne_zero (by omega)
  simp only [pouchDownlinkPush, chunk, pushLoop, Nat.add_one_ne_zero, if_false]
  by_cases room : position < cfg.maxCiphertextBlockSize
  · rw [Nat.min_eq_left (Nat.le_of_lt room)] at stands
    obtain ⟨next, turned, nextStands⟩ := pushTurn_waiting (malloc 0) state stands room
      (Nat.le_of_lt more) ending (by omega)
    simp only [turned, if_true]
    exact ⟨nextStands, trivial⟩
  · have full : min position cfg.maxCiphertextBlockSize = min target cfg.maxCiphertextBlockSize := by
      omega
    obtain ⟨header, started, buf, held, contents⟩ := stands
    have size : cfg.maxCiphertextBlockSize ≤ bufSizeGet buf := by
      have bytes := congrArg List.length contents
      rw [PouchBuf.contents_length, slice_length _ _ _ (by omega)] at bytes
      simp only [bufSizeGet, bytes]
      omega
    simp only [pushTurn, held, size, if_true]
    exact ⟨⟨header, started, buf, held, full ▸ contents⟩, trivial⟩

end Simulation

end Pouch
