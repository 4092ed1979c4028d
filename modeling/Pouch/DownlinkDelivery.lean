import Mathlib.Data.List.TakeDrop
import Pouch.DownlinkReassembly

set_option autoImplicit false

namespace Pouch

open ByteMemory
open Reassembly

structure DownlinkChunk where
  data : List UInt8
  malloc : Nat → Option Memory

-- What is reported are the buffers handed to `block_downlink_push`.
def downlinkStep {Info Crypto : Type} (cfg : Config) (handling : HeaderHandling Info Crypto)
    (state : Downlink Crypto) (chunk : DownlinkChunk) : Downlink Crypto × List PouchBuf :=
  pouchDownlinkPush cfg handling chunk.malloc state chunk.data

def arrivedBytes (chunks : List DownlinkChunk) (count : Nat) : Nat :=
  ((chunks.map DownlinkChunk.data).take count).flatten.length

structure CutInto (stream : List UInt8) (chunks : List DownlinkChunk) : Prop where
  whole : (chunks.map DownlinkChunk.data).flatten = stream
  nonempty : ∀ chunk ∈ chunks, chunk.data ≠ []
  allocates : ∀ chunk ∈ chunks, ∀ index, (chunk.malloc index).isSome

namespace CutInto

variable {stream : List UInt8} {chunks : List DownlinkChunk}

theorem chunk_slice (cut : CutInto stream chunks) (index : Nat) (within : index < chunks.length) :
    chunks[index].data =
      slice stream (arrivedBytes chunks index) (arrivedBytes chunks (index + 1)) := by
  have inside : index < (chunks.map DownlinkChunk.data).length := by simpa using within
  have part := slice_flatten (chunks.map DownlinkChunk.data) index inside
  rw [cut.whole, List.getElem_map] at part
  exact part.symm

theorem arrived_lt (cut : CutInto stream chunks) (index : Nat) (within : index < chunks.length) :
    arrivedBytes chunks index < arrivedBytes chunks (index + 1) := by
  have inside : index < (chunks.map DownlinkChunk.data).length := by simpa using within
  have grown := flatten_take_succ (chunks.map DownlinkChunk.data) index inside
  have some' := List.length_pos_iff.mpr (cut.nonempty chunks[index] (List.getElem_mem within))
  rw [List.getElem_map] at grown
  simp only [arrivedBytes, grown]
  omega

theorem arrived_le (cut : CutInto stream chunks) (index : Nat) :
    arrivedBytes chunks index ≤ stream.length := by
  have split := congrArg List.flatten (List.take_append_drop index (chunks.map DownlinkChunk.data))
  rw [← cut.whole, arrivedBytes, ← split, List.flatten_append, List.length_append]
  exact Nat.le_add_right _ _

end CutInto

section Runs

variable {Info Crypto : Type} {cfg : Config} {handling : HeaderHandling Info Crypto}

theorem run_take_succ (start : History (Downlink Crypto) PouchBuf) (chunks : List DownlinkChunk)
    (index : Nat) (within : index < chunks.length) :
    History.run (downlinkStep cfg handling) start (chunks.take (index + 1)) =
      (History.run (downlinkStep cfg handling) start (chunks.take index)).record
        (downlinkStep cfg handling) chunks[index] := by
  rw [List.take_succ_eq_append_getElem within, History.run_append]
  rfl

variable {crypto : Crypto} {pouch : WirePouch cfg handling crypto} {chunks : List DownlinkChunk}

theorem run_received (fits : pouch.header.length ≤ cfg.maxCiphertextBlockSize)
    (cut : CutInto pouch.stream chunks) (start : Downlink Crypto)
    (fresh : StandsAt pouch none 0 start) (index : Nat) (within : index ≤ chunks.length) :
    let history := History.run (downlinkStep cfg handling) ⟨start, []⟩ (chunks.take index)
    ∃ state, pouch.framing.Received (arrivedBytes chunks) index state ∧
      StandsAt pouch state (arrivedBytes chunks index) history.state ∧
      history.log.map PouchBuf.contents = pouch.blockBytes.take (state.getD 0) := by
  have capacity : pouch.framing.bound 0 ≤ pouch.framing.capacity := pouch.bound_zero.trans_le fits
  have nothing : arrivedBytes chunks 0 = 0 := by simp [arrivedBytes]
  induction index with
  | zero => exact ⟨none, .start, by simpa [nothing] using fresh, by simp⟩
  | succ index ih =>
    obtain ⟨before, received, stands, handed⟩ := ih (by omega)
    have inside : index < chunks.length := within
    have grown := cut.arrived_lt index inside
    have ending := cut.arrived_le (index + 1)
    have bounded : arrivedBytes chunks (index + 1) ≤ pouch.framing.bound pouch.framing.count :=
      Nat.le_trans ending (Nat.le_of_eq pouch.bound_count.symm)
    obtain ⟨after, receives, afterStands, conserved⟩ := downlinkPush_receives chunks[index].malloc
      (cut.allocates _ (List.getElem_mem inside)) _ before fits stands
      (received.between capacity nothing) grown ending
    rw [← cut.chunk_slice index inside] at afterStands conserved
    rw [run_take_succ _ _ _ inside]
    refine ⟨after, .next _ _ _ received grown bounded receives, afterStands, ?_⟩
    simp only [History.record, downlinkStep, List.map_append, handed, conserved]

theorem run_overlong (overlong : cfg.maxCiphertextBlockSize < pouch.header.length)
    (cut : CutInto pouch.stream chunks) (start : Downlink Crypto)
    (fresh : StandsAt pouch none 0 start) (index : Nat) (within : index ≤ chunks.length) :
    let history := History.run (downlinkStep cfg handling) ⟨start, []⟩ (chunks.take index)
    StandsAt pouch none (min (arrivedBytes chunks index) cfg.maxCiphertextBlockSize) history.state ∧
      history.log = [] := by
  have nothing : arrivedBytes chunks 0 = 0 := by simp [arrivedBytes]
  induction index with
  | zero => exact ⟨by simpa [nothing] using fresh, rfl⟩
  | succ index ih =>
    obtain ⟨stands, silent⟩ := ih (by omega)
    have inside : index < chunks.length := within
    obtain ⟨afterStands, quiet⟩ := downlinkPush_overlong chunks[index].malloc _ overlong stands
      (cut.arrived_lt index inside) (cut.arrived_le (index + 1))
    rw [← cut.chunk_slice index inside] at afterStands quiet
    rw [run_take_succ _ _ _ inside]
    exact ⟨afterStands, by simp only [History.record, downlinkStep, silent, quiet, List.nil_append]⟩

end Runs

/-- All blocks of a pouch are handed on by the last push exactly when the loop, which stops with
the input and not with the blocks it has buffered, is run through often enough. -/
theorem downlink_reassembly_iff {Info Crypto : Type} (cfg : Config)
    (handling : HeaderHandling Info Crypto) (state : Downlink Crypto) (memory : Memory)
    (pouch : WirePouch cfg handling state.crypto) (chunks : List DownlinkChunk)
    (cut : CutInto pouch.stream chunks) :
    (History.run (downlinkStep cfg handling) ⟨pouchDownlinkStart (some memory) state, []⟩
        chunks).log.map PouchBuf.contents = pouch.blockBytes ↔
      pouch.blocks = [] ∨ (pouch.header.length ≤ cfg.maxCiphertextBlockSize ∧
        pouch.framing.CompleteAt (arrivedBytes chunks) pouch.blocks.length chunks.length) := by
  have fresh : StandsAt pouch none 0 (pouchDownlinkStart (some memory) state) :=
    ⟨rfl, rfl, _, rfl, by simp⟩
  by_cases fits : pouch.header.length ≤ cfg.maxCiphertextBlockSize
  · obtain ⟨final, received, _, handed⟩ := run_received fits cut _ fresh chunks.length (Nat.le_refl _)
    rw [List.take_length] at handed
    have whole : pouch.blockBytes.take (final.getD 0) = pouch.blockBytes ↔
        pouch.blocks.length ≤ final.getD 0 := by
      rw [List.take_eq_self_iff, pouch.blockBytes_length]
    rw [handed, whole]
    by_cases empty : pouch.blocks = []
    · simp [empty]
    · have first : 1 ≤ pouch.blocks.length := List.length_pos_iff.mpr empty
      have complete := received.le_iff (pouch.bound_zero.trans_le fits) (by simp [arrivedBytes])
        pouch.blocks.length first (Nat.le_refl _)
      simp only [empty, fits, true_and, false_or]
      exact complete
  · have silent := (run_overlong (Nat.not_le.mp fits) cut _ fresh chunks.length (Nat.le_refl _)).2
    rw [List.take_length] at silent
    rw [silent]
    simp only [fits, false_and, or_false, List.map_nil, WirePouch.blockBytes]
    rw [eq_comm, List.map_eq_nil_iff]

def sampleHeader : List UInt8 := [0x82, 0x01, 0x82, 0x00, 0x61, 0x61]

-- `crypto_none.c`: only a header without encryption is taken.
def plaintextHandling (decode : List UInt8 → Option (Encryption × Nat)) :
    HeaderHandling Encryption Unit where
  cborDecodePouchHeader := decode
  cryptoDownlinkStart := fun crypto info =>
    match info with
    | .none => (none, crypto)
    | .saead => (some .enotsup, crypto)

def sampleHandling : HeaderHandling Encryption Unit :=
  plaintextHandling fun bytes =>
    if sampleHeader.isPrefixOf bytes then some (.none, sampleHeader.length) else none

def emptyEntryBlock : WireFrame (defaultConfig .none) where
  body := [0xc0]
  nonempty := by decide
  supported := by decide
  field := by decide

def samplePouch (blocks : List (WireFrame (defaultConfig .none))) :
    WirePouch (defaultConfig .none) sampleHandling () where
  header := sampleHeader
  info := .none
  blocks := blocks
  decoded := by
    intro tail
    simp [sampleHandling, plaintextHandling]
  undecoded := by
    decide
  accepted := rfl

def allocatedChunk (data : List UInt8) : DownlinkChunk := ⟨data, fun _ => some fun _ => 0⟩

-- Two blocks that arrive with one push: the second one stays in the buffer.
theorem two_blocks_in_one_push :
    CutInto (samplePouch [emptyEntryBlock, emptyEntryBlock]).stream
        [allocatedChunk (samplePouch [emptyEntryBlock, emptyEntryBlock]).stream] ∧
      (History.run (downlinkStep (defaultConfig .none) sampleHandling)
        ⟨pouchDownlinkStart (some fun _ => 0) ⟨none, false, ()⟩, []⟩
        [allocatedChunk (samplePouch [emptyEntryBlock, emptyEntryBlock]).stream]).log.map
          PouchBuf.contents ≠ (samplePouch [emptyEntryBlock, emptyEntryBlock]).blockBytes := by
  refine ⟨⟨by simp [allocatedChunk], ?_, ?_⟩, by decide +kernel⟩
  · simp [allocatedChunk, WirePouch.stream, samplePouch, sampleHeader]
  · simp [allocatedChunk]

theorem two_blocks_in_two_pushes :
    (History.run (downlinkStep (defaultConfig .none) sampleHandling)
      ⟨pouchDownlinkStart (some fun _ => 0) ⟨none, false, ()⟩, []⟩
      [allocatedChunk (sampleHeader ++ emptyEntryBlock.bytes), allocatedChunk emptyEntryBlock.bytes]).log.map
        PouchBuf.contents = (samplePouch [emptyEntryBlock, emptyEntryBlock]).blockBytes := by
  apply (downlink_reassembly_iff (defaultConfig .none) sampleHandling ⟨none, false, ()⟩ (fun _ => 0)
    (samplePouch [emptyEntryBlock, emptyEntryBlock]) _ ⟨?_, ?_, ?_⟩).mpr
  · refine .inr ⟨by decide, 1, by decide, ?_, .inl rfl⟩
    decide
  · rfl
  · simp [allocatedChunk, sampleHeader, WireFrame.bytes, putBe16]
  · simp [allocatedChunk]

end Pouch
