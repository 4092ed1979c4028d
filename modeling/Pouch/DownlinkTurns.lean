import Pouch.DownlinkReassembly

set_option autoImplicit false

/-!
# The iterations of `pouch_downlink_push`

What one iteration does with any bytes at all, and the runs that are made of iterations.
-/

namespace Pouch

open ByteMemory

theorem Config.maxCiphertextBlockSize_fits (cfg : Config) : cfg.maxCiphertextBlockSize < cfg.sizeRange := by
  have small := cfg.maxCiphertextBlockSize_lt
  have range := cfg.sizeRange_ge
  omega

def leadingSize (buf : PouchBuf) : Nat := (sizeField buf).getD 0

section Cut

variable {cfg : Config} {malloc : Option Memory} {buf : PouchBuf}

inductive Cut (cfg : Config) (malloc : Option Memory) (buf : PouchBuf) : PushedBlock → Prop where
  | waiting (short : buf.bytes ≤ 2 ∨
      leadingSize buf ≤ cfg.maxBlockSizeFieldValue ∧ buf.bytes < 2 + leadingSize buf) :
      Cut cfg malloc buf ⟨some buf, [], false⟩
  | oversized (field : 2 < buf.bytes) (large : cfg.maxBlockSizeFieldValue < leadingSize buf) :
      Cut cfg malloc buf ⟨some buf, [], true⟩
  -- Without a new buffer what follows the block stays behind it.
  | uncut (field : 2 < buf.bytes) (supported : leadingSize buf ≤ cfg.maxBlockSizeFieldValue)
      (complete : 2 + leadingSize buf ≤ buf.bytes) (failed : malloc = none) :
      Cut cfg malloc buf ⟨none, [buf], false⟩
  | cut (memory : Memory) (next sent : PouchBuf) (allocated : malloc = some memory)
      (supported : leadingSize buf ≤ cfg.maxBlockSizeFieldValue)
      (sized : sent.bytes = 2 + leadingSize buf)
      (split : sent.contents ++ next.contents = buf.contents) :
      Cut cfg malloc buf ⟨some next, [sent], false⟩

theorem contents_split (field : 2 < buf.bytes) :
    ∃ high low rest, buf.contents = high :: low :: rest ∧ rest.length + 2 = buf.bytes := by
  have length := buf.contents_length
  match whole : buf.contents with
  | [] | [_] =>
    rw [whole] at length
    simp at length
    omega
  | high :: low :: rest =>
    rw [whole] at length
    exact ⟨high, low, rest, rfl, by simpa using length⟩

theorem pushBlock_cut (fits : buf.bytes < cfg.sizeRange) : Cut cfg malloc buf (pushBlock cfg malloc buf) := by
  have start := Bufview.At.start buf
  have available := start.available fits
  rw [PouchBuf.contents_length] at available
  by_cases field : 2 < buf.bytes
  next =>
    obtain ⟨high, low, rest, whole, length⟩ := contents_split field
    rw [whole] at start
    have read := start.readBe16 cfg high low
    have behind := start.advance fits 2 (by simp)
    simp only [List.drop_succ_cons, List.drop_zero] at behind
    have left := behind.available fits
    have size : leadingSize buf = getBe16 high low := by simp [leadingSize, sizeField, whole]
    simp only [pushBlock, available, field, if_true, read, left]
    by_cases large : cfg.maxBlockSizeFieldValue < getBe16 high low
    next =>
      rw [if_pos large]
      exact .oversized field (by rwa [size])
    next =>
      rw [if_neg large]
      by_cases complete : getBe16 high low ≤ rest.length
      next =>
        rw [if_pos complete]
        cases malloc with
        | none => exact .uncut field (by omega) (by omega) rfl
        | some memory =>
          simp only [bufAlloc, Option.map_some]
          by_cases more : getBe16 high low < rest.length
          next =>
            rw [if_pos more, behind.read fits 0 (Nat.zero_le _)]
            have stillAt := behind.advance fits 0 (Nat.zero_le _)
            have same := stillAt.available fits
            have copied := behind.loaded_drop (getBe16 high low) complete
            rw [List.drop_zero] at same
            have remaining : cfg.sizeSub rest.length (getBe16 high low) = rest.length - getBe16 high low :=
              cfg.sizeSub_of_le _ _ complete (by omega)
            refine .cut memory _ _ rfl (by omega) ?_ ?_
            · simp only [bufTrimEnd, same, remaining, size]
              omega
            · have kept : buf.bytes - (rest.length - getBe16 high low) = 2 + getBe16 high low := by omega
              rw [bufTrimEnd_contents, bufWrite_contents, same, remaining, kept]
              have rests : load (bufviewRead cfg (bufviewRead cfg (pouchBufviewInit buf) 2).2 0).2.memory
                  ((some (bufviewRead cfg (pouchBufviewInit buf) 2).2.offset).getD 0 + getBe16 high low)
                  (rest.length - getBe16 high low) = rest.drop (getBe16 high low) := copied
              rw [rests, whole, Nat.add_comm 2]
              simp [bufAlloc_contents]
          next =>
            rw [if_neg more]
            refine .cut memory _ _ rfl (by omega) ?_ ?_
            · omega
            · simp
      next =>
        rw [if_neg complete]
        exact .waiting (.inr ⟨by omega, by omega⟩)
  next =>
    simp only [pushBlock, available, field, if_false]
    exact .waiting (.inl (by omega))

theorem Cut.within {pushed : PushedBlock} (cut : Cut cfg malloc buf pushed)
    (within : buf.bytes ≤ cfg.maxCiphertextBlockSize) :
    (∀ rest, pushed.pouchBuf = some rest → rest.bytes ≤ cfg.maxCiphertextBlockSize) ∧
      ∀ sent ∈ pushed.sent, sent.bytes ≤ cfg.maxCiphertextBlockSize := by
  cases cut with
  | waiting => exact ⟨by simpa using within, List.forall_mem_nil _⟩
  | oversized => exact ⟨by simpa using within, List.forall_mem_nil _⟩
  | uncut => exact ⟨by simp, by simpa using within⟩
  | cut memory next sent allocated supported sized split =>
    have lengths := congrArg List.length split
    simp only [List.length_append, PouchBuf.contents_length] at lengths
    simp only [Option.some.injEq, forall_eq', List.mem_singleton, forall_eq]
    omega

end Cut

structure Copied (cfg : Config) (buf : PouchBuf) (data : List UInt8) (written : PouchBuf)
    (unread : List UInt8) : Prop where
  grown : ∃ more, written.contents = buf.contents ++ more
  joined : written.contents ++ unread = buf.contents ++ data
  within : written.bytes ≤ cfg.maxCiphertextBlockSize
  full : unread ≠ [] → written.bytes = cfg.maxCiphertextBlockSize
  grows : data ≠ [] → buf.bytes < written.bytes

theorem copied_room (cfg : Config) (buf : PouchBuf) (data : List UInt8)
    (room : buf.bytes < cfg.maxCiphertextBlockSize) :
    let bufWritten := min data.length (cfg.maxCiphertextBlockSize - bufSizeGet buf)
    Copied cfg buf data (bufWrite buf (data.take bufWritten)) (data.drop bufWritten) := by
  intro bufWritten
  have amount : bufWritten = min data.length (cfg.maxCiphertextBlockSize - buf.bytes) := rfl
  have short : bufWritten ≤ data.length := Nat.min_le_left _ _
  have size : (bufWrite buf (data.take bufWritten)).bytes = buf.bytes + bufWritten := by
    rw [bufWrite_bytes, List.length_take_of_le short]
  refine ⟨⟨_, bufWrite_contents _ _⟩, by simp, ?_, ?_, ?_⟩
  · rw [size]
    omega
  · intro more
    have left : bufWritten < data.length := by
      by_contra all
      exact more (List.drop_eq_nil_of_le (Nat.not_lt.mp all))
    rw [size]
    omega
  · intro more
    have some := List.length_pos_iff.mpr more
    rw [size]
    omega

section Turns

variable {Info Crypto : Type} (cfg : Config) (handling : HeaderHandling Info Crypto)

structure TurnView where
  header : Option Nat
  front : Option PouchBuf

def turnView (state : Downlink Crypto) (data : List UInt8) : TurnView :=
  match state.pouchBuf with
  | none => ⟨none, none⟩
  | some buf =>
    if cfg.maxCiphertextBlockSize ≤ bufSizeGet buf then
      ⟨none, none⟩
    else
      let bufWritten := min data.length (cfg.maxCiphertextBlockSize - bufSizeGet buf)
      let buf := bufWrite buf (data.take bufWritten)
      if state.pouchHeader then
        ⟨none, some buf⟩
      else
        match pouchDownlinkParseHeader cfg handling state.crypto (pouchBufviewInit buf) with
        | (.error _, _) => ⟨none, none⟩
        | (.ok headerLen, _) => ⟨some headerLen, some (bufTrimStart buf headerLen).1⟩

inductive Turned (malloc : Option Memory) (state : Downlink Crypto) (data : List UInt8) :
    TurnView → PushTurn Crypto → Prop where
  | missing (absent : state.pouchBuf = none) :
      Turned malloc state data ⟨none, none⟩ ⟨state, data, [], true⟩
  | full (buf : PouchBuf) (held : state.pouchBuf = some buf)
      (noRoom : cfg.maxCiphertextBlockSize ≤ buf.bytes) :
      Turned malloc state data ⟨none, none⟩ ⟨state, data, [], true⟩
  | undecoded (buf written : PouchBuf) (unread : List UInt8) (next : Crypto)
      (held : state.pouchBuf = some buf) (room : buf.bytes < cfg.maxCiphertextBlockSize)
      (header : state.pouchHeader = false) (copied : Copied cfg buf data written unread) :
      Turned malloc state data ⟨none, none⟩
        ⟨⟨some written, false, next⟩, unread, [], true⟩
  | header (buf written : PouchBuf) (unread : List UInt8) (next : Crypto) (info : Info) (headerLen : Nat)
      (pushed : PushedBlock) (held : state.pouchBuf = some buf)
      (room : buf.bytes < cfg.maxCiphertextBlockSize) (header : state.pouchHeader = false)
      (copied : Copied cfg buf data written unread)
      (decoded : handling.cborDecodePouchHeader written.contents = some (info, headerLen))
      (cut : Cut cfg malloc (bufTrimStart written headerLen).1 pushed) :
      Turned malloc state data ⟨some headerLen, some (bufTrimStart written headerLen).1⟩
        ⟨⟨pushed.pouchBuf, true, next⟩, unread, pushed.sent, pushed.returned⟩
  | blocks (buf written : PouchBuf) (unread : List UInt8) (pushed : PushedBlock)
      (held : state.pouchBuf = some buf) (room : buf.bytes < cfg.maxCiphertextBlockSize)
      (header : state.pouchHeader = true) (copied : Copied cfg buf data written unread)
      (cut : Cut cfg malloc written pushed) :
      Turned malloc state data ⟨none, some written⟩
        ⟨⟨pushed.pouchBuf, true, state.crypto⟩, unread, pushed.sent, pushed.returned⟩

theorem bufTrimStart_le (buf : PouchBuf) (count : Nat) : (bufTrimStart buf count).1.bytes ≤ buf.bytes :=
  Nat.sub_le _ _

theorem pushTurn_turned (malloc : Option Memory) (state : Downlink Crypto) (data : List UInt8) :
    Turned cfg handling malloc state data (turnView cfg handling state data)
      (pushTurn cfg handling malloc state data) := by
  have range := cfg.maxCiphertextBlockSize_fits
  unfold pushTurn turnView
  cases held : state.pouchBuf with
  | none => exact .missing held
  | some buf =>
    simp only
    by_cases full : cfg.maxCiphertextBlockSize ≤ bufSizeGet buf
    next =>
      simp only [full, if_true]
      exact .full buf held full
    next =>
      have room : buf.bytes < cfg.maxCiphertextBlockSize := Nat.not_le.mp full
      have copied := copied_room cfg buf data room
      have fits := Nat.lt_of_le_of_lt copied.within range
      simp only [full, if_false]
      by_cases header : state.pouchHeader = true
      next =>
        simp only [header, if_true]
        exact .blocks buf _ _ _ held room header copied (pushBlock_cut fits)
      next =>
        rw [Bool.not_eq_true] at header
        simp only [header, Bool.false_eq_true, if_false]
        rw [parseHeader_eq _ _ fits]
        cases decoded : handling.cborDecodePouchHeader
            (bufWrite buf (data.take (min data.length (cfg.maxCiphertextBlockSize - bufSizeGet buf)))).contents with
        | none => exact .undecoded buf _ _ _ held room header copied
        | some decoding =>
          obtain ⟨info, headerLen⟩ := decoding
          simp only
          cases accepted : handling.cryptoDownlinkStart state.crypto info with
          | mk status next =>
            cases status with
            | some err => exact .undecoded buf _ _ _ held room header copied
            | none =>
              have trimmed := Nat.lt_of_le_of_lt (bufTrimStart_le _ headerLen) fits
              exact .header buf _ _ _ info headerLen _ held room header copied decoded (pushBlock_cut trimmed)

theorem Turned.within {malloc : Option Memory} {state : Downlink Crypto} {data : List UInt8}
    {view : TurnView} {turn : PushTurn Crypto} (turned : Turned cfg handling malloc state data view turn)
    (within : ∀ buf, state.pouchBuf = some buf → buf.bytes ≤ cfg.maxCiphertextBlockSize) :
    (∀ buf, turn.state.pouchBuf = some buf → buf.bytes ≤ cfg.maxCiphertextBlockSize) ∧
      ∀ sent ∈ turn.sent, sent.bytes ≤ cfg.maxCiphertextBlockSize := by
  cases turned with
  | missing => exact ⟨within, List.forall_mem_nil _⟩
  | full => exact ⟨within, List.forall_mem_nil _⟩
  | undecoded buf written unread next held room header copied =>
    exact ⟨by simpa using copied.within, List.forall_mem_nil _⟩
  | header buf written unread next info headerLen pushed held room header copied decoded cut =>
    exact cut.within ((bufTrimStart_le _ _).trans copied.within)
  | blocks buf written unread pushed held room header copied cut => exact cut.within copied.within

end Turns

end Pouch
