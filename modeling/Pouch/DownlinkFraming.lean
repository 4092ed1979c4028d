import Pouch.Buf

set_option autoImplicit false

namespace Pouch

open ByteMemory

/-- The static state of `downlink.c`, with the state of the crypto layer it starts. -/
structure Downlink (Crypto : Type) where
  pouchBuf : Option PouchBuf
  pouchHeader : Bool
  crypto : Crypto

/-- The generated header decoder, which also reports the length of the header, and the crypto
layer of the build. -/
structure HeaderHandling (Info Crypto : Type) where
  cborDecodePouchHeader : List UInt8 → Option (Info × Nat)
  cryptoDownlinkStart : Crypto → Info → Status × Crypto

def pouchDownlinkStart {Crypto : Type} (malloc : Option Memory) (state : Downlink Crypto) :
    Downlink Crypto :=
  { state with pouchHeader := false, pouchBuf := bufAlloc malloc }

section Push

variable {Info Crypto : Type} (cfg : Config) (handling : HeaderHandling Info Crypto)

def pouchDownlinkParseHeader (crypto : Crypto) (view : Bufview) : Except Errno Nat × Crypto :=
  let (headerRaw, view) := pouchBufviewRead cfg view 0
  let raw := load view.memory (headerRaw.getD 0) (pouchBufviewAvailable cfg view)
  match handling.cborDecodePouchHeader raw with
  | none => (.error .eio, crypto)
  | some (info, headerLen) =>
    match handling.cryptoDownlinkStart crypto info with
    | (some err, crypto) => (.error err, crypto)
    | (none, crypto) => (.ok headerLen, crypto)

structure PushedBlock where
  pouchBuf : Option PouchBuf
  -- What `block_downlink_push` is called with.
  sent : List PouchBuf
  returned : Bool

-- The end of the loop body: a block is cut off the front of the buffer once it is complete.
def pushBlock (malloc : Option Memory) (buf : PouchBuf) : PushedBlock :=
  let view := pouchBufviewInit buf
  if 2 < pouchBufviewAvailable cfg view then
    let (blockSize, view) := pouchBufviewReadBe16 cfg view
    if cfg.maxBlockSizeFieldValue < blockSize then
      ⟨some buf, [], true⟩
    else if blockSize ≤ pouchBufviewAvailable cfg view then
      match bufAlloc malloc with
      -- Without a new buffer what follows the block is not cut off.
      | none => ⟨none, [buf], false⟩
      | some fresh =>
        if blockSize < pouchBufviewAvailable cfg view then
          let (start, view) := pouchBufviewRead cfg view 0
          let remainingLen := cfg.sizeSub (pouchBufviewAvailable cfg view) blockSize
          let remaining := load view.memory (start.getD 0 + blockSize) remainingLen
          ⟨some (bufWrite fresh remaining), [(bufTrimEnd buf remainingLen).1], false⟩
        else
          ⟨some fresh, [buf], false⟩
    else
      ⟨some buf, [], false⟩
  else
    ⟨some buf, [], false⟩

structure PushTurn (Crypto : Type) where
  state : Downlink Crypto
  unread : List UInt8
  sent : List PouchBuf
  returned : Bool

-- One iteration of the loop of `pouch_downlink_push`.
def pushTurn (malloc : Option Memory) (state : Downlink Crypto) (data : List UInt8) :
    PushTurn Crypto :=
  match state.pouchBuf with
  | none => ⟨state, data, [], true⟩
  | some buf =>
    if cfg.maxCiphertextBlockSize ≤ bufSizeGet buf then
      ⟨state, data, [], true⟩
    else
      let bufWritten := min data.length (cfg.maxCiphertextBlockSize - bufSizeGet buf)
      let buf := bufWrite buf (data.take bufWritten)
      let unread := data.drop bufWritten
      if state.pouchHeader then
        let pushed := pushBlock cfg malloc buf
        ⟨{ state with pouchBuf := pushed.pouchBuf }, unread, pushed.sent, pushed.returned⟩
      else
        match pouchDownlinkParseHeader cfg handling state.crypto (pouchBufviewInit buf) with
        | (.error _, crypto) =>
          ⟨{ state with pouchBuf := some buf, crypto := crypto }, unread, [], true⟩
        | (.ok headerLen, crypto) =>
          -- The view is still at offset 0, so it now starts at the first block.
          let pushed := pushBlock cfg malloc (bufTrimStart buf headerLen).1
          ⟨{ pouchBuf := pushed.pouchBuf, pouchHeader := true, crypto := crypto }, unread,
            pushed.sent, pushed.returned⟩

def pushLoop : Nat → (Nat → Option Memory) → Downlink Crypto → List UInt8 →
    Downlink Crypto × List PouchBuf
  | 0, _, state, _ => (state, [])
  | fuel + 1, malloc, state, data =>
    if data.length = 0 then
      (state, [])
    else
      let turn := pushTurn cfg handling (malloc 0) state data
      if turn.returned then
        (turn.state, turn.sent)
      else
        let (state, sent) := pushLoop fuel (fun index => malloc (index + 1)) turn.state turn.unread
        (state, turn.sent ++ sent)

-- `malloc` gives the outcome of the allocation of each iteration.
def pouchDownlinkPush (malloc : Nat → Option Memory) (state : Downlink Crypto) (data : List UInt8) :
    Downlink Crypto × List PouchBuf :=
  pushLoop cfg handling data.length malloc state data

theorem pushTurn_unread (malloc : Option Memory) (state : Downlink Crypto) (data : List UInt8)
    (more : data.length ≠ 0) (continues : (pushTurn cfg handling malloc state data).returned = false) :
    (pushTurn cfg handling malloc state data).unread.length < data.length := by
  unfold pushTurn at continues ⊢
  cases held : state.pouchBuf with
  | none => simp [held] at continues
  | some buf =>
    simp only [held] at continues ⊢
    by_cases full : cfg.maxCiphertextBlockSize ≤ bufSizeGet buf
    · simp [full] at continues
    · have shorter : (data.drop (min data.length
          (cfg.maxCiphertextBlockSize - bufSizeGet buf))).length < data.length := by
        simp only [List.length_drop]
        omega
      simp only [full, if_false] at continues ⊢
      split
      · exact shorter
      · split <;> exact shorter

theorem pushLoop_fuel (fuel : Nat) (malloc : Nat → Option Memory) (state : Downlink Crypto)
    (data : List UInt8) (enough : data.length ≤ fuel) :
    pushLoop cfg handling fuel malloc state data = pouchDownlinkPush cfg handling malloc state data := by
  suffices same : ∀ first second, data.length ≤ first → data.length ≤ second →
      pushLoop cfg handling first malloc state data =
        pushLoop cfg handling second malloc state data from
    same fuel data.length enough (Nat.le_refl _)
  intro first
  induction first generalizing malloc state data with
  | zero =>
    intro second none' _
    have empty : data.length = 0 := Nat.le_zero.mp none'
    cases second <;> simp [pushLoop, empty]
  | succ first ih =>
    intro second enoughFirst enoughSecond
    by_cases empty : data.length = 0
    · cases second <;> simp [pushLoop, empty]
    cases second with
    | zero => omega
    | succ second =>
      simp only [pushLoop, empty, if_false]
      cases continues : (pushTurn cfg handling (malloc 0) state data).returned with
      | true => rfl
      | false =>
        have shorter := pushTurn_unread cfg handling (malloc 0) state data empty continues
        simp only [Bool.false_eq_true, if_false]
        rw [ih _ _ _ (by omega) second (by omega) (by omega)]

end Push

end Pouch
