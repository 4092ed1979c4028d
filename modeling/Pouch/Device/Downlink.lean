import Pouch.Device.Crypto
import Pouch.DownlinkFraming

set_option autoImplicit false

namespace Pouch

open ByteMemory

namespace DownlinkState

def blockDownlinkPush (state : DownlinkState) (buf : Buf) : DownlinkState :=
  { state with decryptQueue := state.decryptQueue ++ [buf], decryptWork := true }

-- The handlers. The work queue has cleared the pending mark of the item, and the first block, if
-- there is one, is taken. `decrypted` is the result of `crypto_decrypt_block`.
def decryptBlocks (state : DownlinkState) (decrypted : Option Buf) : DownlinkState :=
  let rest := state.decryptQueue.tail
  let state := { state with decryptQueue := rest, decryptWork := false }
  match decrypted with
  | none => state
  | some block =>
    { state with
      consumeQueue := state.consumeQueue ++ [block]
      consumeWork := true
      decryptWork := !rest.isEmpty }

def consumeBlocks (state : DownlinkState) : DownlinkState :=
  let rest := state.consumeQueue.tail
  { state with consumeQueue := rest, consumeWork := !rest.isEmpty }

end DownlinkState

section Push

variable {Key : Type} (cfg : Config)

-- The generated decoder, and the outcomes of the key functions during one call.
structure PushCall (Key : Type) where
  decode : List UInt8 → Option (EncryptionInfo × Nat)
  keys : KeySource Key
  malloc : Nat → Option Memory

def PushCall.handling (call : PushCall Key) : HeaderHandling EncryptionInfo (Crypto Key) where
  cborDecodePouchHeader := call.decode
  cryptoDownlinkStart crypto info := crypto.downlinkStart cfg info call.keys

structure PushState (Key : Type) where
  pool : Ledger
  crypto : Crypto Key
  state : DownlinkState

def PushState.framing (push : PushState Key) : Downlink (Crypto Key) :=
  ⟨push.state.pouchBuf.map Buf.data, push.state.pouchHeader, push.crypto⟩

/-- `pushTurn` with its buffers on the heap. A block is passed on in the buffer it arrived in; a new
one is allocated at that point and nowhere else. -/
def PushState.turn (push : PushState Key) (turn : PushTurn (Crypto Key)) : PushState Key :=
  let state := { push.state with pouchHeader := turn.state.pouchHeader }
  match push.state.pouchBuf with
  | none => { push with crypto := turn.state.crypto, state := state }
  | some buf =>
    match turn.sent with
    | [] =>
      let pouchBuf := turn.state.pouchBuf.map fun data => { buf with data := data }
      { push with crypto := turn.state.crypto, state := { state with pouchBuf := pouchBuf } }
    | sent :: _ =>
      let (fresh, pool) := bufHold push.pool .internal turn.state.pouchBuf
      { pool := pool
        crypto := turn.state.crypto
        state := ({ state with pouchBuf := fresh }).blockDownlinkPush { buf with data := sent } }

def PushState.loop (call : PushCall Key) : Nat → Nat → PushState Key → List UInt8 → PushState Key
  | 0, _, push, _ => push
  | fuel + 1, index, push, data =>
    if data.length = 0 then
      push
    else
      let turn := pushTurn cfg (call.handling cfg) (call.malloc index) push.framing data
      let next := push.turn turn
      if turn.returned then next else loop call fuel (index + 1) next turn.unread

end Push

namespace Device

variable {Key : Type} (cfg : Config)

def pouchDownlinkStart (malloc : Option Memory) (device : Device Key) : Device Key × List Event :=
  let (fresh, pool) := bufHold device.pool .internal (bufAlloc malloc)
  ({ device with
      pool := pool
      downlink := { device.downlink with pouchHeader := false, pouchBuf := fresh } },
    [.downlinkStarted device.downlink.pouchBuf])

def pouchDownlinkPush (call : PushCall Key) (data : List UInt8) (device : Device Key) :
    Device Key × List Event :=
  let pushed := PushState.loop cfg call data.length 0 ⟨device.pool, device.crypto, device.downlink⟩ data
  ({ device with pool := pushed.pool, crypto := pushed.crypto, downlink := pushed.state },
    [.downlinkPushed])

def decryptBlocks (call : BlockCall Key) (device : Device Key) : Device Key × List Event :=
  if device.downlink.decryptWork then
    match device.downlink.decryptQueue with
    -- The result for NULL in the plaintext build. An item is pending only when there is a block.
    | [] => ({ device with downlink := device.downlink.decryptBlocks none }, [.decrypted none none])
    | block :: _ =>
      let (decrypted, crypto, pool) := device.crypto.decryptBlock cfg call device.pool block
      ({ device with
          pool := pool
          crypto := crypto
          downlink := device.downlink.decryptBlocks decrypted },
        [.decrypted (some block) decrypted])
  else
    (device, [])

def consumeBlocks (device : Device Key) : Device Key × List Event :=
  if device.downlink.consumeWork then
    match device.downlink.consumeQueue with
    | [] => ({ device with downlink := device.downlink.consumeBlocks }, [.consumed none])
    | block :: _ =>
      ({ device with
          pool := device.pool.free block.id
          downlink := device.downlink.consumeBlocks },
        [.consumed (some block)])
  else
    (device, [])

end Device

end Pouch
