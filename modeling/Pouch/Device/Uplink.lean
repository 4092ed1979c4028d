import Pouch.Device.Crypto

set_option autoImplicit false

namespace Pouch

open ByteMemory

section Uplink

variable {Key : Type} (cfg : Config)

def uplinkEnqueue (uplink : Uplink) (block : Buf) : Uplink :=
  { uplink with queue := uplink.queue ++ [block], work := true }

-- The loop of `process_blocks`: its other conditions do not change while it runs.
def processQueue : List Buf → (Nat → BlockCall Key) → Device Key → Device Key × List Event
  | [], _, device => (device, [])
  | block :: rest, calls, device =>
    let (encrypted, crypto, pool) := device.crypto.encryptBlock cfg (calls 0) device.pool block
    match encrypted with
    | none =>
      let event := Event.dropped block device.starting.isSome
      let device := { device with crypto := crypto, pool := pool, uplink := { device.uplink with queue := rest } }
      let (device, events) := processQueue rest (fun index => calls (index + 1)) device
      (device, event :: events)
    | some sent =>
      let uplink :=
        { device.uplink with
          queue := rest
          header := none
          transport := device.uplink.transport ++ device.uplink.header.toList.map .header ++
            [.block block sent] }
      let event :=
        Event.processed block device.uplink.header sent device.starting.isSome device.uplink.id
      let device := { device with crypto := crypto, pool := pool, uplink := uplink }
      let (device, events) := processQueue rest (fun index => calls (index + 1)) device
      (device, event :: events)

def drainQueue (calls : Nat → BlockCall Key) (device : Device Key) : Device Key × List Event :=
  if device.uplink.sessionActive && !device.uplink.pouchClosed then
    processQueue cfg device.uplink.queue calls device
  else
    (device, [])

def markClosed (device : Device Key) : Device Key × List Event :=
  if device.uplink.pouchClosing then
    ({ device with uplink := { device.uplink with pouchClosed := true } }, [.closed device.closers])
  else
    (device, [])

-- The work queue runs the handler if the item is pending, which it is not any more then.
def processBlocks (calls : Nat → BlockCall Key) (device : Device Key) : Device Key × List Event :=
  if device.uplink.work then
    let started := { device with uplink := { device.uplink with work := false } }
    let (drained, events) := drainQueue cfg calls started
    let (marked, closed) := markClosed drained
    (marked, .workStarted :: events ++ closed)
  else
    (device, [])

def endSession (device : Device Key) : Device Key :=
  { device with
    crypto := device.crypto.sessionEnd
    uplink := { device.uplink with sessionActive := false } }

-- The four steps of `pouch_uplink_start`. They are taken by the transport, one after the other.
def startActivate (device : Device Key) : Device Key × List Event :=
  if device.starting.isSome ∨ device.uplink.sessionActive then
    (device, [])
  else
    ({ device with
        uplink := { device.uplink with sessionActive := true }
        starting := some .session },
      [.activated])

def startFail (device : Device Key) : Device Key :=
  { device with uplink := { device.uplink with sessionActive := false }, starting := none }

def startSession (call : SessionCall Key) (device : Device Key) : Device Key × List Event :=
  if device.starting = some .session then
    match device.crypto.sessionStart cfg call with
    | (none, crypto) => ({ device with crypto := crypto, starting := some .pouch }, [.sessionStarted])
    | (some _, crypto) => (startFail { device with crypto := crypto }, [.startFailed none])
  else
    (device, [])

def startPouch (device : Device Key) : Device Key × List Event :=
  if device.starting = some .pouch then
    match device.crypto.pouchStart with
    | (none, crypto) => ({ device with crypto := crypto, starting := some .header }, [.pouchStarted])
    | (some _, crypto) => (startFail { device with crypto := crypto }, [.startFailed none])
  else
    (device, [])

-- The outcomes of the calls behind `pouch_header_create`; `encoded` is from the generated encoder.
structure HeaderCall where
  malloc : Option Memory
  certRef : Bool
  encoded : Option (List UInt8)

def pouchHeaderCreate (call : HeaderCall) (crypto : Crypto Key) (pool : Ledger) : Option Buf × Ledger :=
  match bufHold pool .internal (bufAlloc call.malloc) with
  | (none, pool) => (none, pool)
  | (some header, pool) =>
    match crypto.headerGet call.certRef, call.encoded with
    | none, some bytes => (some { header with data := bufWrite header.data bytes }, pool)
    | _, _ => (none, pool.free header.id)

def startHeader (call : HeaderCall) (device : Device Key) : Device Key × List Event :=
  if device.starting = some .header then
    let (header, pool) := pouchHeaderCreate call device.crypto device.pool
    let overwritten := device.uplink.header
    let device := { device with pool := pool, uplink := { device.uplink with header := header } }
    match header with
    | none => (startFail device, [.startFailed overwritten])
    | some header =>
      let uplink := { device.uplink with work := device.uplink.work || !device.uplink.queue.isEmpty }
      ({ device with uplink := uplink, starting := none }, [.headerCreated header overwritten])
  else
    (device, [])

-- The two steps of `pouch_uplink_close`, around `entry_block_close`.
def closeCall (device : Device Key) : Device Key × List Event :=
  let event := Event.closeCalled device.uplink.sessionActive device.uplink.pouchClosing
  if device.uplink.pouchClosing then
    -- -EALREADY
    (device, [event])
  else
    ({ device with uplink := { device.uplink with pouchClosing := true }, closers := device.closers + 1 },
      [event])

structure Reading (Key : Type) where
  device : Device Key
  output : List UInt8
  events : List Event

-- `pouch_bufview_is_ready` of the reader.
def Uplink.isReady (uplink : Uplink) : Bool :=
  uplink.reader.isSome && 0 < pouchBufviewAvailable cfg uplink.view

-- One iteration of the loop of `pouch_uplink_fill` after the reader has got a buffer.
def fillCopy (left : Nat) (packet : Outgoing) (device : Device Key) : Reading Key :=
  let (bytes, view) := pouchBufviewMemcpy cfg device.uplink.view left
  let device := { device with uplink := { device.uplink with offset := view.offset } }
  if pouchBufviewAvailable cfg view = 0 then
    let device :=
      { device with
        pool := device.pool.free packet.buf.id
        uplink := { device.uplink with reader := none, offset := 0 } }
    ⟨device, bytes, [.copied bytes, .released packet]⟩
  else
    ⟨device, bytes, [.copied bytes]⟩

-- Every iteration outputs a byte or takes a buffer from the queue.
def fillLoop : Nat → Nat → Device Key → Reading Key
  | 0, _, device => ⟨device, [], []⟩
  | fuel + 1, left, device =>
    if left = 0 then
      ⟨device, [], []⟩
    else if device.uplink.isReady cfg then
      match device.uplink.reader with
      | none => ⟨device, [], []⟩
      | some packet =>
        let copied := fillCopy cfg left packet device
        let rest := fillLoop fuel (left - copied.output.length) copied.device
        ⟨rest.device, copied.output ++ rest.output, copied.events ++ rest.events⟩
    else
      match device.uplink.transport with
      | [] => ⟨device, [], []⟩
      | packet :: transport =>
        let uplink := { device.uplink with transport := transport, reader := some packet, offset := 0 }
        let copied := fillCopy cfg left packet { device with uplink := uplink }
        let rest := fillLoop fuel (left - copied.output.length) copied.device
        ⟨rest.device, copied.output ++ rest.output, .taken packet :: copied.events ++ rest.events⟩

inductive PouchResult where
  | error
  | moreData
  | noMoreData
  deriving DecidableEq

def pouchUplinkFill (maxlen : Nat) (device : Device Key) : PouchResult × Reading Key :=
  if device.uplink.sessionActive then
    let read := fillLoop cfg (maxlen + device.uplink.transport.length) maxlen device
    let uplink := read.device.uplink
    if !uplink.pouchClosed || 0 < pouchBufviewAvailable cfg uplink.view || !uplink.transport.isEmpty then
      (.moreData, read)
    else
      (.noMoreData,
        { read with
          device := endSession read.device
          events := read.events ++ [.noMoreData, .sessionEnded] })
  else
    (.error, ⟨device, [], []⟩)

def pouchUplinkFinish (device : Device Key) : Device Key × List Event :=
  let uplink := device.uplink
  let pool := device.pool.freeAll (uplink.transport.map (·.buf.id))
  let pool := pool.freeAll (uplink.reader.map (·.buf.id)).toList
  let pool := pool.freeAll (uplink.header.map (·.id)).toList
  let finished : Device Key :=
    { device with
      pool := pool
      uplink :=
        { uplink with
          header := none
          sessionActive := false
          pouchClosing := false
          pouchClosed := false
          id := (uplink.id + 1) % 2 ^ 32
          transport := []
          reader := none
          offset := 0 } }
  let event := Event.finished uplink.reader uplink.transport uplink.queue
  if uplink.sessionActive then
    (endSession finished, [event, .sessionEnded])
  else
    (finished, [event])

end Uplink

end Pouch
