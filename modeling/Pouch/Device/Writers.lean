import Pouch.Device.Uplink

set_option autoImplicit false

namespace Pouch

open ByteMemory

def Buf.write (buf : Buf) (bytes : List UInt8) : Buf := { buf with data := bufWrite buf.data bytes }

-- What `write_entry` adds to the block.
def entryBytes (path : CString) (contentType : UInt16) (data : List UInt8) : List UInt8 :=
  putBe16 data.length ++ putBe16 contentType.toNat ++ [UInt8.ofNat path.bytes.length] ++ path.bytes ++ data

namespace Device

variable {Key : Type} (cfg : Config)

-- Writes to the open block. `none`: there is no space.
def writeOpen (path : CString) (contentType : UInt16) (data : List UInt8) (opened : Buf)
    (device : Device Key) : Option (Device Key × List Event) :=
  match writeEntry cfg opened.data path contentType data with
  | none => none
  | some written =>
    let block := { opened with data := written }
    some ({ device with entryBlock := some block },
      [.entryAccepted block (entryBytes path contentType data)])

def writeNew (path : CString) (contentType : UInt16) (data : List UInt8) (malloc : Option Memory)
    (device : Device Key) : Status × Device Key × List Event :=
  match bufHold device.pool .entries (blockAlloc malloc) with
  | (none, pool) => (some .enomem, { device with pool := pool, entryBlock := none }, [])
  | (some opened, pool) =>
    let device := { device with pool := pool, entryBlock := some opened }
    match device.writeOpen cfg path contentType data opened with
    | none => (some .enomem, device, [.entryOpened opened])
    | some (device, events) => (none, device, .entryOpened opened :: events)

def passEntries (opened : Buf) (device : Device Key) : Device Key × List Event :=
  let finished := { opened with data := blockFinish cfg opened.data }
  ({ device with uplink := uplinkEnqueue device.uplink finished, entryBlock := none },
    [.entryPassed finished])

def pouchUplinkEntryWrite (call : EntryWrite) (device : Device Key) : Status × Device Key × List Event :=
  match call.path, call.data with
  | some path, some data =>
    if data.length = 0 then
      (some .einval, device, [])
    else
      match call.lock with
      | some err => (some err, device, [])
      | none =>
        match device.entryBlock with
        | none => device.writeNew cfg path call.contentType data call.malloc
        | some opened =>
          match device.writeOpen cfg path call.contentType data opened with
          | some (device, events) => (none, device, events)
          | none =>
            let (device, passed) := device.passEntries cfg opened
            let (status, device, events) := device.writeNew cfg path call.contentType data call.malloc
            (status, device, passed ++ events)
  | _, _ => (some .einval, device, [])

def entryBlockClose (lock : Status) (device : Device Key) : Device Key × List Event :=
  match lock with
  | some _ => (device, [])
  | none =>
    match device.entryBlock with
    | none => (device, [])
    | some opened => if 0 < blockSizeGet opened.data then device.passEntries cfg opened else (device, [])

-- The second step of `pouch_uplink_close`.
def closeReturn (lock : Status) (device : Device Key) : Device Key × List Event :=
  if 0 < device.closers then
    let (device, events) := device.entryBlockClose cfg lock
    ({ device with uplink := { device.uplink with work := true }, closers := device.closers - 1 },
      events ++ [.closeReturned lock])
  else
    (device, [])

def pouchUplinkStreamOpen (path : CString) (contentType : UInt16) (structAllocated : Bool)
    (malloc : Option Memory) (device : Device Key) : Device Key × List Event :=
  if pouchStreamsMax ≤ device.openStreams then
    (device, [])
  else if structAllocated then
    let (id, streamId) := newStreamId device.streamId
    let owner := Owner.stream device.nextHandle device.uplink.id
    match bufHold device.pool owner (blockAllocStream malloc id true) with
    | (none, pool) => ({ device with pool := pool, streamId := streamId }, [.openFailed])
    | (some block, pool) =>
      let stream : UplinkStream :=
        { id := id
          buf := { block with data := writeStreamHeader block.data contentType path }
          bytes := 0
          sessionId := device.uplink.id }
      ({ device with
          pool := pool
          streamId := streamId
          openStreams := device.openStreams + 1
          streams := Function.update device.streams device.nextHandle (some stream)
          nextHandle := device.nextHandle + 1 },
        [.streamOpened device.nextHandle stream])
  else
    (device, [])

def putStream (handle : Nat) (stream : UplinkStream) (device : Device Key) : Device Key :=
  { device with streams := Function.update device.streams handle (some stream) }

structure StreamWriting (Key : Type) where
  device : Device Key
  stream : UplinkStream
  unwritten : List UInt8
  events : List Event

-- The loop of `pouch_stream_write`; the stream object is written in place.
def streamWriteLoop (handle : Nat) : Nat → (Nat → Option Memory) → Device Key → UplinkStream →
    List UInt8 → StreamWriting Key
  | 0, _, device, stream, data => ⟨device, stream, data, []⟩
  | fuel + 1, malloc, device, stream, data =>
    if data.length = 0 then
      ⟨device, stream, data, []⟩
    else if blockSpaceGet cfg stream.buf.data = 0 then
      match bufHold device.pool (.stream handle stream.sessionId)
        (blockAllocStream (malloc 0) stream.id false) with
      | (none, pool) => ⟨{ device with pool := pool }, stream, data, []⟩
      | (some fresh, pool) =>
        let finished := { stream.buf with data := blockFinishStream cfg stream.buf.data stream.id false }
        let device := { device with pool := pool, uplink := uplinkEnqueue device.uplink finished }
        let writeLen := min (blockSpaceGet cfg fresh.data) data.length
        let stream := { stream with buf := fresh.write (data.take writeLen) }
        let rest := streamWriteLoop handle fuel (fun index => malloc (index + 1))
          (device.putStream handle stream) stream (data.drop writeLen)
        { rest with events := .streamPassed handle finished fresh :: .streamWrote handle stream :: rest.events }
    else
      let writeLen := min (blockSpaceGet cfg stream.buf.data) data.length
      let stream := { stream with buf := stream.buf.write (data.take writeLen) }
      let rest := streamWriteLoop handle fuel malloc (device.putStream handle stream) stream
        (data.drop writeLen)
      { rest with events := .streamWrote handle stream :: rest.events }

def streamIsValid (stream : UplinkStream) (device : Device Key) : Bool :=
  stream.sessionId = device.uplink.id

def pouchStreamWrite (handle : Nat) (data : List UInt8) (malloc : Nat → Option Memory)
    (device : Device Key) : Device Key × List Event :=
  match device.streams handle with
  | none => (device, [])
  | some stream =>
    if device.streamIsValid stream then
      let loop := device.streamWriteLoop cfg handle data.length malloc stream data
      let written := data.length - loop.unwritten.length
      let stream := { loop.stream with bytes := (loop.stream.bytes + written) % cfg.sizeRange }
      (loop.device.putStream handle stream, loop.events ++ [.streamWrote handle stream])
    else
      (device, [])

def pouchStreamClose (handle : Nat) (device : Device Key) : Device Key × List Event :=
  match device.streams handle with
  | none => (device, [])
  | some stream =>
    let closed : Device Key :=
      { device with
        openStreams := device.openStreams - 1
        streams := Function.update device.streams handle none }
    if device.streamIsValid stream ∧ 0 < stream.bytes then
      let finished := { stream.buf with data := blockFinishStream cfg stream.buf.data stream.id true }
      ({ closed with uplink := uplinkEnqueue device.uplink finished }, [.streamClosed handle (some finished)])
    else
      ({ closed with pool := device.pool.free stream.buf.id }, [.streamClosed handle none])

end Device

end Pouch
