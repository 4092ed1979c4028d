import Pouch.EntryWriter

set_option autoImplicit false

namespace Pouch

open ByteMemory

def pouchStreamsMax : Nat := 126

structure PouchStream where
  id : UInt8
  buf : PouchBuf
  bytes : Nat
  sessionId : Nat

def writeStreamHeader (block : PouchBuf) (contentType : UInt16) (path : CString) : PouchBuf :=
  let pathLen := path.bytes.length
  let block := bufWrite block (putBe16 contentType.toNat)
  let block := bufWrite block [UInt8.ofNat pathLen]
  bufWrite block path.bytes

def newStreamId (counter : Nat) : UInt8 × Nat :=
  let id := UInt8.ofNat counter &&& blockIdMask
  if id = 0 then
    -- ID 0 is reserved; of two consecutive counters only one is a multiple of 32.
    (UInt8.ofNat (counter + 1) &&& blockIdMask, counter + 2)
  else
    (id, counter + 1)

structure StreamLoop where
  -- The input that is left when the loop ends.
  unwritten : List UInt8
  buf : PouchBuf
  enqueued : List PouchBuf

-- Every iteration writes at least one byte, so the length of the input is enough fuel.
def streamWriteLoop (cfg : Config) (id : UInt8) :
    Nat → (Nat → Option Memory) → PouchBuf → List UInt8 → StreamLoop
  | 0, _, buf, data => ⟨data, buf, []⟩
  | fuel + 1, malloc, buf, data =>
    if data.length = 0 then
      ⟨data, buf, []⟩
    else if blockSpaceGet cfg buf = 0 then
      match blockAllocStream (malloc 0) id false with
      -- The old block stays in place, so that it can still be marked as the last one.
      | none => ⟨data, buf, []⟩
      | some fresh =>
        let writeLen := min (blockSpaceGet cfg fresh) data.length
        let rest := streamWriteLoop cfg id fuel (fun index => malloc (index + 1))
          (bufWrite fresh (data.take writeLen)) (data.drop writeLen)
        { rest with enqueued := blockFinishStream cfg buf id false :: rest.enqueued }
    else
      let writeLen := min (blockSpaceGet cfg buf) data.length
      streamWriteLoop cfg id fuel malloc (bufWrite buf (data.take writeLen)) (data.drop writeLen)

def pouchStreamIsValid (stream : PouchStream) (uplinkSessionId : Nat) : Bool :=
  stream.sessionId = uplinkSessionId

structure StreamWriteResult where
  written : Nat
  stream : PouchStream
  enqueued : List PouchBuf

def pouchStreamWrite (cfg : Config) (uplinkSessionId : Nat) (malloc : Nat → Option Memory)
    (stream : PouchStream) (data : List UInt8) : StreamWriteResult :=
  if pouchStreamIsValid stream uplinkSessionId then
    let loop := streamWriteLoop cfg stream.id data.length malloc stream.buf data
    let written := data.length - loop.unwritten.length
    { written := written
      stream := { stream with buf := loop.buf, bytes := (stream.bytes + written) % cfg.sizeRange }
      enqueued := loop.enqueued }
  else
    { written := 0, stream := stream, enqueued := [] }

-- Closing also gives back the stream object; what is passed on is the last block or nothing.
def pouchStreamClose (cfg : Config) (uplinkSessionId : Nat) (stream : PouchStream) :
    List PouchBuf :=
  if pouchStreamIsValid stream uplinkSessionId ∧ 0 < stream.bytes then
    [blockFinishStream cfg stream.buf stream.id true]
  else
    []

/-- The state of the writers: the open entry block, the stream counters, the ID of the uplink
session and the streams that are open, each under the handle its caller holds. -/
structure Writers where
  block : Option PouchBuf
  streamId : Nat
  openStreams : Nat
  uplinkSessionId : Nat
  streams : Nat → Option PouchStream
  nextHandle : Nat

def Writers.boot (uplinkSessionId : Nat) : Writers where
  block := none
  streamId := 1
  openStreams := 0
  uplinkSessionId := uplinkSessionId
  streams := fun _ => none
  nextHandle := 0

inductive WriterOp where
  | entryWrite (call : EntryWrite)
  | entryClose (lock : Status)
  | streamOpen (path : CString) (contentType : UInt16) (structAllocated : Bool)
      (malloc : Option Memory)
  | streamWrite (handle : Nat) (data : List UInt8) (malloc : Nat → Option Memory)
  | streamClose (handle : Nat)
  -- `pouch_uplink_finish`: the uplink session ID is counted up.
  | sessionFinish

inductive WriterEvent where
  -- The owner of a block is a stream handle, or `none` for the entry writer.
  | enqueued (owner : Option Nat) (block : PouchBuf)
  | opened (handle : Nat) (id : UInt8) (path : CString) (contentType : UInt16)
  | wrote (handle : Nat) (accepted : List UInt8)
  | closed (handle : Nat) (valid : Bool)

def pouchUplinkStreamOpen (state : Writers) (path : CString) (contentType : UInt16)
    (structAllocated : Bool) (malloc : Option Memory) : Option PouchStream × Writers :=
  if pouchStreamsMax ≤ state.openStreams then
    (none, state)
  else if structAllocated then
    let (id, streamId) := newStreamId state.streamId
    match blockAllocStream malloc id true with
    | none => (none, { state with streamId := streamId })
    | some block =>
      let stream : PouchStream :=
        { id := id
          buf := writeStreamHeader block contentType path
          bytes := 0
          sessionId := state.uplinkSessionId }
      (some stream, { state with streamId := streamId, openStreams := state.openStreams + 1 })
  else
    (none, state)

def writerStep (cfg : Config) (state : Writers) : WriterOp → Writers × List WriterEvent
  | .entryWrite call =>
    let result := pouchUplinkEntryWrite cfg state.block call
    ({ state with block := result.block }, result.enqueued.map (.enqueued none))
  | .entryClose lock =>
    let result := entryBlockClose cfg state.block lock
    ({ state with block := result.block }, result.enqueued.map (.enqueued none))
  | .streamOpen path contentType structAllocated malloc =>
    match pouchUplinkStreamOpen state path contentType structAllocated malloc with
    | (none, next) => (next, [])
    | (some stream, next) =>
      ({ next with
          streams := Function.update next.streams next.nextHandle (some stream)
          nextHandle := next.nextHandle + 1 },
        [.opened next.nextHandle stream.id path contentType])
  | .streamWrite handle data malloc =>
    match state.streams handle with
    | none => (state, [])
    | some stream =>
      let result := pouchStreamWrite cfg state.uplinkSessionId malloc stream data
      ({ state with streams := Function.update state.streams handle (some result.stream) },
        result.enqueued.map (.enqueued (some handle)) ++ [.wrote handle (data.take result.written)])
  | .streamClose handle =>
    match state.streams handle with
    | none => (state, [])
    | some stream =>
      ({ state with
          streams := Function.update state.streams handle none
          openStreams := state.openStreams - 1 },
        (pouchStreamClose cfg state.uplinkSessionId stream).map (.enqueued (some handle)) ++
          [.closed handle (pouchStreamIsValid stream state.uplinkSessionId)])
  | .sessionFinish =>
    ({ state with uplinkSessionId := (state.uplinkSessionId + 1) % 2 ^ 32 }, [])

end Pouch
