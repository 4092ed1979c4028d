import Pouch.Device.Step
import Pouch.Shared.Trace

set_option autoImplicit false

namespace Pouch

open Ledger

def idsOf (bufs : List Buf) : Multiset Nat := bufs.map Buf.id

def DownlinkState.held (state : DownlinkState) : Multiset Nat :=
  idsOf state.pouchBuf.toList + idsOf state.decryptQueue + idsOf state.consumeQueue

def Event.overwritten : Event → Option Buf
  | .startFailed overwritten | .headerCreated _ overwritten | .downlinkStarted overwritten => overwritten
  | _ => none

def Crypto.isPlaintext {Key : Type} : Crypto Key → Bool
  | .none => true
  | .saead _ => false

-- The LAST flag of the block header.
def Buf.isLast (block : Buf) : Bool := block.data.buf 2 &&& lastDataMask != 0

structure UplinkStream.Unfinished (stream : UplinkStream) : Prop where
  masked : stream.id &&& blockIdMask = stream.id
  header : 3 ≤ stream.buf.data.bytes
  flag : stream.buf.isLast = false

variable {Key : Type}

/-- What the library does in one small step, and when. The crypto layer is only described as far as
the buffers that go through it. -/
inductive SmallStep : Device Key → Event → Device Key → Prop
  | entryOpened (device : Device Key) (block : Buf) (closed : device.entryBlock = none)
      (id : block.id = device.pool.next) (owner : block.owner = .entries) (header : 3 ≤ block.data.bytes) :
      SmallStep device (.entryOpened block)
        { device with pool := device.pool.alloc, entryBlock := some block }
  | entryAccepted (device : Device Key) (opened block : Buf) (entry : List UInt8)
      (held : device.entryBlock = some opened) (id : block.id = opened.id)
      (owner : block.owner = opened.owner) (contents : block.data.contents = opened.data.contents ++ entry) :
      SmallStep device (.entryAccepted block entry) { device with entryBlock := some block }
  | entryPassed (device : Device Key) (opened block : Buf) (held : device.entryBlock = some opened)
      (id : block.id = opened.id) (owner : block.owner = opened.owner)
      (contents : block.data.contents.drop 3 = opened.data.contents.drop 3) :
      SmallStep device (.entryPassed block)
        { device with uplink := uplinkEnqueue device.uplink block, entryBlock := none }
  | streamOpened (device : Device Key) (stream : UplinkStream) (streamId : Nat)
      (id : stream.buf.id = device.pool.next) (session : stream.sessionId = device.uplink.id)
      (owner : stream.buf.owner = .stream device.nextHandle stream.sessionId)
      (unfinished : stream.Unfinished) :
      SmallStep device (.streamOpened device.nextHandle stream)
        { device with
          pool := device.pool.alloc
          streamId := streamId
          openStreams := device.openStreams + 1
          streams := Function.update device.streams device.nextHandle (some stream)
          nextHandle := device.nextHandle + 1 }
  | openFailed (device : Device Key) (streamId : Nat) :
      SmallStep device .openFailed { device with streamId := streamId }
  | streamWrote (device : Device Key) (handle : Nat) (old stream : UplinkStream)
      (held : device.streams handle = some old) (id : stream.buf.id = old.buf.id)
      (owner : stream.buf.owner = old.buf.owner) (session : stream.sessionId = old.sessionId)
      (unfinished : old.Unfinished → stream.Unfinished) :
      SmallStep device (.streamWrote handle stream) (device.putStream handle stream)
  | streamPassed (device : Device Key) (handle : Nat) (old stream : UplinkStream) (block : Buf)
      (held : device.streams handle = some old) (valid : old.sessionId = device.uplink.id)
      (id : block.id = old.buf.id) (owner : block.owner = old.buf.owner)
      (fresh : stream.buf.id = device.pool.next) (session : stream.sessionId = old.sessionId)
      (freshOwner : stream.buf.owner = .stream handle stream.sessionId)
      (unfinished : old.Unfinished → stream.Unfinished ∧ block.isLast = false) :
      SmallStep device (.streamPassed handle block stream.buf)
        { device with
          pool := device.pool.alloc
          uplink := uplinkEnqueue device.uplink block
          streams := Function.update device.streams handle (some stream) }
  | streamClosed (device : Device Key) (handle : Nat) (stream : UplinkStream) (block : Buf)
      (held : device.streams handle = some stream) (valid : stream.sessionId = device.uplink.id)
      (id : block.id = stream.buf.id) (owner : block.owner = stream.buf.owner) :
      SmallStep device (.streamClosed handle (some block))
        { device with
          uplink := uplinkEnqueue device.uplink block
          openStreams := device.openStreams - 1
          streams := Function.update device.streams handle none }
  | streamDiscarded (device : Device Key) (handle : Nat) (stream : UplinkStream)
      (held : device.streams handle = some stream) :
      SmallStep device (.streamClosed handle none)
        { device with
          pool := device.pool.free stream.buf.id
          openStreams := device.openStreams - 1
          streams := Function.update device.streams handle none }
  | enqueued (device : Device Key) (block : Buf) (id : block.id = device.pool.next)
      (owner : block.owner = .internal) :
      SmallStep device (.enqueued block)
        { device with pool := device.pool.alloc, uplink := uplinkEnqueue device.uplink block }
  | workStarted (device : Device Key) :
      SmallStep device .workStarted { device with uplink := { device.uplink with work := false } }
  | processed (device : Device Key) (block sent : Buf) (rest : List Buf) (crypto : Crypto Key)
      (pool : Ledger) (active : device.uplink.sessionActive = true)
      (opened : device.uplink.pouchClosed = false) (queue : device.uplink.queue = block :: rest)
      (exchange : Exchange device.pool {block.id} pool {sent.id})
      (build : crypto.isPlaintext = device.crypto.isPlaintext)
      (plain : device.crypto.isPlaintext = true → sent = block) :
      SmallStep device
        (.processed block device.uplink.header sent device.starting.isSome device.uplink.id)
        { device with
          pool := pool
          crypto := crypto
          uplink :=
            { device.uplink with
              queue := rest
              header := none
              transport := device.uplink.transport ++ device.uplink.header.toList.map .header ++
                [.block block sent] } }
  | dropped (device : Device Key) (block : Buf) (rest : List Buf) (crypto : Crypto Key) (pool : Ledger)
      (active : device.uplink.sessionActive = true)
      (opened : device.uplink.pouchClosed = false) (queue : device.uplink.queue = block :: rest)
      (exchange : Exchange device.pool {block.id} pool 0)
      (build : crypto.isPlaintext = device.crypto.isPlaintext)
      (encrypts : device.crypto.isPlaintext = false) :
      SmallStep device (.dropped block device.starting.isSome)
        { device with pool := pool, crypto := crypto, uplink := { device.uplink with queue := rest } }
  | closed (device : Device Key) (closing : device.uplink.pouchClosing = true)
      (drained : device.uplink.sessionActive = true → device.uplink.pouchClosed = false →
        device.uplink.queue = []) :
      SmallStep device (.closed device.closers)
        { device with uplink := { device.uplink with pouchClosed := true } }
  | closeCalled (device : Device Key) (opened : device.uplink.pouchClosing = false) :
      SmallStep device (.closeCalled device.uplink.sessionActive false)
        { device with uplink := { device.uplink with pouchClosing := true }, closers := device.closers + 1 }
  | closeRefused (device : Device Key) (closing : device.uplink.pouchClosing = true) :
      SmallStep device (.closeCalled device.uplink.sessionActive true) device
  | closeReturned (device : Device Key) (lock : Status) (inside : 0 < device.closers)
      (passed : lock = none → ∀ opened, device.entryBlock = some opened → opened.data.bytes = 0) :
      SmallStep device (.closeReturned lock)
        { device with uplink := { device.uplink with work := true }, closers := device.closers - 1 }
  | activated (device : Device Key) (idle : device.starting = none)
      (inactive : device.uplink.sessionActive = false) :
      SmallStep device .activated
        { device with uplink := { device.uplink with sessionActive := true }, starting := some .session }
  | sessionStarted (device : Device Key) (crypto : Crypto Key) (next : device.starting = some .session)
      (build : crypto.isPlaintext = device.crypto.isPlaintext) :
      SmallStep device .sessionStarted { device with crypto := crypto, starting := some .pouch }
  | pouchStarted (device : Device Key) (crypto : Crypto Key) (next : device.starting = some .pouch)
      (build : crypto.isPlaintext = device.crypto.isPlaintext) :
      SmallStep device .pouchStarted { device with crypto := crypto, starting := some .header }
  | startFailed (device : Device Key) (crypto : Crypto Key) (inside : device.starting.isSome = true)
      (build : crypto.isPlaintext = device.crypto.isPlaintext) :
      SmallStep device (.startFailed none) (startFail { device with crypto := crypto })
  | headerFailed (device : Device Key) (pool : Ledger) (inside : device.starting = some .header)
      (exchange : Exchange device.pool 0 pool 0) :
      SmallStep device (.startFailed device.uplink.header)
        (startFail { device with pool := pool, uplink := { device.uplink with header := none } })
  | headerCreated (device : Device Key) (header : Buf) (pool : Ledger) (work : Bool)
      (inside : device.starting = some .header) (exchange : Exchange device.pool 0 pool {header.id}) :
      SmallStep device (.headerCreated header device.uplink.header)
        { device with
          pool := pool
          uplink := { device.uplink with header := some header, work := work }
          starting := none }
  | taken (device : Device Key) (packet : Outgoing) (rest : List Outgoing)
      (queue : device.uplink.transport = packet :: rest) (free : device.uplink.reader = none) :
      SmallStep device (.taken packet)
        { device with
          uplink := { device.uplink with transport := rest, reader := some packet, offset := 0 } }
  | copied (device : Device Key) (bytes : List UInt8) (offset : Nat) :
      SmallStep device (.copied bytes) { device with uplink := { device.uplink with offset := offset } }
  | released (device : Device Key) (packet : Outgoing) (held : device.uplink.reader = some packet) :
      SmallStep device (.released packet)
        { device with
          pool := device.pool.free packet.buf.id
          uplink := { device.uplink with reader := none, offset := 0 } }
  | sessionEnded (device : Device Key) (idle : device.starting = none) :
      SmallStep device .sessionEnded (endSession device)
  | noMoreData (device : Device Key) (active : device.uplink.sessionActive = true)
      (closed : device.uplink.pouchClosed = true) (read : device.uplink.reader = none)
      (emptied : device.uplink.transport = []) :
      SmallStep device .noMoreData device
  | finished (device : Device Key) (pool : Ledger) (idle : device.starting = none)
      (exchange : Exchange device.pool (idsOf (device.uplink.transport.map Outgoing.buf) +
        idsOf (device.uplink.reader.map Outgoing.buf).toList + idsOf device.uplink.header.toList) pool 0) :
      SmallStep device (.finished device.uplink.reader device.uplink.transport device.uplink.queue)
        { device with
          pool := pool
          uplink :=
            { device.uplink with
              header := none
              sessionActive := false
              pouchClosing := false
              pouchClosed := false
              id := (device.uplink.id + 1) % 2 ^ 32
              transport := []
              reader := none
              offset := 0 } }
  | downlink (device : Device Key) (event : Event) (pool : Ledger) (crypto : Crypto Key)
      (downlink : DownlinkState) (on : event.party = .downlink)
      (build : crypto.isPlaintext = device.crypto.isPlaintext)
      (exchange : Exchange device.pool device.downlink.held pool
        (downlink.held + idsOf event.overwritten.toList)) :
      SmallStep device event { device with pool := pool, crypto := crypto, downlink := downlink }

end Pouch
