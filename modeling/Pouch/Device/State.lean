import Pouch.Saead.State
import Pouch.Shared.Ledger
import Pouch.Stream

set_option autoImplicit false

namespace Pouch

open ByteMemory

-- The writer a block is from; the buffers of the library itself have none.
inductive Owner where
  | entries
  | stream (handle sessionId : Nat)
  | internal
  deriving DecidableEq

/-- A `struct pouch_buf` on the heap, under the number of its allocation. The owner is not in the
source: it says whom the buffer was allocated for. -/
structure Buf where
  id : Nat
  owner : Owner
  data : PouchBuf

def Buf.isStream (buf : Buf) : Bool :=
  match buf.owner with
  | .stream _ _ => true
  | _ => false

-- What is on its way to the transport: a block comes with the block that it was encrypted from.
inductive Outgoing where
  | header (buf : Buf)
  | block (plain buf : Buf)

def Outgoing.buf : Outgoing → Buf
  | .header buf => buf
  | .block _ buf => buf

def Outgoing.sent? : Outgoing → Option Buf
  | .header _ => none
  | .block _ buf => some buf

-- The crypto layer of the build.
inductive Crypto (Key : Type) where
  | none
  | saead (state : Saead Key)

/-- `struct pouch_uplink`. The error field is left out: nothing writes it. -/
structure Uplink where
  header : Option Buf
  sessionActive : Bool
  pouchClosing : Bool
  pouchClosed : Bool
  id : Nat
  -- `processing`: the queue, and whether the work item is pending.
  queue : List Buf
  work : Bool
  -- `transport`: the queue and the reader.
  transport : List Outgoing
  reader : Option Outgoing
  offset : Nat

def Uplink.view (uplink : Uplink) : Bufview := ⟨uplink.reader.map (·.buf.data), uplink.offset⟩

-- `struct pouch_stream`, as `PouchStream` but with its buffer on the heap.
structure UplinkStream where
  id : UInt8
  buf : Buf
  bytes : Nat
  sessionId : Nat

inductive StartStep where
  | session
  | pouch
  | header
  deriving DecidableEq

-- The static state of `downlink.c`: a work item is pending or not.
structure DownlinkState where
  pouchBuf : Option Buf
  pouchHeader : Bool
  decryptQueue : List Buf
  decryptWork : Bool
  consumeQueue : List Buf
  consumeWork : Bool

/-- The state of the whole library. A thread inside `pouch_uplink_close`, between its two steps, is
counted in `closers`; `starting` is where the transport is inside `pouch_uplink_start`. -/
structure Device (Key : Type) where
  pool : Ledger
  crypto : Crypto Key
  uplink : Uplink
  entryBlock : Option Buf
  streamId : Nat
  openStreams : Nat
  streams : Nat → Option UplinkStream
  nextHandle : Nat
  closers : Nat
  starting : Option StartStep
  downlink : DownlinkState

def Crypto.boot (Key : Type) : Encryption → Crypto Key
  | .none => .none
  | .saead => .saead .boot

def Device.boot (Key : Type) (cfg : Config) : Device Key where
  pool := .empty
  crypto := .boot Key cfg.encryption
  uplink :=
    { header := none
      sessionActive := false
      pouchClosing := false
      pouchClosed := false
      id := 0
      queue := []
      work := false
      transport := []
      reader := none
      offset := 0 }
  entryBlock := none
  streamId := 1
  openStreams := 0
  streams := fun _ => none
  nextHandle := 0
  closers := 0
  starting := none
  downlink := ⟨none, false, [], false, [], false⟩

/-- What an operation reports: one event for each small step it takes. -/
inductive Event where
  | entryOpened (block : Buf)
  -- An entry was written to the open block, which is now this one.
  | entryAccepted (block : Buf) (entry : List UInt8)
  | entryPassed (block : Buf)
  | streamOpened (handle : Nat) (stream : UplinkStream)
  -- A stream ID was used up.
  | openFailed
  | streamWrote (handle : Nat) (stream : UplinkStream)
  -- A full block was passed on and another one took its place.
  | streamPassed (handle : Nat) (block fresh : Buf)
  | streamClosed (handle : Nat) (passed : Option Buf)
  | enqueued (block : Buf)
  | workStarted
  -- A block was put on the transport queue, behind the header if that was still there.
  | processed (block : Buf) (header : Option Buf) (sent : Buf) (starting : Bool) (sessionId : Nat)
  -- `crypto_encrypt_block` returned NULL.
  | dropped (block : Buf) (starting : Bool)
  | closed (closers : Nat)
  | closeCalled (active already : Bool)
  | closeReturned (lock : Status)
  | activated
  | sessionStarted
  | pouchStarted
  -- `overwritten` is what `uplink.header` pointed to before.
  | startFailed (overwritten : Option Buf)
  | headerCreated (header : Buf) (overwritten : Option Buf)
  | taken (packet : Outgoing)
  | copied (bytes : List UInt8)
  | released (packet : Outgoing)
  | sessionEnded
  | noMoreData
  | finished (reader : Option Outgoing) (transport : List Outgoing) (waiting : List Buf)
  -- `overwritten` is what `pouch_buf` pointed to before.
  | downlinkStarted (overwritten : Option Buf)
  | downlinkPushed
  -- `crypto_decrypt_block` was called, and what it returned.
  | decrypted (block result : Option Buf)
  -- The block was given to `pouch_downlink_block_push`.
  | consumed (block : Option Buf)

inductive Party where
  | application
  | close
  | worker
  | start
  | read
  | finish
  | downlink
  deriving DecidableEq

def Event.party : Event → Party
  | .entryOpened _ | .entryAccepted _ _ | .entryPassed _ | .streamOpened _ _ | .openFailed
  | .streamWrote _ _ | .streamPassed _ _ _ | .streamClosed _ _ | .enqueued _ => .application
  | .closeCalled _ _ | .closeReturned _ => .close
  | .workStarted | .processed _ _ _ _ _ | .dropped _ _ | .closed _ => .worker
  | .activated | .sessionStarted | .pouchStarted | .startFailed _ | .headerCreated _ _ => .start
  | .taken _ | .copied _ | .released _ | .sessionEnded | .noMoreData => .read
  | .finished _ _ _ => .finish
  | .downlinkStarted _ | .downlinkPushed | .decrypted _ _ | .consumed _ => .downlink

theorem Event.of_downlink {event : Event} (on : event.party = .downlink) :
    (∃ overwritten, event = .downlinkStarted overwritten) ∨ event = .downlinkPushed ∨
      (∃ block result, event = .decrypted block result) ∨ ∃ block, event = .consumed block := by
  cases event with
  | downlinkStarted overwritten => exact .inl ⟨overwritten, rfl⟩
  | downlinkPushed => exact .inr (.inl rfl)
  | decrypted block result => exact .inr (.inr (.inl ⟨block, result, rfl⟩))
  | consumed block => exact .inr (.inr (.inr ⟨block, rfl⟩))
  | _ => simp [Event.party] at on

-- A call reports its own steps, and those of the calls that it makes.
def Event.reportedBy : Event → Party → Bool
  | .sessionEnded, .finish => true
  | .entryPassed _, .close => true
  | event, party => event.party = party

theorem Event.party_of_reportedBy {event : Event} {party : Party} (reported : event.reportedBy party = true) :
    event.party = party ∨ event = .sessionEnded ∧ party = .finish ∨
      (∃ block, event = .entryPassed block) ∧ party = .close := by
  unfold Event.reportedBy at reported
  split at reported
  · exact .inr (.inl ⟨rfl, rfl⟩)
  · exact .inr (.inr ⟨⟨_, rfl⟩, rfl⟩)
  · exact .inl (by simpa using reported)

end Pouch
