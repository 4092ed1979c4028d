import Pouch.Device.Downlink
import Pouch.Device.Writers
import Pouch.Shared.History

set_option autoImplicit false

namespace Pouch

open ByteMemory

/-- One step of a party: the application threads, the two work queues and the transport. Each comes
with the outcomes of the calls out of the library. `pouch_uplink_close` and `pouch_uplink_start`
are split, so that the other parties may run in between. -/
inductive DeviceOp (Key : Type) where
  | entryWrite (call : EntryWrite)
  | streamOpen (path : CString) (contentType : UInt16) (structAllocated : Bool) (malloc : Option Memory)
  | streamWrite (handle : Nat) (data : List UInt8) (malloc : Nat → Option Memory)
  | streamClose (handle : Nat)
  -- `uplink_enqueue` with any block.
  | enqueue (malloc : Option Memory) (bytes : List UInt8)
  | closeCall
  | closeReturn (lock : Status)
  | processBlocks (calls : Nat → BlockCall Key)
  | startActivate
  | startSession (call : SessionCall Key)
  | startPouch
  | startHeader (call : HeaderCall)
  | fill (maxlen : Nat)
  | finish
  | downlinkStart (malloc : Option Memory)
  | downlinkPush (call : PushCall Key) (data : List UInt8)
  | decryptBlocks (call : BlockCall Key)
  | consumeBlocks

def DeviceOp.party {Key : Type} : DeviceOp Key → Party
  | .entryWrite _ | .streamOpen _ _ _ _ | .streamWrite _ _ _ | .streamClose _ | .enqueue _ _ => .application
  | .closeCall | .closeReturn _ => .close
  | .processBlocks _ => .worker
  | .startActivate | .startSession _ | .startPouch | .startHeader _ => .start
  | .fill _ => .read
  | .finish => .finish
  | .downlinkStart _ | .downlinkPush _ _ | .decryptBlocks _ | .consumeBlocks => .downlink

namespace Device

variable {Key : Type} (cfg : Config)

def enqueueBlock (malloc : Option Memory) (bytes : List UInt8) (device : Device Key) :
    Device Key × List Event :=
  match bufHold device.pool .internal (bufAlloc malloc) with
  | (none, pool) => ({ device with pool := pool }, [])
  | (some buf, pool) =>
    let block := buf.write bytes
    ({ device with pool := pool, uplink := uplinkEnqueue device.uplink block }, [.enqueued block])

-- The transport is in one call at a time.
def inTransport (device : Device Key) (call : Device Key → Device Key × List Event) :
    Device Key × List Event :=
  if device.starting.isSome then (device, []) else call device

def step (device : Device Key) : DeviceOp Key → Device Key × List Event
  | .entryWrite call => (device.pouchUplinkEntryWrite cfg call).2
  | .streamOpen path contentType structAllocated malloc =>
    device.pouchUplinkStreamOpen path contentType structAllocated malloc
  | .streamWrite handle data malloc => device.pouchStreamWrite cfg handle data malloc
  | .streamClose handle => device.pouchStreamClose cfg handle
  | .enqueue malloc bytes => device.enqueueBlock malloc bytes
  | .closeCall => closeCall device
  | .closeReturn lock => device.closeReturn cfg lock
  | .processBlocks calls => processBlocks cfg calls device
  | .startActivate => startActivate device
  | .startSession call => startSession cfg call device
  | .startPouch => startPouch device
  | .startHeader call => startHeader call device
  | .fill maxlen =>
    device.inTransport fun device =>
      let (_, read) := pouchUplinkFill cfg maxlen device
      (read.device, read.events)
  | .finish => device.inTransport pouchUplinkFinish
  | .downlinkStart malloc => device.pouchDownlinkStart malloc
  | .downlinkPush call data => device.pouchDownlinkPush cfg call data
  | .decryptBlocks call => device.decryptBlocks cfg call
  | .consumeBlocks => device.consumeBlocks

end Device

end Pouch
