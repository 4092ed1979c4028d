import Pouch.Block

set_option autoImplicit false

namespace Pouch

open ByteMemory

-- A pointer into the block and a length; NULL is `none`.
structure Slice where
  pointer : Option Nat
  length : Nat
  deriving DecidableEq, Repr

/-- What can be observed of a decoding run: the position of the view after every read, and the
calls of the downlink handlers with the memory they are given. -/
inductive DownlinkEvent where
  | view (offset : Nat)
  | start (streamId : Nat) (path : Slice) (contentType : Nat)
  | data (streamId : Nat) (data : Slice) (isLast : Bool)
  deriving DecidableEq, Repr

-- The body of the loop in `pouch_downlink_entries_push`.
def downlinkEntryPush (cfg : Config) (view : Bufview) : List DownlinkEvent × Bufview :=
  let (dataLen, lengthRead) := pouchBufviewReadBe16 cfg view
  let (contentType, typeRead) := pouchBufviewReadBe16 cfg lengthRead
  let (pathLen, pathLenRead) := pouchBufviewReadByte cfg typeRead
  let (path, pathRead) := pouchBufviewRead cfg pathLenRead pathLen.toNat
  let (data, dataRead) := pouchBufviewRead cfg pathRead dataLen
  ([.view lengthRead.offset, .view typeRead.offset, .view pathLenRead.offset,
    .view pathRead.offset, .view dataRead.offset,
    .start 0 ⟨path, pathLen.toNat⟩ contentType, .data 0 ⟨data, dataLen⟩ true], dataRead)

def pouchDownlinkEntriesPush (cfg : Config) : Nat → Bufview → Option (List DownlinkEvent)
  -- The loop has no bound of its own; `none` is a run that has not ended yet.
  | 0, _ => none
  | fuel + 1, view =>
    if pouchBufviewAvailable cfg view = 0 then
      some []
    else
      let (events, next) := downlinkEntryPush cfg view
      (pouchDownlinkEntriesPush cfg fuel next).map (events ++ ·)

def downlinkStreamHeader (cfg : Config) (view : Bufview) (streamId : Nat) :
    List DownlinkEvent × Bufview :=
  let (contentType, typeRead) := pouchBufviewReadBe16 cfg view
  let (pathLen, pathLenRead) := pouchBufviewReadByte cfg typeRead
  let (path, pathRead) := pouchBufviewRead cfg pathLenRead pathLen.toNat
  ([.view typeRead.offset, .view pathLenRead.offset, .view pathRead.offset,
    .start streamId ⟨path, pathLen.toNat⟩ contentType], pathRead)

def pouchDownlinkStreamPush (cfg : Config) (view : Bufview) (streamId : Nat)
    (isFirst isLast : Bool) : List DownlinkEvent :=
  let (header, view) := if isFirst then downlinkStreamHeader cfg view streamId else ([], view)
  -- `data_len` is a 16-bit variable.
  let dataLen := pouchBufviewAvailable cfg view % 65536
  let (data, dataRead) := pouchBufviewRead cfg view dataLen
  header ++ [.view dataRead.offset, .data streamId ⟨data, dataLen⟩ isLast]

def pouchDownlinkBlockPush (cfg : Config) (fuel : Nat) (buf : PouchBuf) :
    Option (List DownlinkEvent) :=
  let sizeRead := (pouchBufviewReadBe16 cfg (pouchBufviewInit buf)).2
  let (header, view) := blockDecodeHdr cfg (pouchBufviewInit buf)
  let events :=
    if header.isStream then
      some (pouchDownlinkStreamPush cfg view header.streamId.toNat header.isFirst header.isLast)
    else
      pouchDownlinkEntriesPush cfg fuel view
  events.map fun rest => [.view sizeRead.offset, .view view.offset] ++ rest

end Pouch
