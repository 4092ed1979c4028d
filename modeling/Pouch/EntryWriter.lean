import Pouch.BlockDecoding
import Pouch.Shared.History

set_option autoImplicit false

namespace Pouch

open ByteMemory

-- A NUL-terminated string, as the bytes in front of its terminator.
structure CString where
  bytes : List UInt8
  noNul : ∀ byte ∈ bytes, byte ≠ 0

def entryHeaderOverhead : Nat := 5

def writeEntry (cfg : Config) (block : PouchBuf) (path : CString) (contentType : UInt16)
    (data : List UInt8) : Option PouchBuf :=
  let pathlen := path.bytes.length
  if blockSpaceGet cfg block < (entryHeaderOverhead + pathlen + data.length) % cfg.sizeRange then
    -- -ENOMEM
    none
  else
    let block := bufWrite block (putBe16 data.length)
    let block := bufWrite block (putBe16 contentType.toNat)
    let block := bufWrite block [UInt8.ofNat pathlen]
    let block := bufWrite block path.bytes
    some (bufWrite block data)

/-- One call of `pouch_uplink_entry_write`, with the results of the mutex and of the allocator
during that call: on every path at most one block is allocated. -/
structure EntryWrite where
  path : Option CString
  contentType : UInt16
  data : Option (List UInt8)
  lock : Status
  malloc : Option Memory

structure EntryResult where
  status : Status
  block : Option PouchBuf
  enqueued : List PouchBuf

def pouchUplinkEntryWrite (cfg : Config) (block : Option PouchBuf) (call : EntryWrite) :
    EntryResult :=
  match call.path, call.data with
  | some path, some data =>
    if data.length = 0 then
      { status := some .einval, block := block, enqueued := [] }
    else
      match call.lock with
      | some err => { status := some err, block := block, enqueued := [] }
      | none =>
        let blockIsNew := block.isNone
        match if blockIsNew then blockAlloc call.malloc else block with
        | none => { status := some .enomem, block := none, enqueued := [] }
        | some opened =>
          match writeEntry cfg opened path call.contentType data with
          | some written => { status := none, block := some written, enqueued := [] }
          | none =>
            if blockIsNew then
              { status := some .enomem, block := some opened, enqueued := [] }
            else
              -- The block is full: pass it on and try again with a new one.
              let finished := blockFinish cfg opened
              match blockAlloc call.malloc with
              | none => { status := some .enomem, block := none, enqueued := [finished] }
              | some fresh =>
                match writeEntry cfg fresh path call.contentType data with
                | some written => { status := none, block := some written, enqueued := [finished] }
                | none => { status := some .enomem, block := some fresh, enqueued := [finished] }
  | _, _ => { status := some .einval, block := block, enqueued := [] }

def entryBlockClose (cfg : Config) (block : Option PouchBuf) (lock : Status) : EntryResult :=
  match lock with
  | some err => { status := some err, block := block, enqueued := [] }
  | none =>
    match block with
    | none => { status := none, block := none, enqueued := [] }
    | some opened =>
      if 0 < blockSizeGet opened then
        { status := none, block := none, enqueued := [blockFinish cfg opened] }
      else
        { status := none, block := some opened, enqueued := [] }

end Pouch
