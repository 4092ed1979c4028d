import Pouch.Buf

set_option autoImplicit false

namespace Pouch

open ByteMemory

def blockIdMask : UInt8 := 0x1f
def blockIdEntry : UInt8 := 0x00
def firstDataMask : UInt8 := 0x40
def lastDataMask : UInt8 := 0x80

structure BlockHdr where
  blockSize : Nat
  streamId : UInt8
  isStream : Bool
  isFirst : Bool
  isLast : Bool
  deriving DecidableEq, Repr

def decodeId (blockSize : Nat) (id : UInt8) : BlockHdr :=
  { blockSize := blockSize
    streamId := id &&& blockIdMask
    isStream := id &&& blockIdMask != blockIdEntry
    isFirst := id &&& firstDataMask != 0
    isLast := id &&& lastDataMask != 0 }

def blockDecodeHdr (cfg : Config) (view : Bufview) : BlockHdr × Bufview :=
  let (blockSize, view) := pouchBufviewReadBe16 cfg view
  let (id, view) := pouchBufviewReadByte cfg view
  (decodeId blockSize id, view)

def updateBlockHeader (block : PouchBuf) (size : Nat) (flags : UInt8) : PouchBuf :=
  let (sizePosition, block) := bufClaim block 2
  let block := bufPut block sizePosition (putBe16 size)
  let (idPosition, block) := bufClaim block 1
  -- The flags are added to the ID byte that is already in the memory.
  bufPut block idPosition [block.buf idPosition ||| flags]

def writeBlockHeader (block : PouchBuf) (size : Nat) (id flags : UInt8) : PouchBuf :=
  let (sizePosition, block) := bufClaim block 2
  let block := bufPut block sizePosition (putBe16 size)
  let (idPosition, block) := bufClaim block 1
  bufPut block idPosition [id ||| flags]

def blockSizeGet (block : PouchBuf) : Nat := bufSizeGet block

def blockSpaceGet (cfg : Config) (block : PouchBuf) : Nat :=
  cfg.sizeSub cfg.maxPlaintextBlockSize (blockSizeGet block)

def blockSizeWrite (block : PouchBuf) (size : Nat) : PouchBuf :=
  let (position, block) := bufClaim block 2
  bufPut block position (putBe16 size)

def blockAlloc (malloc : Option Memory) : Option PouchBuf :=
  (bufAlloc malloc).map fun block =>
    writeBlockHeader block 0 blockIdEntry (firstDataMask ||| lastDataMask)

def blockAllocStream (malloc : Option Memory) (streamId : UInt8) (first : Bool) :
    Option PouchBuf :=
  (bufAlloc malloc).map fun block =>
    writeBlockHeader block 0 streamId (if first then firstDataMask else 0)

def finish (cfg : Config) (block : PouchBuf) (_id flags : UInt8) : PouchBuf :=
  let size := blockSizeGet block
  let state := bufStateGet block
  -- Roll back to the start so that the header is overwritten in place.
  let block := bufRestore block 0
  let block := updateBlockHeader block (cfg.sizeSub size 2) flags
  bufRestore block state

def blockFinish (cfg : Config) (block : PouchBuf) : PouchBuf :=
  finish cfg block blockIdEntry (firstDataMask ||| lastDataMask)

def blockFinishStream (cfg : Config) (block : PouchBuf) (streamId : UInt8) (last : Bool) :
    PouchBuf :=
  finish cfg block streamId (if last then lastDataMask else 0)

theorem writeBlockHeader_contents (block : PouchBuf) (size : Nat) (id flags : UInt8) :
    (writeBlockHeader block size id flags).contents =
      block.contents ++ putBe16 size ++ [id ||| flags] := by
  have same : writeBlockHeader block size id flags =
      bufWrite (bufWrite block (putBe16 size)) [id ||| flags] := rfl
  rw [same, bufWrite_contents, bufWrite_contents]

theorem blockAlloc_some (malloc : Option Memory) (block : PouchBuf)
    (allocated : blockAlloc malloc = some block) :
    block.contents = [0, 0, firstDataMask ||| lastDataMask] := by
  cases malloc with
  | none => simp [blockAlloc, bufAlloc] at allocated
  | some memory =>
    simp only [blockAlloc, bufAlloc, Option.map_some, Option.some.injEq] at allocated
    rw [← allocated, writeBlockHeader_contents]
    rfl

theorem blockAlloc_bytes (malloc : Option Memory) (block : PouchBuf)
    (allocated : blockAlloc malloc = some block) : block.bytes = 3 := by
  have length := congrArg List.length (blockAlloc_some malloc block allocated)
  simpa using length

theorem blockAllocStream_some (malloc : Option Memory) (streamId : UInt8) (first : Bool)
    (block : PouchBuf) (allocated : blockAllocStream malloc streamId first = some block) :
    block.contents = [0, 0, streamId ||| if first then firstDataMask else 0] := by
  cases malloc with
  | none => simp [blockAllocStream, bufAlloc] at allocated
  | some memory =>
    simp only [blockAllocStream, bufAlloc, Option.map_some, Option.some.injEq] at allocated
    rw [← allocated, writeBlockHeader_contents]
    rfl

theorem blockAllocStream_bytes (malloc : Option Memory) (streamId : UInt8) (first : Bool)
    (block : PouchBuf) (allocated : blockAllocStream malloc streamId first = some block) :
    block.bytes = 3 := by
  have length := congrArg List.length (blockAllocStream_some malloc streamId first block allocated)
  simpa using length

theorem blockSpaceGet_of_le (cfg : Config) (block : PouchBuf)
    (within : block.bytes ≤ cfg.maxPlaintextBlockSize) :
    blockSpaceGet cfg block = cfg.maxPlaintextBlockSize - block.bytes := by
  have small := cfg.maxCiphertextBlockSize_lt
  have range := cfg.sizeRange_ge
  exact cfg.sizeSub_of_le _ _ within (by
    simp only [Config.maxCiphertextBlockSize] at small
    omega)

@[simp] theorem finish_bytes (cfg : Config) (block : PouchBuf) (id flags : UInt8) :
    (finish cfg block id flags).bytes = block.bytes := rfl

theorem finish_contents (cfg : Config) (block : PouchBuf) (given flags high low id : UInt8)
    (payload : List UInt8) (fits : block.bytes < cfg.sizeRange)
    (before : block.contents = high :: low :: id :: payload) :
    (finish cfg block given flags).contents =
      putBe16 (payload.length + 1) ++ (id ||| flags) :: payload := by
  have length : block.bytes = payload.length + 3 := by
    have total := congrArg List.length before
    simpa using total
  have size : cfg.sizeSub block.bytes 2 = payload.length + 1 := by
    rw [cfg.sizeSub_of_le _ _ (by omega) fits]
    omega
  have idByte : block.buf 2 = id := by
    have third := load_getElem? block.buf 0 block.bytes 2 (by omega)
    change block.contents[2]? = _ at third
    simp only [before, Nat.zero_add, List.getElem?_cons_succ, List.getElem?_cons_zero,
      Option.some.injEq] at third
    exact third.symm
  have payloadBytes : load block.buf 3 payload.length = payload := by
    have dropped := load_drop block.buf 0 block.bytes 3 (by omega)
    change block.contents.drop 3 = _ at dropped
    simp only [before, List.drop_succ_cons, List.drop_zero, Nat.zero_add] at dropped
    rw [length, Nat.add_sub_cancel] at dropped
    exact dropped.symm
  -- The memory after the two stores: the size field, then the ID byte behind it.
  have memory : (finish cfg block given flags).buf =
      store (store block.buf 0 (putBe16 (payload.length + 1))) 2
        [store block.buf 0 (putBe16 (payload.length + 1)) 2 ||| flags] := by
    simp only [finish, updateBlockHeader, bufRestore, bufClaim, bufPut, blockSizeGet, bufSizeGet, size]
  have keptId : store block.buf 0 (putBe16 (payload.length + 1)) 2 = id := by
    rw [store_outside _ _ _ _ (Or.inr (by simp)), idByte]
  have split : block.bytes = 2 + (1 + payload.length) := by omega
  rw [PouchBuf.contents, finish_bytes, memory, keptId, split, load_add, load_add]
  rw [load_store_frame _ _ _ 0 2 (Or.inl (by omega)),
    load_store_frame _ _ _ (0 + 2 + 1) _ (Or.inr (by simp))]
  have sizeBytes := load_store_same block.buf 0 (putBe16 (payload.length + 1))
  have idBytes := load_store_same (store block.buf 0 (putBe16 (payload.length + 1))) 2 [id ||| flags]
  simp only [putBe16_length, List.length_cons, List.length_nil, Nat.zero_add] at sizeBytes idBytes ⊢
  rw [sizeBytes, idBytes, load_store_frame _ _ _ _ _ (Or.inr (by simp)), payloadBytes]
  simp

end Pouch
