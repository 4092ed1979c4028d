import Pouch.Device.State

set_option autoImplicit false

namespace Pouch

open ByteMemory

-- `buf_alloc` and what is built on it, given the buffer that came out of it.
def bufHold (pool : Ledger) (owner : Owner) (allocated : Option PouchBuf) : Option Buf × Ledger :=
  match allocated with
  | none => (none, pool)
  | some data => (some ⟨pool.next, owner, data⟩, pool.alloc)

structure BlockCall (Key : Type) where
  malloc : Option Memory
  psa : PsaAead Key

-- The block functions of `session.c` allocate their result first and free it on every path that
-- fails after that.
def bufProduce (pool : Ledger) (malloc : Option Memory) (produced : Option PouchBuf) :
    Option Buf × Ledger :=
  match bufHold pool .internal (bufAlloc malloc) with
  | (none, pool) => (none, pool)
  | (some buf, pool) =>
    match produced with
    | none => (none, pool.free buf.id)
    | some data => (some { buf with data := data }, pool)

-- The outcomes of the calls behind `crypto_session_start`; the algorithm is that of the build.
structure SessionCall (Key : Type) where
  algorithm : Algorithm
  random : Option (Bytes 16)
  keys : KeySource Key

namespace Crypto

variable {Key : Type} (cfg : Config)

def sessionStart (call : SessionCall Key) : Crypto Key → Status × Crypto Key
  | .none => (.none, .none)
  | .saead state =>
    let (status, uplink) := uplinkSessionStart cfg state.uplink call.algorithm call.random call.keys
    (status, .saead { state with uplink := uplink })

def sessionEnd : Crypto Key → Crypto Key
  | .none => .none
  | .saead state => .saead (cryptoSessionEnd state)

def pouchStart : Crypto Key → Status × Crypto Key
  | .none => (.none, .none)
  | .saead state =>
    let (status, uplink) := uplinkPouchStart state.uplink
    (status, .saead { state with uplink := uplink })

-- `certRef`: whether `cert_ref_get` has a reference to the device certificate.
def headerGet (certRef : Bool) : Crypto Key → Status
  | .none => .none
  | .saead state =>
    if state.uplink.flags.active then
      if certRef then .none else some .ebusy
    else
      some .enotconn

def downlinkStart (info : EncryptionInfo) (keys : KeySource Key) : Crypto Key → Status × Crypto Key
  | .none =>
    match info with
    | .plaintext _ => (.none, .none)
    | .saead _ _ => (some .enotsup, .none)
  | .saead state =>
    let (status, state) := cryptoDownlinkStart cfg state info keys
    (status, .saead state)

-- The block is freed in any case where it is not the result.
def encryptBlock (call : BlockCall Key) (pool : Ledger) (block : Buf) :
    Crypto Key → Option Buf × Crypto Key × Ledger
  | .none => (some block, .none, pool)
  | .saead state =>
    if state.uplink.flags.active then
      let outcome := sessionEncryptBlock cfg call.malloc call.psa state.uplink block.data
      let (encrypted, pool) := bufProduce pool call.malloc outcome.block
      (encrypted, .saead { state with uplink := outcome.session }, pool.free block.id)
    else
      (.none, .saead state, pool.free block.id)

def decryptBlock (call : BlockCall Key) (pool : Ledger) (block : Buf) :
    Crypto Key → Option Buf × Crypto Key × Ledger
  | .none => (some block, .none, pool)
  | .saead state =>
    let (produced, state) := downlinkBlockDecrypt cfg call.malloc call.psa state block.data
    let (decrypted, pool) := bufProduce pool call.malloc produced
    (decrypted, .saead state, pool.free block.id)

end Crypto

section Exchange

open Ledger

theorem exchange_hold (pool : Ledger) (owner : Owner) (allocated : Option PouchBuf) :
    Exchange pool 0 (bufHold pool owner allocated).2
      ((bufHold pool owner allocated).1.map Buf.id).toList := by
  cases allocated with
  | none => exact Exchange.refl pool 0
  | some data => exact exchange_alloc pool

theorem exchange_produce (pool : Ledger) (malloc : Option Memory) (produced : Option PouchBuf) :
    Exchange pool 0 (bufProduce pool malloc produced).2
      ((bufProduce pool malloc produced).1.map Buf.id).toList := by
  cases malloc with
  | none => exact Exchange.refl pool 0
  | some memory =>
    have allocated := exchange_alloc pool
    cases produced with
    | none => exact allocated.trans (exchange_free pool.alloc pool.next)
    | some data => exact allocated

variable {Key : Type} (cfg : Config) (call : BlockCall Key) (pool : Ledger) (block : Buf)
  (crypto : Crypto Key)

theorem exchange_free_behind (pool next : Ledger) (block : Buf) (given : Multiset Nat)
    (produced : Exchange pool 0 next given) :
    Exchange pool {block.id} (next.free block.id) given := by
  have framed := produced.frame {block.id}
  have freed := (exchange_free next block.id).frame given
  rw [zero_add] at framed
  rw [zero_add, add_comm] at freed
  exact framed.trans freed

theorem exchange_encryptBlock :
    Exchange pool {block.id} (crypto.encryptBlock cfg call pool block).2.2
      (((crypto.encryptBlock cfg call pool block).1.map Buf.id).toList) := by
  cases crypto with
  | none => exact Exchange.refl pool {block.id}
  | saead state =>
    simp only [Crypto.encryptBlock]
    split_ifs
    · exact exchange_free_behind pool _ block _ (exchange_produce pool _ _)
    · exact exchange_free pool block.id

theorem exchange_decryptBlock :
    Exchange pool {block.id} (crypto.decryptBlock cfg call pool block).2.2
      (((crypto.decryptBlock cfg call pool block).1.map Buf.id).toList) := by
  cases crypto with
  | none => exact Exchange.refl pool {block.id}
  | saead state => exact exchange_free_behind pool _ block _ (exchange_produce pool _ _)

end Exchange

end Pouch
