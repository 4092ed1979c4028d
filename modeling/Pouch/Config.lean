import Mathlib.Algebra.Group.Nat.Defs
import Mathlib.Data.Nat.Log

set_option autoImplicit false

namespace Pouch

inductive Encryption where
  | none
  | saead
  deriving DecidableEq, Repr

inductive Errno where
  | einval
  | enomem
  | eagain
  | ebusy
  | eio
  | enotsup
  | enotconn
  | ebadmsg
  deriving DecidableEq, Repr

-- The `int` results of the source: `none` is 0, `some` a negative error code.
abbrev Status := Option Errno

/-- The build configuration. `blockSize` and `serverCertMaxLen` are the Kconfig `int`s
CONFIG_POUCH_BLOCK_SIZE and CONFIG_POUCH_SERVER_CERT_MAX_LEN, which have no range; `sizeBits` is
the width of `size_t` on the target. -/
structure Config where
  blockSize : Nat
  serverCertMaxLen : Nat
  encryption : Encryption
  sizeBits : Nat
  blockSizePositive : 0 < blockSize
  blockSizeInt : blockSize < 2 ^ 31
  serverCertMaxLenInt : serverCertMaxLen < 2 ^ 31
  sizeBitsWide : 32 ≤ sizeBits

namespace Config

def authTagLen (cfg : Config) : Nat :=
  match cfg.encryption with
  | .saead => 16
  | .none => 0

def maxBlockPayloadSizeLog (cfg : Config) : Nat := Nat.log 2 cfg.blockSize

def maxBlockPayloadSize (cfg : Config) : Nat := 2 ^ cfg.maxBlockPayloadSizeLog

def blockHeaderSize : Nat := 3

def maxPlaintextBlockSize (cfg : Config) : Nat := blockHeaderSize + cfg.maxBlockPayloadSize

def maxCiphertextBlockSize (cfg : Config) : Nat := cfg.maxPlaintextBlockSize + cfg.authTagLen

def maxBlockSizeFieldValue (cfg : Config) : Nat := cfg.maxCiphertextBlockSize - 2

def sizeRange (cfg : Config) : Nat := 2 ^ cfg.sizeBits

def sizeSub (cfg : Config) (left right : Nat) : Nat :=
  (left + cfg.sizeRange - right) % cfg.sizeRange

theorem maxBlockPayloadSize_pos (cfg : Config) : 0 < cfg.maxBlockPayloadSize :=
  Nat.pow_pos (by decide)

theorem maxBlockPayloadSize_le (cfg : Config) : cfg.maxBlockPayloadSize ≤ cfg.blockSize :=
  Nat.pow_log_le_self 2 (Nat.pos_iff_ne_zero.mp cfg.blockSizePositive)

theorem authTagLen_le (cfg : Config) : cfg.authTagLen ≤ 16 := by
  unfold authTagLen
  split <;> decide

theorem sizeRange_ge (cfg : Config) : 2 ^ 32 ≤ cfg.sizeRange :=
  Nat.pow_le_pow_right (by decide) cfg.sizeBitsWide

theorem maxCiphertextBlockSize_lt (cfg : Config) : cfg.maxCiphertextBlockSize < 2 ^ 31 + 19 := by
  have payload := cfg.maxBlockPayloadSize_le
  have tag := cfg.authTagLen_le
  have int := cfg.blockSizeInt
  simp only [maxCiphertextBlockSize, maxPlaintextBlockSize, blockHeaderSize]
  omega

theorem maxPlaintextBlockSize_ge (cfg : Config) : 4 ≤ cfg.maxPlaintextBlockSize := by
  have positive := cfg.maxBlockPayloadSize_pos
  simp only [maxPlaintextBlockSize, blockHeaderSize]
  omega

theorem maxCiphertextBlockSize_pos (cfg : Config) : 0 < cfg.maxCiphertextBlockSize := by
  have room := cfg.maxPlaintextBlockSize_ge
  simp only [maxCiphertextBlockSize]
  omega

theorem sizeSub_of_le (cfg : Config) (left right : Nat) (ordered : right ≤ left)
    (fits : left < cfg.sizeRange) : cfg.sizeSub left right = left - right := by
  have shift : left + cfg.sizeRange - right = (left - right) + cfg.sizeRange := by omega
  rw [sizeSub, shift, Nat.add_mod_right, Nat.mod_eq_of_lt (by omega)]

end Config

-- The Kconfig defaults on a 32-bit target.
def defaultConfig (encryption : Encryption) : Config where
  blockSize := 512
  serverCertMaxLen := 4096
  encryption := encryption
  sizeBits := 32
  blockSizePositive := by decide
  blockSizeInt := by decide
  serverCertMaxLenInt := by decide
  sizeBitsWide := by decide

end Pouch
