import Pouch.Config

set_option autoImplicit false

namespace Pouch

def packetFirst : UInt8 := 0x01

def packetLast : UInt8 := 0x02

/-- What `golioth_ble_gatt_packetizer_decode` returns through its pointers, the payload with the
length that is its result. -/
structure Packet where
  isFirst : Bool
  isLast : Bool
  payload : List UInt8
  deriving DecidableEq

-- A packet is a byte of flags with the payload behind it; `none` is a NULL buffer.
def packetizerDecode (buf : Option (List UInt8)) : Except Errno Packet :=
  match buf with
  | none => .error .einval
  | some [] => .error .einval
  | some (flags :: data) =>
    .ok ⟨flags &&& packetFirst != 0, flags &&& packetLast != 0, data⟩

theorem packetizerDecode_payload_length (buf : List UInt8) (packet : Packet)
    (decoded : packetizerDecode (some buf) = .ok packet) :
    packet.payload.length + 1 = buf.length := by
  cases buf with
  | nil => cases decoded
  | cons flags data =>
    cases decoded
    rfl

inductive PacketizerResult where
  | moreData
  | noMoreData
  | emptyPayload
  | error
  deriving DecidableEq, Repr

inductive PacketizerError where
  | enomem
  | enodata
  deriving DecidableEq, Repr

/-- What a fill callback returns for the room it is given: its result, the bytes it wrote, and what it
left behind its user argument. -/
structure Filled (Arg : Type) where
  result : PacketizerResult
  piece : List UInt8
  userArg : Arg

abbrev FillCb (Arg : Type) := Arg → Nat → Filled Arg

-- The two fill types of a packetizer. A buffer stands for what is left of it.
inductive PacketSource (Arg : Type) where
  | buffer (src : List UInt8)
  | callback (func : FillCb Arg) (userArg : Arg)

structure Packetizer (Arg : Type) where
  source : PacketSource Arg
  isFirst : Bool
  error : Option PacketizerError

-- A call of `golioth_ble_gatt_packetizer_get`. An error writes no packet.
structure Packetized (Arg : Type) where
  result : PacketizerResult
  packet : List UInt8
  packetizer : Packetizer Arg

section Packetizer

variable {Arg : Type}

def packetizerStart (malloc : Bool) (source : PacketSource Arg) : Option (Packetizer Arg) :=
  if malloc then some ⟨source, true, none⟩ else none

def packetizerStartBuffer (malloc : Bool) (src : List UInt8) : Option (Packetizer Arg) :=
  packetizerStart malloc (.buffer src)

def packetizerStartCallback (malloc : Bool) (func : FillCb Arg) (userArg : Arg) : Option (Packetizer Arg) :=
  packetizerStart malloc (.callback func userArg)

def packetFlags (isFirst isLast : Bool) : UInt8 :=
  (if isFirst then packetFirst else 0) ||| (if isLast then packetLast else 0)

def packetizerGet (packetizer : Packetizer Arg) (dstLen : Nat) : Packetized Arg :=
  if dstLen ≤ 1 then
    ⟨.error, [], { packetizer with error := some .enomem }⟩
  else
    let first := packetizer.isFirst
    let packetizer := { packetizer with isFirst := false }
    match packetizer.source with
    | .buffer src =>
      let isLast : Bool := src.length ≤ dstLen - 1
      let bytesToCopy := if isLast then src.length else dstLen - 1
      { result := if isLast then .noMoreData else .moreData
        packet := packetFlags first isLast :: src.take bytesToCopy
        packetizer := { packetizer with source := .buffer (src.drop bytesToCopy) } }
    | .callback func userArg =>
      let filled := func userArg (dstLen - 1)
      let packetizer := { packetizer with source := .callback func filled.userArg }
      if filled.result = .error then
        ⟨.error, [], { packetizer with error := some .enodata }⟩
      else
        let isLast : Bool := filled.result = .noMoreData
        { result :=
            if isLast then .noMoreData else if filled.piece.length = 0 then .emptyPayload else .moreData
          packet := packetFlags first isLast :: filled.piece
          packetizer := packetizer }

theorem packetizerDecode_flags (isFirst isLast : Bool) (payload : List UInt8) :
    packetizerDecode (some (packetFlags isFirst isLast :: payload)) = .ok ⟨isFirst, isLast, payload⟩ := by
  cases isFirst <;> cases isLast <;> rfl

end Packetizer

-- The fill callback of the device certificate, whose user argument is the rest of the certificate.
def deviceCertFillCb : FillCb (List UInt8) := fun cert maxlen =>
  let dstLen := min maxlen cert.length
  let rest := cert.drop dstLen
  ⟨if rest.length = 0 then .noMoreData else .moreData, cert.take dstLen, rest⟩

end Pouch
