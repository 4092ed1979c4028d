import Pouch.EntryWriter
import Pouch.GoliothSdk.Zcbor

set_option autoImplicit false

namespace Pouch

open ByteMemory

inductive SettingType where
  | unknown
  | int
  | bool
  | float
  | string
  deriving DecidableEq

inductive SettingValue where
  | int (value : Int)
  | bool (value : Bool)
  | float (bits : UInt64)
  | string (data : List UInt8)
  deriving DecidableEq

def SettingValue.type : SettingValue → SettingType
  | .int _ => .int
  | .bool _ => .bool
  | .float _ => .float
  | .string _ => .string

structure SettingsHandler where
  key : CString
  type : SettingType

-- A call of a handler's callback, which is the member of the union for its type.
structure SettingCall where
  handler : Nat
  value : SettingValue
  deriving DecidableEq

def goliothSettingsMaxNameLen : Nat := 31

-- The label as the C string it becomes: cut to the size of the array, and at a NUL.
def settingKey (label : List UInt8) : List UInt8 :=
  (label.take goliothSettingsMaxNameLen).takeWhile (· ≠ 0)

-- The first handler with the key is the only one that is looked at.
def goliothSettingsReceiveOne (handlers : List SettingsHandler) (key : List UInt8) (value : SettingValue) :
    List SettingCall :=
  match handlers.zipIdx.find? fun handler => handler.1.key.bytes = key with
  | none => []
  | some (handler, index) => if handler.type = value.type then [⟨index, value⟩] else []

/-- What a settings document has an effect on. -/
structure SettingsEffects where
  version : Int
  calls : List SettingCall
  deriving DecidableEq

section Decoding

variable (zcbor : Zcbor) (memory : Memory) (handlers : List SettingsHandler)

-- `none` when `data_type_valid` is cleared.
def settingValueDecode (zsd : ZcborState) : Option (SettingValue × ZcborState) :=
  if zsd.majorType memory = 3 then
    (zcbor.tstrDecode memory zsd).map fun decoded => (.string (decoded.1.bytes memory), decoded.2)
  else if zsd.majorType memory = 0 ∨ zsd.majorType memory = 1 then
    (zcbor.int32Decode memory zsd).map fun decoded => (.int decoded.1, decoded.2)
  else if zsd.majorType memory = 7 then
    match zcbor.floatDecode memory zsd with
    | some (bits, zsd) => some (.float bits, zsd)
    | none => (zcbor.boolDecode memory zsd).map fun decoded => (.bool decoded.1, decoded.2)
  else
    none

-- Every iteration takes a label of at least one byte from the payload.
def settingsLoop : Nat → ZcborState → SettingsEffects → Except DecodeError ZcborState × SettingsEffects
  | 0, zsd, effects => (.ok zsd, effects)
  | fuel + 1, zsd, effects =>
    if zcborListOrMapEnd memory zsd then
      (.ok zsd, effects)
    else
      match zcbor.tstrDecode memory zsd with
      | none => (.error .ebadmsg, effects)
      | some (label, zsd) =>
        match settingValueDecode zcbor memory zsd with
        | some (value, zsd) =>
          let calls := goliothSettingsReceiveOne handlers (settingKey (label.bytes memory)) value
          settingsLoop fuel zsd { effects with calls := effects.calls ++ calls }
        | none =>
          match zcbor.anySkip memory zsd with
          | none => (.error .ebadmsg, effects)
          | some zsd => settingsLoop fuel zsd effects

def settingsDecode (fuel : Nat) (zsd : ZcborState) (effects : SettingsEffects) :
    Except DecodeError ZcborState × SettingsEffects :=
  match zcbor.nilExpect memory zsd with
  | some _ => (.error .enoent, effects)
  | none =>
    match zcbor.mapStartDecode memory zsd with
    | none => (.error .ebadmsg, effects)
    | some zsd =>
      match settingsLoop zcbor memory handlers fuel zsd effects with
      | (.error err, effects) => (.error err, effects)
      | (.ok zsd, effects) =>
        match zcbor.mapEndDecode memory zsd with
        | none => (.error .ebadmsg, effects)
        | some zsd => (.ok zsd, effects)

end Decoding

-- "settings" and "version".
def settingsLabel : List UInt8 := [0x73, 0x65, 0x74, 0x74, 0x69, 0x6e, 0x67, 0x73]
def versionLabel : List UInt8 := [0x76, 0x65, 0x72, 0x73, 0x69, 0x6f, 0x6e]

def settingsEntries (zcbor : Zcbor) (handlers : List SettingsHandler) (call : DataCall) :
    List (MapEntry SettingsEffects) :=
  [{ key := .tstr settingsLabel
     decode := settingsDecode zcbor call.memory handlers (call.len + 1) },
   { key := .tstr versionLabel
     decode := zcborMapIntDecode call.memory zcbor.int64Decode fun effects version =>
      { effects with version := version } }]

-- The service's data callback. The document is taken to be in the buffer, whether or not it is the last.
def settingsDownlink (zcbor : Zcbor) (handlers : List SettingsHandler) (effects : SettingsEffects)
    (call : DataCall) : SettingsEffects :=
  let zsd := zcborStateD 2 call.data call.len
  (zcborMapDecode zcbor call.memory (settingsEntries zcbor handlers call) (call.len + 1)
    (call.unset 0).key zsd effects).2

end Pouch
