import Mathlib.Data.List.TakeWhile
import Pouch.GoliothSdk.Ota
import Pouch.GoliothSdk.Zcbor

set_option autoImplicit false

namespace Pouch

open ByteMemory

def hashHexLen : Nat := 64

def manifestKeyComponents : Nat := 3

def componentKeyPackage : Nat := 1
def componentKeyVersion : Nat := 2
def componentKeyHash : Nat := 3
def componentKeySize : Nat := 4

/-- The local variables a component is decoded into: the arrays of the strings, with whatever is behind
their terminators, and the size. -/
structure ComponentFields where
  package : List UInt8
  version : List UInt8
  hashStr : List UInt8
  size : Int

-- What the array holds after `memcpy` of a text and the terminator behind it.
def putText (array text : List UInt8) : List UInt8 := text ++ 0 :: array.drop (text.length + 1)

-- The C string in an array.
def stringIn (array : List UInt8) : CString where
  bytes := array.takeWhile (· ≠ 0)
  noNul := by
    intro byte member
    simpa using List.mem_takeWhile_imp member

/-- What a manifest has an effect on: the components, and the handler of manifests, which is given the data
of all of them. -/
structure ManifestEffects where
  ota : Ota
  notices : List (List ComponentData)

def goliothOtaManifestComplete (registry : List RegisteredComponent) (effects : ManifestEffects) :
    ManifestEffects :=
  { effects with
    notices := effects.notices ++ [(List.range registry.length).map effects.ota.components] }

section Decoding

variable (zcbor : Zcbor) (memory : Memory)

def componentEntryDecodeValue (valueLen : Nat) (get : ComponentFields → List UInt8)
    (put : ComponentFields → List UInt8 → ComponentFields) (zsd : ZcborState) (fields : ComponentFields) :
    Except DecodeError ZcborState × ComponentFields :=
  match zcbor.tstrDecode memory zsd with
  | none => (.error .ebadmsg, fields)
  | some (tstr, zsd) =>
    if valueLen < tstr.len then
      (.error .enomem, fields)
    else
      (.ok zsd, put fields (putText (get fields) (tstr.bytes memory)))

def componentEntries (cfg : OtaConfig) : List (MapEntry ComponentFields) :=
  [{ key := .u32 componentKeyPackage
     decode := componentEntryDecodeValue zcbor memory cfg.maxPackageNameLen ComponentFields.package
      fun fields package => { fields with package := package } },
   { key := .u32 componentKeyVersion
     decode := componentEntryDecodeValue zcbor memory cfg.maxVersionLen ComponentFields.version
      fun fields version => { fields with version := version } },
   { key := .u32 componentKeySize
     decode := zcborMapIntDecode memory zcbor.int32Decode fun fields size => { fields with size := size } },
   { key := .u32 componentKeyHash
     decode := componentEntryDecodeValue zcbor memory hashHexLen ComponentFields.hashStr
      fun fields hashStr => { fields with hashStr := hashStr } }]

end Decoding

section Manifest

variable (cfg : OtaConfig) (registry : List RegisteredComponent) (zcbor : Zcbor)
  (hex2bin : List UInt8 → Option (Bytes 32)) (call : DataCall)

-- One component of the list. `none` when the callback returns.
def manifestComponent (unset : Unset) (zsd : ZcborState) (effects : ManifestEffects) :
    Option ZcborState × ManifestEffects :=
  let blank : ComponentFields :=
    { package := List.replicate (cfg.maxPackageNameLen + 1) 0
      version := List.replicate (cfg.maxVersionLen + 1) 0
      hashStr := unset.hashStr
      size := 0 }
  match zcborMapDecode zcbor call.memory (componentEntries zcbor call.memory cfg) (call.len + 1) unset.key zsd
    blank with
  | (.error _, _) => (none, effects)
  | (.ok zsd, fields) =>
    match hex2bin (fields.hashStr.take hashHexLen) with
    | none => (none, effects)
    | some hash =>
      let component : OtaComponent := ⟨stringIn fields.package, stringIn fields.version, hash, fields.size⟩
      (some zsd, { effects with ota := goliothOtaManifestReceiveOne cfg registry effects.ota component })

-- Every iteration takes a map of at least one byte from the payload.
def componentsLoop :
    Nat → (Nat → Unset) → ZcborState → ManifestEffects → Option ZcborState × ManifestEffects
  | 0, _, zsd, effects => (some zsd, effects)
  | fuel + 1, unset, zsd, effects =>
    if zcborListOrMapEnd call.memory zsd then
      (some zsd, effects)
    else
      match manifestComponent cfg registry zcbor hex2bin call (unset 0) zsd effects with
      | (none, effects) => (none, effects)
      | (some zsd, effects) => componentsLoop fuel (fun index => unset (index + 1)) zsd effects

def manifestLoop : Nat → ZcborState → ManifestEffects → ManifestEffects
  | 0, _, effects => effects
  | fuel + 1, zsd, effects =>
    if zcborListOrMapEnd call.memory zsd then
      effects
    else
      match zcbor.uint32Decode call.memory zsd with
      | none => effects
      | some (key, zsd) =>
        if key = manifestKeyComponents then
          match zcbor.listStartDecode call.memory zsd with
          | none => effects
          | some zsd =>
            match componentsLoop cfg registry zcbor hex2bin call (call.len + 1) call.unset zsd effects with
            | (none, effects) => effects
            | (some zsd, effects) =>
              let effects := goliothOtaManifestComplete registry effects
              -- The list is not left, so its end is also taken for that of the map.
              if zcborListOrMapEnd call.memory zsd then manifestLoop fuel zsd effects else effects
        else
          match zcbor.anySkip call.memory zsd with
          | none => effects
          | some zsd => manifestLoop fuel zsd effects

-- The data callback of the manifest service.
def otaReceiveManifest (effects : ManifestEffects) : ManifestEffects :=
  match zcbor.mapStartDecode call.memory (zcborStateD 3 call.data call.len) with
  | none => effects
  | some zsd => manifestLoop cfg registry zcbor hex2bin call (call.len + 1) zsd effects

end Manifest

end Pouch
