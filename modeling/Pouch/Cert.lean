import Mathlib.Data.Option.Basic
import Pouch.Saead.Session

set_option autoImplicit false

/-!
# The server certificate

The key and the serial number of the server are replaced by those of a certificate that parses and is
authenticated. One of the checks in between leaves without an error code.
-/

namespace Pouch

structure SizedArray (capacity : Nat) where
  data : Bytes capacity
  len : Nat
  within : len ≤ capacity

namespace SizedArray

variable {capacity : Nat}

def bytes (filled : SizedArray capacity) : List UInt8 := filled.data.val.take filled.len

def put (filled : SizedArray capacity) (bytes : List UInt8) (fits : bytes.length ≤ capacity) : SizedArray capacity :=
  ⟨filled.data.overwrite bytes, bytes.length, fits⟩

theorem bytes_length (filled : SizedArray capacity) : filled.bytes.length = filled.len := by
  have within := filled.within
  rw [bytes, List.length_take, filled.data.property]
  omega

theorem put_bytes (filled : SizedArray capacity) (bytes : List UInt8) (fits : bytes.length ≤ capacity) :
    (filled.put bytes fits).bytes = bytes := by
  simp only [put, SizedArray.bytes, Bytes.overwrite, List.take_take]
  rw [Nat.min_eq_left fits, List.take_left]

end SizedArray

inductive CertError where
  | einval
  | eio
  | eperm
  deriving DecidableEq

def certSerialMaxlen : Nat := 20

-- `struct pouch_cert`. The length of the buffer is its size.
structure PouchCert where
  buffer : Option (List UInt8)

/-- The functions of Mbed TLS on certificates, where `none` stands for every error: parsing, the serial number,
verification against a CA certificate, the EC key of a certificate and its uncompressed form. -/
structure Mbedtls (pubkeyLen : Nat) where
  Crt : Type
  Key : Type
  x509CrtParse : List UInt8 → Option Crt
  serial : Crt → List UInt8
  x509CrtVerify : Crt → Crt → Bool
  pkEc : Crt → Option Key
  ecpWritePublicKey : Key → Option { bytes : List UInt8 // bytes.length ≤ pubkeyLen }

-- `server_cert`, and the CA certificate if it has been loaded.
structure ServerCert {pubkeyLen : Nat} (mbedtls : Mbedtls pubkeyLen) where
  pubkey : SizedArray pubkeyLen
  serial : SizedArray certSerialMaxlen
  caCert : Option mbedtls.Crt

-- CONFIG_POUCH_VALIDATE_SERVER_CERT and the CA certificate in the image.
structure CertConfig where
  validateServerCert : Bool
  rawCaCert : List UInt8

section Model

variable {pubkeyLen : Nat} (cfg : CertConfig) (mbedtls : Mbedtls pubkeyLen)

def certIsValid : Option PouchCert → Option (List UInt8)
  | none => none
  | some cert =>
    match cert.buffer with
    | none => none
    | some bytes => if 0 < bytes.length then some bytes else none

def parseX509Cert (cert : Option PouchCert) : Except CertError mbedtls.Crt :=
  match certIsValid cert with
  | none => .error .einval
  | some bytes =>
    match mbedtls.x509CrtParse bytes with
    | none => .error .eio
    | some crt => .ok crt

def loadCaCert (server : ServerCert mbedtls) : Option mbedtls.Crt × ServerCert mbedtls :=
  match server.caCert with
  | some caCert => (some caCert, server)
  | none =>
    match parseX509Cert mbedtls (some ⟨some cfg.rawCaCert⟩) with
    | .error _ => (none, server)
    | .ok caCert => (some caCert, { server with caCert := some caCert })

def authenticateServerCert (server : ServerCert mbedtls) (cert : mbedtls.Crt) :
    Option CertError × ServerCert mbedtls :=
  match loadCaCert cfg mbedtls server with
  | (none, server) => (some .eio, server)
  | (some caCert, server) => (if mbedtls.x509CrtVerify cert caCert then none else some .eperm, server)

def extractPubkey (cert : mbedtls.Crt) (out : SizedArray pubkeyLen) : Except CertError (SizedArray pubkeyLen) :=
  match mbedtls.pkEc cert with
  | none => .error .eio
  | some key =>
    match mbedtls.ecpWritePublicKey key with
    | none => .error .eio
    | some bytes => .ok (out.put bytes.val bytes.property)

def certServerSet (server : ServerCert mbedtls) (certbuf : Option PouchCert) :
    Option CertError × ServerCert mbedtls :=
  match certIsValid certbuf with
  | none => (some .einval, server)
  | some _ =>
    match parseX509Cert mbedtls certbuf with
    | .error err => (some err, server)
    | .ok certChain =>
      let (err, server) :=
        if cfg.validateServerCert then authenticateServerCert cfg mbedtls server certChain else (none, server)
      match err with
      | some err => (some err, server)
      | none =>
        if fits : (mbedtls.serial certChain).length ≤ certSerialMaxlen then
          match extractPubkey mbedtls certChain server.pubkey with
          | .error err => (some err, server)
          | .ok pubkey => (none, { server with pubkey := pubkey, serial := server.serial.put _ fits })
        else
          -- `err` is what the last step left in it.
          (err, server)

def certInfo (certbuf : Option PouchCert) : Option (List UInt8 × List UInt8) :=
  match parseX509Cert mbedtls certbuf with
  | .error _ => none
  | .ok cert =>
    ((mbedtls.pkEc cert).bind mbedtls.ecpWritePublicKey).map fun key => (key.val, mbedtls.serial cert)

def ServerCert.info {mbedtls : Mbedtls pubkeyLen} (server : ServerCert mbedtls) : List UInt8 × List UInt8 :=
  (server.pubkey.bytes, server.serial.bytes)

def Authenticated (server : ServerCert mbedtls) (cert : mbedtls.Crt) : Prop :=
  cfg.validateServerCert = true → (authenticateServerCert cfg mbedtls server cert).1 = none

/-- Success means that the certificate is the one in use, and failure that nothing has changed. -/
structure AllOrNothing (server : ServerCert mbedtls) (certbuf : Option PouchCert) : Prop where
  installed : (certServerSet cfg mbedtls server certbuf).1 = none ↔
    certInfo mbedtls certbuf = some (certServerSet cfg mbedtls server certbuf).2.info
  refused : (certServerSet cfg mbedtls server certbuf).1 ≠ none →
    (certServerSet cfg mbedtls server certbuf).2.pubkey = server.pubkey ∧
      (certServerSet cfg mbedtls server certbuf).2.serial = server.serial

end Model

section Installation

variable {pubkeyLen : Nat} {cfg : CertConfig} {mbedtls : Mbedtls pubkeyLen} {server : ServerCert mbedtls}
  {certbuf : Option PouchCert} {cert : mbedtls.Crt}

structure ServerCert.Same (before after : ServerCert mbedtls) : Prop where
  pubkey : after.pubkey = before.pubkey
  serial : after.serial = before.serial

theorem ServerCert.Same.info {after : ServerCert mbedtls} (same : server.Same after) : after.info = server.info := by
  rw [ServerCert.info, same.pubkey, same.serial, ServerCert.info]

theorem loadCaCert_same (cfg : CertConfig) (server : ServerCert mbedtls) :
    server.Same (loadCaCert cfg mbedtls server).2 := by
  unfold loadCaCert
  cases server.caCert with
  | some caCert => exact ⟨rfl, rfl⟩
  | none => cases parseX509Cert mbedtls (some ⟨some cfg.rawCaCert⟩) <;> exact ⟨rfl, rfl⟩

theorem authenticate_same (cfg : CertConfig) (server : ServerCert mbedtls) (cert : mbedtls.Crt) :
    server.Same (authenticateServerCert cfg mbedtls server cert).2 := by
  have same := loadCaCert_same cfg server
  unfold authenticateServerCert
  generalize loadCaCert cfg mbedtls server = loaded at same
  obtain ⟨caCert, after⟩ := loaded
  cases caCert <;> exact same

theorem certServerSet_unparsed {err : CertError} (parsed : parseX509Cert mbedtls certbuf = .error err) :
    ∃ err, certServerSet cfg mbedtls server certbuf = (some err, server) := by
  unfold certServerSet
  cases certIsValid certbuf with
  | none => exact ⟨_, rfl⟩
  | some bytes => exact ⟨err, by simp only [parsed]⟩

theorem certIsValid_of_parsed (parsed : parseX509Cert mbedtls certbuf = .ok cert) :
    ∃ bytes, certIsValid certbuf = some bytes := by
  unfold parseX509Cert at parsed
  cases valid : certIsValid certbuf with
  | none => simp [valid] at parsed
  | some bytes => exact ⟨bytes, rfl⟩

theorem certServerSet_refused (parsed : parseX509Cert mbedtls certbuf = .ok cert)
    (refused : ¬ Authenticated cfg mbedtls server cert) :
    ∃ err after, certServerSet cfg mbedtls server certbuf = (some err, after) ∧ server.Same after := by
  obtain ⟨bytes, valid⟩ := certIsValid_of_parsed parsed
  simp only [Authenticated, Classical.not_imp] at refused
  obtain ⟨validates, failed⟩ := refused
  have same := authenticate_same cfg server cert
  generalize checked : authenticateServerCert cfg mbedtls server cert = result at failed same
  obtain ⟨status, after⟩ := result
  cases status with
  | none => exact absurd rfl failed
  | some err => exact ⟨err, after, by simp only [certServerSet, valid, parsed, validates, if_true, checked], same⟩

theorem certServerSet_authenticated (parsed : parseX509Cert mbedtls certbuf = .ok cert)
    (authenticated : Authenticated cfg mbedtls server cert) :
    ∃ after, server.Same after ∧ certServerSet cfg mbedtls server certbuf =
      if fits : (mbedtls.serial cert).length ≤ certSerialMaxlen then
        match extractPubkey mbedtls cert after.pubkey with
        | .error err => (some err, after)
        | .ok pubkey => (none, { after with pubkey := pubkey, serial := after.serial.put _ fits })
      else
        (none, after) := by
  obtain ⟨bytes, valid⟩ := certIsValid_of_parsed parsed
  by_cases validates : cfg.validateServerCert = true
  next =>
    have passed := authenticated validates
    have same := authenticate_same cfg server cert
    generalize checked : authenticateServerCert cfg mbedtls server cert = result at passed same
    obtain ⟨status, after⟩ := result
    simp only at passed
    subst passed
    exact ⟨after, same, by simp only [certServerSet, valid, parsed, validates, if_true, checked]⟩
  next => exact ⟨server, ⟨rfl, rfl⟩, by simp only [certServerSet, valid, parsed, validates]; rfl⟩

theorem certInfo_parsed (parsed : parseX509Cert mbedtls certbuf = .ok cert) :
    certInfo mbedtls certbuf =
      ((mbedtls.pkEc cert).bind mbedtls.ecpWritePublicKey).map fun key => (key.val, mbedtls.serial cert) := by
  simp only [certInfo, parsed]

theorem certInfo_long (parsed : parseX509Cert mbedtls certbuf = .ok cert)
    (long : ¬ (mbedtls.serial cert).length ≤ certSerialMaxlen) (server : ServerCert mbedtls) :
    certInfo mbedtls certbuf ≠ some server.info := by
  intro stored
  rw [certInfo_parsed parsed, Option.map_eq_some_iff] at stored
  obtain ⟨key, _, same⟩ := stored
  have serial := congrArg List.length (Prod.mk.inj same).2
  rw [server.serial.bytes_length] at serial
  exact long (serial ▸ server.serial.within)

theorem extractPubkey_error {out : SizedArray pubkeyLen} {err : CertError}
    (failed : extractPubkey mbedtls cert out = .error err) :
    (mbedtls.pkEc cert).bind mbedtls.ecpWritePublicKey = none := by
  unfold extractPubkey at failed
  cases ec : mbedtls.pkEc cert with
  | none => rfl
  | some key =>
    cases written : mbedtls.ecpWritePublicKey key with
    | none => exact written
    | some bytes => simp [ec, written] at failed

theorem extractPubkey_ok {out pubkey : SizedArray pubkeyLen} (extracted : extractPubkey mbedtls cert out = .ok pubkey) :
    ∃ key, (mbedtls.pkEc cert).bind mbedtls.ecpWritePublicKey = some key ∧ pubkey.bytes = key.val := by
  unfold extractPubkey at extracted
  cases ec : mbedtls.pkEc cert with
  | none => simp [ec] at extracted
  | some key =>
    cases written : mbedtls.ecpWritePublicKey key with
    | none => simp [ec, written] at extracted
    | some bytes =>
      simp only [ec, written, Except.ok.injEq] at extracted
      exact ⟨bytes, written, by rw [← extracted, SizedArray.put_bytes]⟩

end Installation

section AllOrNothing

variable {pubkeyLen : Nat} (cfg : CertConfig) (mbedtls : Mbedtls pubkeyLen) (server : ServerCert mbedtls)
  (certbuf : Option PouchCert)

/-- An installation is all or nothing except for two kinds of certificates that parse: authenticated ones whose
serial number is too long, and unauthenticated ones that are in use already. -/
theorem cert_server_set_all_or_nothing_iff :
    AllOrNothing cfg mbedtls server certbuf ↔
      ∀ cert, parseX509Cert mbedtls certbuf = .ok cert →
        (Authenticated cfg mbedtls server cert → (mbedtls.serial cert).length ≤ certSerialMaxlen) ∧
        (¬ Authenticated cfg mbedtls server cert → certInfo mbedtls certbuf ≠ some server.info) := by
  cases parsed : parseX509Cert mbedtls certbuf with
  | error err =>
    obtain ⟨err, result⟩ : ∃ err, certServerSet cfg mbedtls server certbuf = (some err, server) :=
      certServerSet_unparsed parsed
    simp only [reduceCtorEq, false_imp_iff, implies_true, iff_true]
    constructor
    · simp [result, certInfo, parsed]
    · simp [result]
  | ok cert =>
    simp only [Except.ok.injEq, forall_eq']
    by_cases authenticated : Authenticated cfg mbedtls server cert
    next =>
      simp only [authenticated, true_imp_iff, not_true_eq_false, false_imp_iff, and_true]
      obtain ⟨after, same, result⟩ := certServerSet_authenticated parsed authenticated
      constructor
      · intro allOrNothing
        by_contra long
        rw [dif_neg long] at result
        have installed := allOrNothing.installed.mp (by rw [result])
        exact certInfo_long parsed long _ installed
      · intro fits
        rw [dif_pos fits] at result
        cases extracted : extractPubkey mbedtls cert after.pubkey with
        | error err =>
          simp only [extracted] at result
          constructor
          · simp [result, certInfo_parsed parsed, extractPubkey_error extracted]
          · simp [result, same.pubkey, same.serial]
        | ok pubkey =>
          simp only [extracted] at result
          obtain ⟨key, found, bytes⟩ := extractPubkey_ok extracted
          constructor
          · simp [result, certInfo_parsed parsed, found, ServerCert.info, bytes, SizedArray.put_bytes]
          · simp [result]
    next =>
      simp only [authenticated, false_imp_iff, not_false_eq_true, true_imp_iff, true_and]
      obtain ⟨err, after, result, same⟩ := certServerSet_refused parsed authenticated
      constructor
      · intro allOrNothing stored
        have impossible := allOrNothing.installed.mpr (by rw [result, same.info]; exact stored)
        simp [result] at impossible
      · intro other
        constructor
        · simp [result, same.info, other]
        · simp [result, same.pubkey, same.serial]

end AllOrNothing

-- A certificate is its serial number, and the byte in front of it is its key.
def sampleMbedtls : Mbedtls 65 where
  Crt := List UInt8
  Key := UInt8
  x509CrtParse bytes := some bytes
  serial := List.tail
  x509CrtVerify _ _ := true
  pkEc := List.head?
  ecpWritePublicKey key := some ⟨[key], by simp⟩

def noServerCert : ServerCert sampleMbedtls := ⟨⟨Bytes.zero 65, 0, by decide⟩, ⟨Bytes.zero 20, 0, by decide⟩, none⟩

/-- With a serial number of 21 bytes the certificate is reported as set, and nothing is stored. -/
theorem long_serial_reported_set :
    let cert : PouchCert := ⟨some (4 :: List.replicate 21 1)⟩
    (certServerSet ⟨true, [1]⟩ sampleMbedtls noServerCert (some cert)).1 = none ∧
      (certServerSet ⟨true, [1]⟩ sampleMbedtls noServerCert (some cert)).2.info = ([], []) ∧
      ¬ AllOrNothing ⟨true, [1]⟩ sampleMbedtls noServerCert (some cert) := by
  refine ⟨rfl, rfl, ?_⟩
  intro allOrNothing
  have installed : some ([4], List.replicate 21 1) = some (([], []) : List UInt8 × List UInt8) :=
    allOrNothing.installed.mp rfl
  exact absurd installed (by simp)

end Pouch
