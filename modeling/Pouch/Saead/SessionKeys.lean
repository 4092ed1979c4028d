import Pouch.Saead.State
import Pouch.Shared.Ledger

set_option autoImplicit false

/-!
# Session keys

Keys get numbers here as the key store of the PSA would give them out. The ledger has the keys that were
created and those that were destroyed, beside the sessions that refer to them.
-/

namespace Pouch

open Ledger ByteMemory

structure Keyring where
  keys : Ledger
  saead : Saead Nat

def Keyring.boot : Keyring := ⟨.empty, .boot⟩

-- The calls into the crypto layer. Every creation of a key may fail.
inductive KeyOp where
  | sessionStart (algorithm : Algorithm) (random : Option (Bytes 16)) (derives : Bool)
  | pouchStart
  | encryptBlock (block : PouchBuf) (malloc : Option Memory) (psa : PsaAead Nat)
  | downlinkStart (info : EncryptionInfo) (derives copies : Bool)
  | decryptBlock (block : PouchBuf) (malloc : Option Memory) (psa : PsaAead Nat)
  | sessionEnd

def freshKeys (next : Nat) (derives copies : Bool) : KeySource Nat where
  sessionKeyGenerate := fun _ _ _ => if derives then some next else none
  psaCopyKey := fun _ => if copies then some next else none

def KeyOp.call (next : Nat) : KeyOp → SaeadOp Nat
  | .sessionStart algorithm random derives => .sessionStart algorithm random (freshKeys next derives false)
  | .pouchStart => .pouchStart
  | .encryptBlock block malloc psa => .encryptBlock block malloc psa
  | .downlinkStart info derives copies => .downlinkStart info (freshKeys next derives copies)
  | .decryptBlock block malloc psa => .decryptBlock block malloc psa
  | .sessionEnd => .sessionEnd

section Model

variable (cfg : Config)

def uplinkKeyCreated (algorithm : Algorithm) (random : Option (Bytes 16)) (keys : KeySource Nat) :
    Option Nat :=
  random.bind fun value =>
    keys.sessionKeyGenerate ⟨.device, .random value⟩ algorithm cfg.maxBlockPayloadSizeLog

def downlinkKeyCreated (saead : Saead Nat) (info : EncryptionInfo) (keys : KeySource Nat) : Option Nat :=
  match info with
  | .plaintext _ => none
  | .saead session _ =>
    match sessionIdOf session with
    | none => none
    | some id =>
      if isValidDownlink saead id session.algorithm.algorithm then
        match downlinkSessionKey cfg saead id session.algorithm.algorithm session.maxBlockSizeLog keys with
        | .error _ => none
        | .ok key => key
      else
        none

def keysWith (keys : Ledger) (created : Option Nat) : Ledger :=
  if created.isSome then keys.alloc else keys

-- `psa_destroy_key` of an active session's key; it does nothing for a NULL key.
def Session.activeKeys (session : Session Nat) : List Nat :=
  if session.flags.active then session.key.toList else []

def keysAfter (ring : Keyring) : KeyOp → Ledger
  | .sessionStart algorithm random derives =>
    keysWith ring.keys (uplinkKeyCreated cfg algorithm random (freshKeys ring.keys.next derives false))
  | .downlinkStart info derives copies =>
    keysWith ring.keys
      (downlinkKeyCreated cfg ring.saead info (freshKeys ring.keys.next derives copies))
  | .sessionEnd => ring.keys.freeAll (ring.saead.uplink.activeKeys ++ ring.saead.downlink.activeKeys)
  | _ => ring.keys

def keyStep (ring : Keyring) (op : KeyOp) : Keyring × List (SaeadEvent Nat) :=
  let (saead, events) := saeadStep cfg ring.saead (op.call ring.keys.next)
  (⟨keysAfter cfg ring op, saead⟩, events)

end Model

section Sessions

variable (cfg : Config)

structure Saead.SameKeys (before after : Saead Nat) : Prop where
  uplinkFlags : after.uplink.flags = before.uplink.flags
  uplinkKey : after.uplink.key = before.uplink.key
  uplinkId : after.uplink.id = before.uplink.id
  downlinkActive : after.downlink.flags.active = before.downlink.flags.active
  downlinkKey : after.downlink.key = before.downlink.key

theorem sameKeys_pouchStart (saead : Saead Nat) : saead.SameKeys (saeadStep cfg saead .pouchStart).1 := by
  simp only [saeadStep, uplinkPouchStart, sessionPouchStart]
  split_ifs
  · exact ⟨rfl, rfl, rfl, rfl, rfl⟩
  · exact ⟨rfl, rfl, rfl, rfl, rfl⟩

theorem sameKeys_encryptBlock (saead : Saead Nat) (block : PouchBuf) (malloc : Option Memory)
    (psa : PsaAead Nat) : saead.SameKeys (saeadStep cfg saead (.encryptBlock block malloc psa)).1 := by
  simp only [saeadStep, uplinkEncryptBlock]
  split_ifs
  · rcases sealBlock_cases _ (Eq.refl (sessionEncryptBlock cfg malloc psa saead.uplink block)) with
      ⟨same, _, _⟩ | ⟨key, input, output, buf, _, _, _, sealed, _⟩
    · rw [same]
      exact ⟨rfl, rfl, rfl, rfl, rfl⟩
    · rw [sealed]
      exact ⟨rfl, rfl, rfl, rfl, rfl⟩
  · exact ⟨rfl, rfl, rfl, rfl, rfl⟩

theorem sameKeys_decryptBlock (saead : Saead Nat) (block : PouchBuf) (malloc : Option Memory)
    (psa : PsaAead Nat) : saead.SameKeys (saeadStep cfg saead (.decryptBlock block malloc psa)).1 := by
  simp only [saeadStep, downlinkBlockDecrypt]
  rcases openBlock_session cfg .server malloc psa saead.downlink block with
    ⟨same, failed⟩ | ⟨tag, buf, next, opened⟩
  · simp only [sessionDecryptBlock, failed, same]
    exact ⟨rfl, rfl, rfl, rfl, rfl⟩
  · simp only [sessionDecryptBlock, opened, next]
    exact ⟨rfl, rfl, rfl, rfl, rfl⟩

theorem Saead.SameKeys.uplinkKeys {before after : Saead Nat} (same : before.SameKeys after) :
    after.uplink.activeKeys = before.uplink.activeKeys := by
  simp only [Session.activeKeys, same.uplinkFlags, same.uplinkKey]

theorem Saead.SameKeys.downlinkKeys {before after : Saead Nat} (same : before.SameKeys after) :
    after.downlink.activeKeys = before.downlink.activeKeys := by
  simp only [Session.activeKeys, same.downlinkActive, same.downlinkKey]

theorem sessionEnd_activeKeys (session : Session Nat) : (sessionEnd session).activeKeys = [] := by
  unfold sessionEnd Session.activeKeys
  split_ifs with active still
  · simp at still
  · rfl
  · rfl

theorem cryptoDownlinkStart_created (saead : Saead Nat) (info : EncryptionInfo) (keys : KeySource Nat) :
    match downlinkKeyCreated cfg saead info keys with
    | none => (cryptoDownlinkStart cfg saead info keys).2 = saead
    | some key => ∃ id algorithm pouchId,
        (cryptoDownlinkStart cfg saead info keys).2 = saead.restarted id algorithm key pouchId := by
  cases info with
  | plaintext _ => rfl
  | saead session pouchId =>
    cases parsed : sessionIdOf session with
    | none => simp [downlinkKeyCreated, cryptoDownlinkStart, parsed]
    | some id =>
      rw [cryptoDownlinkStart_saead session pouchId keys id parsed]
      simp only [downlinkKeyCreated, parsed]
      split_ifs with valid
      · cases downlinkSessionKey cfg saead id session.algorithm.algorithm session.maxBlockSizeLog keys with
        | error err => rfl
        | ok created =>
          cases created with
          | none => rfl
          | some key => exact ⟨id, session.algorithm.algorithm, pouchId, rfl⟩
      · rfl

end Sessions

section Accounting

variable {cfg : Config}

def Keyring.held (ring : Keyring) : Multiset Nat :=
  ring.saead.uplink.activeKeys + ring.saead.downlink.activeKeys

def lostKeys (cfg : Config) (ring : Keyring) : KeyOp → Multiset Nat
  | .sessionStart _ _ _ => ring.saead.uplink.activeKeys
  | .downlinkStart info derives copies =>
    if (downlinkKeyCreated cfg ring.saead info (freshKeys ring.keys.next derives copies)).isSome then
      ring.saead.downlink.activeKeys
    else
      0
  | _ => 0

theorem uplinkKeyCreated_fresh {algorithm : Algorithm} {random : Option (Bytes 16)} {next key : Nat}
    {derives : Bool} (created : uplinkKeyCreated cfg algorithm random (freshKeys next derives false) = some key) :
    key = next := by
  cases random <;> simp_all [uplinkKeyCreated, freshKeys]

theorem downlinkKeyCreated_eq_some {saead : Saead Nat} {info : EncryptionInfo} {keys : KeySource Nat}
    {key : Nat} :
    downlinkKeyCreated cfg saead info keys = some key ↔
      ∃ session pouchId id, info = .saead session pouchId ∧ sessionIdOf session = some id ∧
        isValidDownlink saead id session.algorithm.algorithm = true ∧
        downlinkSessionKey cfg saead id session.algorithm.algorithm session.maxBlockSizeLog keys =
          .ok (some key) := by
  cases info with
  | plaintext _ => simp [downlinkKeyCreated]
  | saead session pouchId =>
    cases parsed : sessionIdOf session with
    | none => simp [downlinkKeyCreated, parsed]
    | some id =>
      by_cases valid : isValidDownlink saead id session.algorithm.algorithm = true
      · cases created : downlinkSessionKey cfg saead id session.algorithm.algorithm
          session.maxBlockSizeLog keys with
        | error err => simp [downlinkKeyCreated, parsed, valid, created]
        | ok made => simp [downlinkKeyCreated, parsed, valid, created]
      · simp [downlinkKeyCreated, parsed, valid]

theorem downlinkSessionKey_fresh {saead : Saead Nat} {id : SessionId} {algorithm : Algorithm}
    {maxBlockSizeLog : UInt8} {next key : Nat} {derives copies : Bool}
    (created : downlinkSessionKey cfg saead id algorithm maxBlockSizeLog (freshKeys next derives copies) =
      .ok (some key)) : key = next := by
  unfold downlinkSessionKey at created
  split at created
  · simp at created
  · split_ifs at created
    simp only [Except.ok.injEq, uplinkSessionKeyCopy, freshKeys] at created
    obtain ⟨_, _, copied⟩ := Option.bind_eq_some_iff.mp (Option.ite_none_right_eq_some.mp created).2
    simp_all
  · simp_all [freshKeys]

theorem downlinkKeyCreated_fresh {saead : Saead Nat} {info : EncryptionInfo} {next key : Nat}
    {derives copies : Bool}
    (created : downlinkKeyCreated cfg saead info (freshKeys next derives copies) = some key) :
    key = next := by
  obtain ⟨session, pouchId, id, _, _, _, sessionKey⟩ := downlinkKeyCreated_eq_some.mp created
  exact downlinkSessionKey_fresh sessionKey

theorem exchange_keysWith (keys : Ledger) (created : Option Nat)
    (fresh : ∀ key, created = some key → key = keys.next) (held after : Multiset Nat)
    (joined : after = created.toList + held) : Exchange keys held (keysWith keys created) after := by
  subst joined
  have made : Exchange keys 0 (keysWith keys created) created.toList := by
    cases created with
    | none => exact Exchange.refl keys 0
    | some key =>
      rw [fresh key rfl]
      exact exchange_alloc keys
  simpa using made.frame held

theorem keyStep_exchange (cfg : Config) (ring : Keyring) (op : KeyOp) :
    Exchange ring.keys ring.held (keyStep cfg ring op).1.keys
      ((keyStep cfg ring op).1.held + lostKeys cfg ring op) := by
  have quiet (after : Saead Nat) (same : ring.saead.SameKeys after) :
      Exchange ring.keys ring.held ring.keys (Keyring.held ⟨ring.keys, after⟩ + 0) := by
    have kept : Keyring.held ⟨ring.keys, after⟩ = ring.held := by
      simp only [Keyring.held, same.uplinkKeys, same.downlinkKeys]
    rw [kept, add_zero]
    exact Exchange.refl _ _
  cases op with
  | pouchStart => exact quiet _ (sameKeys_pouchStart cfg ring.saead)
  | encryptBlock block malloc psa => exact quiet _ (sameKeys_encryptBlock cfg ring.saead block malloc psa)
  | decryptBlock block malloc psa => exact quiet _ (sameKeys_decryptBlock cfg ring.saead block malloc psa)
  | sessionStart algorithm random derives =>
    apply exchange_keysWith _ _ (fun key made => uplinkKeyCreated_fresh made)
    have started : (saeadStep cfg ring.saead
        ((KeyOp.sessionStart algorithm random derives).call ring.keys.next)).1.uplink.activeKeys =
        (uplinkKeyCreated cfg algorithm random (freshKeys ring.keys.next derives false)).toList := by
      cases random with
      | none => rfl
      | some value => rfl
    have kept : (saeadStep cfg ring.saead
        ((KeyOp.sessionStart algorithm random derives).call ring.keys.next)).1.downlink = ring.saead.downlink := rfl
    simp only [keyStep, Keyring.held, lostKeys, started, kept]
    abel
  | downlinkStart info derives copies =>
    apply exchange_keysWith _ _ (fun key made => downlinkKeyCreated_fresh made)
    have replaced := cryptoDownlinkStart_created cfg ring.saead info
      (freshKeys ring.keys.next derives copies)
    simp only [keyStep, KeyOp.call, saeadStep, Keyring.held, lostKeys]
    cases created : downlinkKeyCreated cfg ring.saead info (freshKeys ring.keys.next derives copies) with
    | none =>
      simp only [created] at replaced
      simp [replaced]
    | some key =>
      simp only [created] at replaced
      obtain ⟨id, algorithm, pouchId, restarted⟩ := replaced
      have started : (ring.saead.restarted id algorithm key pouchId).downlink.activeKeys = [key] := rfl
      have kept : (ring.saead.restarted id algorithm key pouchId).uplink = ring.saead.uplink := rfl
      simp only [restarted, started, kept, Option.isSome_some, if_true, Option.toList_some]
      abel
  | sessionEnd =>
    have freed := exchange_freeAll ring.keys (ring.saead.uplink.activeKeys ++ ring.saead.downlink.activeKeys)
    rw [← Multiset.coe_add] at freed
    have after : (keyStep cfg ring .sessionEnd).1.held = 0 := by
      simp only [keyStep, KeyOp.call, saeadStep, cryptoSessionEnd, Keyring.held, sessionEnd_activeKeys]
      rfl
    rw [after, zero_add]
    exact freed

end Accounting

section Invariant

variable (cfg : Config)

structure Keyring.Formed (ring : Keyring) : Prop where
  -- Device sessions have random IDs, so that no header can name the uplink session.
  uplinkRandom : ring.saead.uplink.flags.valid = true →
    ∃ value, ring.saead.uplink.id.value = .random value
  downlinkKeyed : ring.saead.downlink.flags.active = true → ring.saead.downlink.key.isSome = true
  accounted : ∃ leaked, Balanced ring.keys (ring.held + leaked)

theorem Keyring.boot_formed : Keyring.boot.Formed where
  uplinkRandom := by simp [Keyring.boot, Saead.boot, unstartedSession, SessionFlags.clear]
  downlinkKeyed := by simp [Keyring.boot, Saead.boot, unstartedSession, SessionFlags.clear]
  accounted := ⟨0, Balanced.empty⟩

theorem Keyring.Formed.accounted_step {ring : Keyring} (formed : ring.Formed) (op : KeyOp) :
    ∃ leaked, Balanced (keyStep cfg ring op).1.keys ((keyStep cfg ring op).1.held + leaked) := by
  obtain ⟨leaked, balanced⟩ := formed.accounted
  have after := (keyStep_exchange cfg ring op).balanced leaked balanced
  rw [add_assoc] at after
  exact ⟨_, after⟩

theorem Keyring.Formed.step {ring : Keyring} (formed : ring.Formed) (op : KeyOp) :
    (keyStep cfg ring op).1.Formed := by
  have accounted := formed.accounted_step cfg op
  have quiet (same : ring.saead.SameKeys (keyStep cfg ring op).1.saead) : (keyStep cfg ring op).1.Formed := by
    refine ⟨?_, ?_, accounted⟩
    · rw [same.uplinkFlags, same.uplinkId]
      exact formed.uplinkRandom
    · rw [same.downlinkActive, same.downlinkKey]
      exact formed.downlinkKeyed
  cases op with
  | pouchStart => exact quiet (sameKeys_pouchStart cfg ring.saead)
  | encryptBlock block malloc psa => exact quiet (sameKeys_encryptBlock cfg ring.saead block malloc psa)
  | decryptBlock block malloc psa => exact quiet (sameKeys_decryptBlock cfg ring.saead block malloc psa)
  | sessionStart algorithm random derives =>
    refine ⟨?_, formed.downlinkKeyed, accounted⟩
    cases random with
    | none => simp [keyStep, KeyOp.call, saeadStep, uplinkSessionStart, SessionFlags.clear]
    | some value => exact fun _ => ⟨value, rfl⟩
  | downlinkStart info derives copies =>
    have uplink := cryptoDownlinkStart_uplink cfg ring.saead info (freshKeys ring.keys.next derives copies)
    have replaced := cryptoDownlinkStart_created cfg ring.saead info
      (freshKeys ring.keys.next derives copies)
    refine ⟨?_, ?_, accounted⟩
    · simp only [keyStep, KeyOp.call, saeadStep, uplink]
      exact formed.uplinkRandom
    · simp only [keyStep, KeyOp.call, saeadStep]
      split at replaced
      · rw [replaced]
        exact formed.downlinkKeyed
      · obtain ⟨id, algorithm, pouchId, restarted⟩ := replaced
        rw [restarted]
        exact fun _ => rfl
  | sessionEnd =>
    refine ⟨?_, ?_, accounted⟩
    · simp only [keyStep, KeyOp.call, saeadStep, cryptoSessionEnd, sessionEnd_valid, sessionEnd_id]
      exact formed.uplinkRandom
    · simp only [keyStep, KeyOp.call, saeadStep, cryptoSessionEnd, sessionEnd]
      split_ifs with active
      · simp
      · exact fun still => absurd still active

end Invariant

section Leaks

variable {cfg : Config} {ring : Keyring}

theorem Session.mem_activeKeys {session : Session Nat} {key : Nat} :
    key ∈ session.activeKeys ↔ session.flags.active = true ∧ session.key = some key := by
  simp [Session.activeKeys]

/-- Every live key is the key of an active session, and there are at most two. -/
structure NoKeyLeaked (ring : Keyring) : Prop where
  referred : ∀ key ∈ ring.keys.live, ∃ session ∈ [ring.saead.uplink, ring.saead.downlink],
    session.flags.active = true ∧ session.key = some key
  atMostTwo : ring.keys.live.card ≤ 2

theorem Keyring.mem_held {key : Nat} : key ∈ ring.held ↔
    ∃ session ∈ [ring.saead.uplink, ring.saead.downlink],
      session.flags.active = true ∧ session.key = some key := by
  simp [Keyring.held, Session.mem_activeKeys]

theorem Session.activeKeys_length (session : Session Nat) : session.activeKeys.length ≤ 1 := by
  unfold Session.activeKeys
  split_ifs
  · cases session.key <;> simp
  · simp

theorem noKeyLeaked_iff {leaked : Multiset Nat} (balanced : Balanced ring.keys (ring.held + leaked)) :
    NoKeyLeaked ring ↔ leaked = 0 := by
  have live := balanced.live_eq
  constructor
  · intro none'
    apply Multiset.eq_zero_of_forall_notMem
    intro key member
    have holder := none'.referred key (by rw [live]; exact Multiset.mem_add.mpr (.inr member))
    have disjoint := (Multiset.nodup_add.mp balanced.held_nodup).2.2
    exact Multiset.disjoint_left.mp disjoint (Keyring.mem_held.mpr holder) member
  · rintro rfl
    rw [add_zero] at live
    refine ⟨?_, ?_⟩
    · intro key member
      rw [live] at member
      exact Keyring.mem_held.mp member
    · have uplink := ring.saead.uplink.activeKeys_length
      have downlink := ring.saead.downlink.activeKeys_length
      simp only [live, Keyring.held, Multiset.card_add, Multiset.coe_card]
      omega

def OpensSession (saead : Saead Nat) (info : EncryptionInfo) (derives : Bool) : Prop :=
  ∃ session pouchId id, info = .saead session pouchId ∧ sessionIdOf session = some id ∧
    id.initiator = .server ∧ isValidDownlink saead id session.algorithm.algorithm = true ∧ derives = true

/-- A session is only started over one that has ended, or that has no key. -/
def StartsAfterEnd (reached : History Keyring (SaeadEvent Nat)) : KeyOp → Prop
  | .sessionStart _ _ _ =>
    reached.state.saead.uplink.flags.active = true → reached.state.saead.uplink.key = none
  | .downlinkStart info derives _ =>
    reached.state.saead.downlink.flags.active = true → ¬ OpensSession reached.state.saead info derives
  | _ => True

theorem Keyring.Formed.opensSession_iff (cfg : Config) (formed : ring.Formed) (info : EncryptionInfo)
    (derives copies : Bool) :
    (downlinkKeyCreated cfg ring.saead info (freshKeys ring.keys.next derives copies)).isSome = true ↔
      OpensSession ring.saead info derives := by
  rw [Option.isSome_iff_exists]
  constructor
  · rintro ⟨key, created⟩
    obtain ⟨session, pouchId, id, saead, parsed, valid, sessionKey⟩ := downlinkKeyCreated_eq_some.mp created
    unfold downlinkSessionKey at sessionKey
    split at sessionKey
    · simp at sessionKey
    next tag seqnum device sequential =>
      split_ifs at sessionKey with matches'
      simp only [uplinkSessionMatches, Bool.and_eq_true, decide_eq_true_eq] at matches'
      obtain ⟨value, random⟩ := formed.uplinkRandom matches'.1.1.1
      rw [← matches'.1.1.2, sequential] at random
      simp at random
    next server =>
      have derived : derives = true ∧ ring.keys.next = key := by simpa [freshKeys] using sessionKey
      exact ⟨session, pouchId, id, saead, parsed, server, valid, derived.1⟩
  · rintro ⟨session, pouchId, id, saead, parsed, server, valid, derived⟩
    refine ⟨ring.keys.next, downlinkKeyCreated_eq_some.mpr ⟨session, pouchId, id, saead, parsed, valid, ?_⟩⟩
    simp [downlinkSessionKey, server, freshKeys, derived]

theorem Session.activeKeys_eq_nil {session : Session Nat} :
    session.activeKeys = [] ↔ (session.flags.active = true → session.key = none) := by
  simp [Session.activeKeys]

theorem Keyring.Formed.lostKeys_iff (formed : ring.Formed) (log : List (SaeadEvent Nat)) (op : KeyOp) :
    lostKeys cfg ring op = 0 ↔ StartsAfterEnd ⟨ring, log⟩ op := by
  cases op with
  | sessionStart algorithm random derives =>
    simp only [lostKeys, StartsAfterEnd, Multiset.coe_eq_zero, Session.activeKeys_eq_nil]
  | downlinkStart info derives copies =>
    have keyed := formed.downlinkKeyed
    have created := formed.opensSession_iff cfg info derives copies
    simp only [lostKeys, StartsAfterEnd, ← created]
    split_ifs with opens
    · rw [Multiset.coe_eq_zero, Session.activeKeys_eq_nil]
      constructor
      · intro keyless active
        simp [keyless active] at keyed
        simp [keyed] at active
      · intro refused active
        exact absurd opens (refused active)
    · simp [opens]
  | _ => simp [lostKeys, StartsAfterEnd]

/-- Every key that is live is referred to, in exactly the runs that start a session only after the
previous one has ended. -/
theorem no_key_leaked_iff (cfg : Config) (ops : List KeyOp) :
    (∀ done, done <+: ops → NoKeyLeaked (History.run (keyStep cfg) ⟨.boot, []⟩ done).state) ↔
      History.Meets (keyStep cfg) StartsAfterEnd ⟨.boot, []⟩ ops := by
  have initial : Balanced Keyring.boot.keys (Keyring.boot.held + 0) := Balanced.empty
  rw [History.forall_prefix_iff (keyStep cfg) (fun reached => NoKeyLeaked reached.state) ⟨.boot, []⟩ ops
    ((noKeyLeaked_iff initial).mpr rfl)]
  -- As long as nothing is lost, what the next step loses is all that can be leaked after it.
  have next (ring : Keyring) (op : KeyOp) (balanced : Balanced ring.keys (ring.held + 0)) :
      Balanced (keyStep cfg ring op).1.keys ((keyStep cfg ring op).1.held + lostKeys cfg ring op) := by
    simpa using (keyStep_exchange cfg ring op).balanced 0 balanced
  apply History.meets_iff_of_invariant (keyStep cfg) _ _
    (fun reached => reached.state.Formed ∧ Balanced reached.state.keys (reached.state.held + 0)) _ _
    ⟨Keyring.boot_formed, initial⟩
  · rintro ⟨ring, log⟩ op ⟨formed, balanced⟩
    exact (noKeyLeaked_iff (next ring op balanced)).trans (formed.lostKeys_iff log op)
  · rintro ⟨ring, log⟩ op afterEnd ⟨formed, balanced⟩
    have kept := next ring op balanced
    rw [(formed.lostKeys_iff log op).mpr afterEnd] at kept
    exact ⟨formed.step cfg op, kept⟩

def serverHeader (value : UInt8) : EncryptionInfo :=
  .saead ⟨.random (List.replicate 16 value), .server, .aesGcm, 9⟩ 1

/-- The second header of an uplink session starts a downlink session over the first one, whose key
nobody destroys. -/
theorem second_header_leaks_key :
    let ops := [.sessionStart .gcm (some (Bytes.zero 16)) true, .downlinkStart (serverHeader 1) true false,
      .downlinkStart (serverHeader 2) true false]
    let final := (History.run (keyStep (defaultConfig .saead)) ⟨.boot, []⟩ ops).state
    final.keys.live.card = 3 ∧ final.saead.downlink.key = some 2 ∧
      ¬ ∀ done, done <+: ops → NoKeyLeaked (History.run (keyStep (defaultConfig .saead)) ⟨.boot, []⟩ done).state := by
  intro ops final
  have three : final.keys.live.card = 3 := by decide +kernel
  refine ⟨three, by decide +kernel, ?_⟩
  intro never
  have two : final.keys.live.card ≤ 2 := (never ops (List.prefix_refl ops)).atMostTwo
  omega

end Leaks

section Usable

variable {cfg : Config} {ring : Keyring}

/-- Every active session has a key that was created and has not been destroyed. -/
def UsableKeys (ring : Keyring) : Prop :=
  ∀ session ∈ [ring.saead.uplink, ring.saead.downlink], session.flags.active = true →
    ∃ key, session.key = some key ∧ key ∈ ring.keys.live

-- A key that an active session refers to is always live, so that only a NULL key is unusable.
theorem Keyring.Formed.usableKeys_iff (formed : ring.Formed) :
    UsableKeys ring ↔ (ring.saead.uplink.flags.active = true → ring.saead.uplink.key.isSome = true) := by
  obtain ⟨leaked, balanced⟩ := formed.accounted
  have usable (session : Session Nat) (member : session ∈ [ring.saead.uplink, ring.saead.downlink])
      (active : session.flags.active = true) (keyed : session.key.isSome = true) :
      ∃ key, session.key = some key ∧ key ∈ ring.keys.live := by
    obtain ⟨key, held⟩ := Option.isSome_iff_exists.mp keyed
    have referred : key ∈ ring.held := Keyring.mem_held.mpr ⟨session, member, active, held⟩
    refine ⟨key, held, ?_⟩
    rw [balanced.live_eq]
    exact Multiset.mem_add.mpr (.inl referred)
  constructor
  · intro everyKey active
    obtain ⟨key, held, _⟩ := everyKey ring.saead.uplink (by simp) active
    simp [held]
  · intro uplinkKeyed session member active
    apply usable session member active
    simp only [List.mem_cons, List.not_mem_nil, or_false] at member
    rcases member with rfl | rfl
    · exact uplinkKeyed active
    · exact formed.downlinkKeyed active

/-- The derivation of an uplink key succeeds whenever it is reached. -/
def KeyOp.Derives : KeyOp → Prop
  | .sessionStart _ random derives => random.isSome = true → derives = true
  | _ => True

theorem keyStep_usable (cfg : Config)
    (keyed : ring.saead.uplink.flags.active = true → ring.saead.uplink.key.isSome = true) (op : KeyOp) :
    (((keyStep cfg ring op).1.saead.uplink.flags.active = true →
        (keyStep cfg ring op).1.saead.uplink.key.isSome = true) ∧
      SaeadEvent.keyed none ∉ (keyStep cfg ring op).2) ↔ op.Derives := by
  have quiet (same : ring.saead.SameKeys (keyStep cfg ring op).1.saead) :
      (keyStep cfg ring op).1.saead.uplink.flags.active = true →
        (keyStep cfg ring op).1.saead.uplink.key.isSome = true := by
    rw [same.uplinkFlags, same.uplinkKey]
    exact keyed
  cases op with
  | sessionStart algorithm random derives =>
    cases random with
    | none => simp [keyStep, KeyOp.call, saeadStep, uplinkSessionStart, SessionFlags.clear, KeyOp.Derives]
    | some value =>
      cases derives <;>
        simp [keyStep, KeyOp.call, saeadStep, uplinkSessionStart, freshKeys, KeyOp.Derives]
  | pouchStart =>
    have kept := quiet (sameKeys_pouchStart cfg ring.saead)
    exact iff_of_true ⟨kept, by simp [keyStep, KeyOp.call, saeadStep]⟩ trivial
  | encryptBlock block malloc psa =>
    have kept := quiet (sameKeys_encryptBlock cfg ring.saead block malloc psa)
    exact iff_of_true ⟨kept, by simp [keyStep, KeyOp.call, saeadStep]⟩ trivial
  | decryptBlock block malloc psa =>
    have kept := quiet (sameKeys_decryptBlock cfg ring.saead block malloc psa)
    refine iff_of_true ⟨kept, ?_⟩ trivial
    simp only [keyStep, KeyOp.call, saeadStep]
    split_ifs <;> simp
  | downlinkStart info derives copies =>
    have uplink := cryptoDownlinkStart_uplink cfg ring.saead info (freshKeys ring.keys.next derives copies)
    refine iff_of_true ⟨?_, ?_⟩ trivial
    · simp only [keyStep, KeyOp.call, saeadStep, uplink]
      exact keyed
    · simp only [keyStep, KeyOp.call, saeadStep]
      split_ifs <;> simp
  | sessionEnd =>
    refine iff_of_true ⟨?_, by simp [keyStep, KeyOp.call, saeadStep]⟩ trivial
    simp only [keyStep, KeyOp.call, saeadStep, cryptoSessionEnd, sessionEnd]
    split_ifs with active
    · simp
    · exact fun still => absurd still active

/-- Active sessions have usable keys, and an uplink session is only reported as started with a key, in
exactly the runs where no derivation of an uplink key fails. -/
theorem active_sessions_keyed_iff (cfg : Config) (ops : List KeyOp) :
    (∀ done, done <+: ops →
      UsableKeys (History.run (keyStep cfg) ⟨.boot, []⟩ done).state ∧
      SaeadEvent.keyed none ∉ (History.run (keyStep cfg) ⟨.boot, []⟩ done).log) ↔
    ∀ op ∈ ops, op.Derives := by
  have initial : UsableKeys Keyring.boot :=
    Keyring.boot_formed.usableKeys_iff.mpr (by simp [Keyring.boot, Saead.boot, unstartedSession, SessionFlags.clear])
  rw [History.forall_prefix_iff (keyStep cfg)
    (fun reached => UsableKeys reached.state ∧ SaeadEvent.keyed none ∉ reached.log) ⟨.boot, []⟩ ops
    ⟨initial, by simp⟩, ← History.meets_iff_forall (keyStep cfg) KeyOp.Derives ⟨.boot, []⟩ ops]
  have agree (reached : History Keyring (SaeadEvent Nat)) (op : KeyOp) (formed : reached.state.Formed)
      (usable : UsableKeys reached.state) (quiet : SaeadEvent.keyed none ∉ reached.log) :
      UsableKeys (History.record (keyStep cfg) reached op).state ∧
        SaeadEvent.keyed none ∉ (History.record (keyStep cfg) reached op).log ↔ op.Derives := by
    rw [← keyStep_usable cfg (formed.usableKeys_iff.mp usable) op]
    simp only [History.record, (formed.step cfg op).usableKeys_iff, List.mem_append, not_or, quiet,
      not_false_eq_true, true_and]
  apply History.meets_iff_of_invariant (keyStep cfg) _ _
    (fun reached => reached.state.Formed ∧ UsableKeys reached.state ∧ SaeadEvent.keyed none ∉ reached.log) _ _
    ⟨Keyring.boot_formed, initial, by simp⟩
  · rintro reached op ⟨formed, usable, quiet⟩
    exact agree reached op formed usable quiet
  · rintro reached op derives ⟨formed, usable, quiet⟩
    exact ⟨formed.step cfg op, (agree reached op formed usable quiet).mpr derives⟩

/-- The failure of the derivation goes unnoticed: the start returns 0 and the session is active with a
NULL key. -/
theorem underived_session_is_active :
    let ops := [.sessionStart .gcm (some (Bytes.zero 16)) false]
    let final := History.run (keyStep (defaultConfig .saead)) ⟨.boot, []⟩ ops
    (uplinkSessionStart (defaultConfig .saead) unstartedSession .gcm (some (Bytes.zero 16))
        (freshKeys 0 false false)).1 = none ∧
      final.state.saead.uplink.flags.active = true ∧ final.state.saead.uplink.key = none ∧
      ¬ ∀ done, done <+: ops →
        UsableKeys (History.run (keyStep (defaultConfig .saead)) ⟨.boot, []⟩ done).state ∧
        SaeadEvent.keyed none ∉ (History.run (keyStep (defaultConfig .saead)) ⟨.boot, []⟩ done).log := by
  intro ops final
  have active : final.state.saead.uplink.flags.active = true := by decide +kernel
  have keyless : final.state.saead.uplink.key = none := by decide +kernel
  refine ⟨by decide +kernel, active, keyless, ?_⟩
  intro always
  obtain ⟨key, held, _⟩ := (always ops (List.prefix_refl ops)).1 final.state.saead.uplink (by simp [final]) active
  rw [keyless] at held
  cases held

end Usable

end Pouch
