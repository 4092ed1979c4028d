import Mathlib.Data.List.Nodup
import Pouch.Saead.State

set_option autoImplicit false

namespace Pouch

open ByteMemory

section Nonces

theorem putBe16_inj {first second : Nat} (same : putBe16 first = putBe16 second) :
    first % 65536 = second % 65536 := by
  simp only [putBe16, List.cons.injEq, and_true] at same
  rw [← getBe16_put first, ← getBe16_put second, same.1, same.2]

theorem nonceGenerate_inj {first second : SessionPouch} {sender : PouchRole}
    (firstFits : first.blockIndex.toNat < 65536) (secondFits : second.blockIndex.toNat < 65536)
    (same : nonceGenerate first sender = nonceGenerate second sender) :
    first.id = second.id ∧ first.blockIndex = second.blockIndex := by
  simp only [nonceGenerate, List.append_assoc] at same
  obtain ⟨ids, rest⟩ := List.append_inj same rfl
  obtain ⟨indexes, _⟩ := List.append_inj rest rfl
  have idsNat := putBe16_inj ids
  have indexesNat := putBe16_inj indexes
  have firstId := first.id.toNat_lt
  have secondId := second.id.toNat_lt
  exact ⟨UInt16.toNat_inj.mp (by omega), UInt32.toNat_inj.mp (by omega)⟩

structure Earlier (first second : SessionPouch) : Prop where
  fits : first.blockIndex.toNat < 65536
  before : first.id.toNat < second.id.toNat ∨
    first.id = second.id ∧ first.blockIndex.toNat < second.blockIndex.toNat

theorem Earlier.nonce_ne {first second : SessionPouch} {sender : PouchRole}
    (earlier : Earlier first second) (fits : second.blockIndex.toNat < 65536) :
    nonceGenerate first sender ≠ nonceGenerate second sender := by
  intro same
  obtain ⟨sameId, sameIndex⟩ := nonceGenerate_inj earlier.fits fits same
  rcases earlier.before with lower | ⟨_, lower⟩
  · rw [sameId] at lower
    omega
  · rw [sameIndex] at lower
    omega

end Nonces

section Runs

variable {Key : Type} (cfg : Config)

def usedNonces (log : List (SaeadEvent Key)) : List (Key × List UInt8) :=
  log.filterMap fun
    | .encrypted call => some (call.key, call.nonce)
    | _ => none

@[simp] theorem usedNonces_append (first second : List (SaeadEvent Key)) :
    usedNonces (first ++ second) = usedNonces first ++ usedNonces second :=
  List.filterMap_append

def FreshKey (history : History (Saead Key) (SaeadEvent Key)) (op : SaeadOp Key) : Prop :=
  ∀ key, .keyed (some key) ∈ (saeadStep cfg history.state op).2 → .keyed (some key) ∉ history.log

/-- A successful `psa_aead_encrypt` appends a tag of 16 bytes. -/
def PsaTagged (_ : History (Saead Key) (SaeadEvent Key)) : SaeadOp Key → Prop
  | .encryptBlock _ _ psa =>
    ∀ call output, psa call = some output → output.length = call.input.length + 16
  | _ => True

/-- The counters do not outgrow their 16 bits: neither the block index, which is wider, nor the
pouch ID, which wraps. -/
def CountersFit (history : History (Saead Key) (SaeadEvent Key)) : SaeadOp Key → Prop
  | .encryptBlock _ _ _ => history.state.uplink.flags.active →
    history.state.uplink.pouch.blockIndex.toNat < 65536
  | .pouchStart => history.state.uplink.flags.active → history.state.uplink.pouch.id.toNat < 65535
  | _ => True

structure NonceInvariant (history : History (Saead Key) (SaeadEvent Key)) : Prop where
  unique : (usedNonces history.log).Nodup
  keyed : ∀ key nonce, (key, nonce) ∈ usedNonces history.log → .keyed (some key) ∈ history.log
  current : ∀ key, history.state.uplink.key = some key → .keyed (some key) ∈ history.log ∧
    ∀ nonce, (key, nonce) ∈ usedNonces history.log →
      ∃ pouch, Earlier pouch history.state.uplink.pouch ∧ nonce = nonceGenerate pouch .device

variable {history : History (Saead Key) (SaeadEvent Key)}

theorem NonceInvariant.silent (invariant : NonceInvariant history) (next : Saead Key)
    (events : List (SaeadEvent Key)) (quiet : usedNonces events = [])
    (sameKey : ∀ key, next.uplink.key = some key → history.state.uplink.key = some key)
    (later : ∀ pouch, Earlier pouch history.state.uplink.pouch → Earlier pouch next.uplink.pouch) :
    NonceInvariant ⟨next, history.log ++ events⟩ := by
  have same : usedNonces (history.log ++ events) = usedNonces history.log := by simp [quiet]
  constructor
  · rw [same]
    exact invariant.unique
  · intro key nonce used
    rw [same] at used
    exact List.mem_append_left _ (invariant.keyed key nonce used)
  · intro key held
    obtain ⟨known, places⟩ := invariant.current key (sameKey key held)
    refine ⟨List.mem_append_left _ known, ?_⟩
    intro nonce used
    rw [same] at used
    obtain ⟨pouch, earlier, generated⟩ := places nonce used
    exact ⟨pouch, later pouch earlier, generated⟩

theorem NonceInvariant.sessionStart (invariant : NonceInvariant history) (algorithm : Algorithm)
    (random : Option (Bytes 16)) (keys : KeySource Key)
    (fresh : FreshKey cfg history (.sessionStart algorithm random keys)) :
    NonceInvariant (history.record (saeadStep cfg) (.sessionStart algorithm random keys)) := by
  cases random with
  | none => exact invariant.silent _ _ rfl (fun _ held => held) (fun _ earlier => earlier)
  | some value =>
    simp only [FreshKey, saeadStep, uplinkSessionStart, if_true, List.mem_singleton] at fresh
    simp only [History.record, saeadStep, uplinkSessionStart, if_true]
    generalize keys.sessionKeyGenerate ⟨.device, .random value⟩ algorithm cfg.maxBlockPayloadSizeLog =
      generated at *
    have same : usedNonces (history.log ++ [.keyed generated]) = usedNonces history.log := by
      rw [usedNonces_append]
      exact List.append_nil _
    constructor
    · rw [same]
      exact invariant.unique
    · intro key nonce used
      rw [same] at used
      exact List.mem_append_left _ (invariant.keyed key nonce used)
    · intro key held
      have new := fresh key (congrArg SaeadEvent.keyed held.symm)
      refine ⟨by simp [show generated = some key from held], ?_⟩
      intro nonce used
      rw [same] at used
      exact absurd (invariant.keyed key nonce used) new

theorem NonceInvariant.pouchStart (invariant : NonceInvariant history)
    (fit : CountersFit history .pouchStart) :
    NonceInvariant (history.record (saeadStep cfg) .pouchStart) := by
  simp only [History.record, saeadStep, uplinkPouchStart, sessionPouchStart]
  by_cases active : history.state.uplink.flags.active = true
  · simp only [active, if_true]
    refine invariant.silent _ _ rfl (fun _ held => held) ?_
    intro pouch earlier
    have counted := fit active
    have next : (history.state.uplink.pouch.id + 1).toNat = history.state.uplink.pouch.id.toNat + 1 := by
      rw [UInt16.toNat_add]
      exact Nat.mod_eq_of_lt (by have := history.state.uplink.pouch.id.toNat_lt; simp; omega)
    refine ⟨earlier.fits, .inl ?_⟩
    simp only [next]
    rcases earlier.before with lower | ⟨sameId, _⟩
    · omega
    · rw [sameId]
      omega
  · simp only [active, Bool.false_eq_true, if_false]
    exact invariant.silent _ _ rfl (fun _ held => held) (fun _ earlier => earlier)

theorem NonceInvariant.encryptBlock (invariant : NonceInvariant history) (block : PouchBuf)
    (malloc : Option Memory) (psa : PsaAead Key)
    (tagged : PsaTagged history (.encryptBlock block malloc psa))
    (fit : CountersFit history (.encryptBlock block malloc psa)) :
    NonceInvariant (history.record (saeadStep cfg) (.encryptBlock block malloc psa)) := by
  simp only [History.record, saeadStep, uplinkEncryptBlock]
  by_cases active : history.state.uplink.flags.active = true
  · have fits := fit active
    simp only [active, if_true]
    rcases sealBlock_cases _ rfl with ⟨same, _, wrong⟩ | ⟨key, input, output, buf, held, _, _, sealed', _⟩
    · -- The PSA call failed: its output would have had the right length.
      have uncalled : (sessionEncryptBlock cfg malloc psa history.state.uplink block).call = none := by
        by_contra called
        obtain ⟨call, some'⟩ := Option.ne_none_iff_exists'.mp called
        obtain ⟨output, success, short⟩ := wrong call some'
        exact short (tagged call output success)
      rw [uncalled]
      have kept : (sessionEncryptBlock cfg malloc psa history.state.uplink block).session =
          history.state.uplink := same
      rw [kept]
      exact invariant.silent _ _ rfl (fun _ held => held) (fun _ earlier => earlier)
    · rw [sessionEncryptBlock, sealed']
      obtain ⟨known, places⟩ := invariant.current key held
      let nonce := nonceGenerate history.state.uplink.pouch .device
      have used : usedNonces (history.log ++ [.encrypted (history.state.uplink.aeadCall .device key input)]) =
          usedNonces history.log ++ [(key, nonce)] := usedNonces_append _ _
      have next : (history.state.uplink.pouch.blockIndex + 1).toNat =
          history.state.uplink.pouch.blockIndex.toNat + 1 := by
        rw [UInt32.toNat_add]
        exact Nat.mod_eq_of_lt (by simp; omega)
      constructor
      · simp only [Option.toList_some, List.map_cons, List.map_nil, used]
        refine List.nodup_append.mpr ⟨invariant.unique, List.nodup_singleton _, ?_⟩
        rintro ⟨oldKey, oldNonce⟩ old _ new rfl
        simp only [List.mem_singleton, Prod.mk.injEq] at new
        obtain ⟨rfl, rfl⟩ := new
        obtain ⟨pouch, earlier, generated⟩ := places _ old
        exact earlier.nonce_ne fits generated.symm
      · intro other otherNonce member
        simp only [Option.toList_some, List.map_cons, List.map_nil, used, List.mem_append,
          List.mem_singleton, Prod.mk.injEq] at member
        refine List.mem_append_left _ ?_
        rcases member with old | ⟨rfl, _⟩
        · exact invariant.keyed other otherNonce old
        · exact known
      · intro other otherHeld
        obtain rfl : key = other := Option.some.inj (held.symm.trans otherHeld)
        refine ⟨List.mem_append_left _ known, ?_⟩
        intro otherNonce member
        simp only [Option.toList_some, List.map_cons, List.map_nil, used, List.mem_append,
          List.mem_singleton, Prod.mk.injEq, true_and] at member
        rcases member with old | rfl
        · obtain ⟨pouch, earlier, generated⟩ := places _ old
          refine ⟨pouch, ⟨earlier.fits, ?_⟩, generated⟩
          rcases earlier.before with lower | ⟨sameId, lower⟩
          · exact .inl lower
          · exact .inr ⟨sameId, by simp only [Session.advance, next]; omega⟩
        · exact ⟨_, ⟨fits, .inr ⟨rfl, by simp only [Session.advance, next]; omega⟩⟩, rfl⟩
  · simp only [active, Bool.false_eq_true, if_false]
    exact invariant.silent _ _ rfl (fun _ held => held) (fun _ earlier => earlier)

theorem saeadStep_nonces (invariant : NonceInvariant history) (op : SaeadOp Key)
    (fresh : FreshKey cfg history op) (tagged : PsaTagged history op) (fit : CountersFit history op) :
    NonceInvariant (history.record (saeadStep cfg) op) := by
  cases op with
  | sessionStart algorithm random keys => exact invariant.sessionStart cfg algorithm random keys fresh
  | pouchStart => exact invariant.pouchStart cfg fit
  | encryptBlock block malloc psa => exact invariant.encryptBlock cfg block malloc psa tagged fit
  | downlinkStart info keys =>
    have same : (saeadStep cfg history.state (.downlinkStart info keys)).1.uplink =
        history.state.uplink := cryptoDownlinkStart_uplink cfg history.state info keys
    refine invariant.silent _ _ ?_ (fun _ held => same ▸ held) (fun _ earlier => same ▸ earlier)
    simp only [saeadStep]
    split_ifs <;> rfl
  | decryptBlock block malloc psa =>
    have same : (saeadStep cfg history.state (.decryptBlock block malloc psa)).1.uplink =
        history.state.uplink := downlinkBlockDecrypt_uplink cfg history.state block malloc psa
    refine invariant.silent _ _ ?_ (fun _ held => same ▸ held) (fun _ earlier => same ▸ earlier)
    simp only [saeadStep]
    split_ifs <;> rfl
  | sessionEnd =>
    refine invariant.silent _ _ rfl (fun _ held => sessionEnd_key held) ?_
    intro pouch earlier
    exact sessionEnd_pouch.symm ▸ earlier

/-- As long as both counters fit their fields in the nonce, no key meets a nonce twice. -/
theorem nonce_unique (ops : List (SaeadOp Key))
    (fresh : History.Meets (saeadStep cfg) (FreshKey cfg) ⟨.boot, []⟩ ops)
    (tagged : History.Meets (saeadStep cfg) PsaTagged ⟨.boot, []⟩ ops)
    (fit : History.Meets (saeadStep cfg) CountersFit ⟨.boot, []⟩ ops) :
    (usedNonces (History.run (saeadStep cfg) ⟨.boot, []⟩ ops).log).Nodup := by
  have met := (fresh.both (saeadStep cfg) tagged).both (saeadStep cfg) fit
  have invariant : NonceInvariant (History.run (saeadStep cfg) ⟨.boot, []⟩ ops) := by
    apply History.run_invariant (saeadStep cfg) _ NonceInvariant _ ops ?_ met
    · rintro reached op ⟨⟨isFresh, isTagged⟩, fits⟩ holds
      exact saeadStep_nonces cfg holds op isFresh isTagged fits
    · exact ⟨List.nodup_nil, fun _ _ used => by simp [usedNonces] at used,
        fun _ held => by simp [Saead.boot, unstartedSession] at held⟩
  exact invariant.unique

end Runs

section Wrapping

variable {Key : Type}

theorem run_encryptBlock (cfg : Config) (block : PouchBuf) (memory : Memory) (psa : PsaAead Key)
    (payload : List UInt8) (small : payload.length < 65536)
    (contents : block.contents = putBe16 payload.length ++ payload)
    (succeeds : ∀ call, ∃ output, psa call = some output ∧ output.length = call.input.length + 16)
    (key : Key) (count : Nat) (history : History (Saead Key) (SaeadEvent Key))
    (active : history.state.uplink.flags.active = true)
    (held : history.state.uplink.key = some key) :
    let pouch := history.state.uplink.pouch
    usedNonces (History.run (saeadStep cfg) history
        (List.replicate count (.encryptBlock block (some memory) psa))).log =
      usedNonces history.log ++ (List.range count).map fun offset =>
        (key, nonceGenerate { pouch with blockIndex := pouch.blockIndex + UInt32.ofNat offset }
          .device) := by
  induction count generalizing history with
  | zero => simp
  | succ count ih =>
    obtain ⟨output, called, tagged⟩ :=
      succeeds (history.state.uplink.aeadCall .device key payload)
    obtain ⟨buf, sealed', _⟩ := sealBlock_framed cfg memory payload output key small contents
      held called tagged
    have stepped : saeadStep cfg history.state (.encryptBlock block (some memory) psa) =
        ({ history.state with uplink := history.state.uplink.advance (output.drop payload.length) },
          [.encrypted (history.state.uplink.aeadCall .device key payload)]) := by
      simp only [saeadStep, uplinkEncryptBlock, active, if_true, sessionEncryptBlock, sealed']
      rfl
    have later := ih (history.record (saeadStep cfg) (.encryptBlock block (some memory) psa))
      (by rw [History.record, stepped]; exact active) (by rw [History.record, stepped]; exact held)
    rw [List.replicate_succ, History.run_cons, later, List.range_succ_eq_map]
    have first : usedNonces [.encrypted (history.state.uplink.aeadCall .device key payload)] =
        [(key, nonceGenerate history.state.uplink.pouch .device)] := rfl
    have shifted (offset : Nat) : history.state.uplink.pouch.blockIndex + 1 + UInt32.ofNat offset =
        history.state.uplink.pouch.blockIndex + UInt32.ofNat (offset + 1) := by
      rw [UInt32.ofNat_add, UInt32.add_assoc, UInt32.add_comm 1]
      rfl
    simp only [History.record, stepped, usedNonces_append, List.append_assoc, first,
      List.map_cons, List.map_map, List.singleton_append]
    congr 2
    · simp
    · apply List.map_congr_left
      intro offset _
      simp only [Session.advance, shifted, Function.comp_apply, Nat.succ_eq_add_one]
      rfl

theorem nonces_collide (key : Key) (pouch : SessionPouch) (started : pouch.blockIndex = 0) :
    ¬ ((List.range 65537).map fun offset => (key, nonceGenerate
      { pouch with blockIndex := pouch.blockIndex + UInt32.ofNat offset } .device)).Nodup := by
  intro distinct
  have same := List.inj_on_of_nodup_map distinct (x := 0) (y := 65536)
    (List.mem_range.mpr (by decide)) (List.mem_range.mpr (by decide))
  refine absurd (same ?_) (by decide)
  have low : putBe16 (0 + UInt32.ofNat 65536).toNat = putBe16 (0 + UInt32.ofNat 0).toNat := by decide
  simp only [nonceGenerate, started, low]

end Wrapping

def sampleBlock : PouchBuf := PouchBuf.ofList [0, 1, 0xc0]

-- A key source that always gives the same key, and a cipher that only appends a tag.
def sampleKeys : KeySource Unit := ⟨fun _ _ _ => some (), some⟩

def sampleSeal : PsaAead Unit := fun call => some (call.input ++ List.replicate 16 0)

def sampleEncryptBlock : SaeadOp Unit := .encryptBlock sampleBlock (some fun _ => 0) sampleSeal

def sampleUplinkOps (blocks : Nat) : List (SaeadOp Unit) :=
  [.sessionStart .chacha20Poly1305 (some (Bytes.zero 16)) sampleKeys, .pouchStart] ++
    List.replicate blocks sampleEncryptBlock

theorem sampleUplink_tagged (blocks : Nat) :
    History.Meets (saeadStep (defaultConfig .saead)) PsaTagged ⟨.boot, []⟩ (sampleUplinkOps blocks) := by
  apply History.meets_of_forall
  intro reached op member
  simp only [sampleUplinkOps, List.cons_append, List.nil_append, List.mem_cons,
    List.mem_replicate] at member
  rcases member with rfl | rfl | ⟨_, rfl⟩
  · trivial
  · trivial
  · rintro call output ⟨⟩
    simp

theorem sampleUplink_fresh (blocks : Nat) :
    History.Meets (saeadStep (defaultConfig .saead)) (FreshKey (defaultConfig .saead)) ⟨.boot, []⟩
      (sampleUplinkOps blocks) := by
  refine ⟨fun _ _ => List.not_mem_nil, ?_, ?_⟩
  · intro key keyed
    simp [saeadStep] at keyed
  · apply History.meets_of_forall
    intro reached op member key keyed
    rw [List.eq_of_mem_replicate member] at keyed
    simp [saeadStep, sampleEncryptBlock] at keyed

theorem two_blocks_nonce_unique :
    (usedNonces (History.run (saeadStep (defaultConfig .saead)) ⟨.boot, []⟩
      (sampleUplinkOps 2)).log).Nodup := by
  apply nonce_unique (defaultConfig .saead)
  · exact sampleUplink_fresh 2
  · exact sampleUplink_tagged 2
  · exact ⟨trivial, fun _ => by decide, fun _ => by decide, fun _ => by decide +kernel, trivial⟩

theorem sampleUplink_nonces (blocks : Nat) :
    ∃ pouch : SessionPouch, pouch.blockIndex = 0 ∧
      usedNonces (History.run (saeadStep (defaultConfig .saead)) ⟨.boot, []⟩
          (sampleUplinkOps blocks)).log =
        (List.range blocks).map fun offset => ((), nonceGenerate
          { pouch with blockIndex := pouch.blockIndex + UInt32.ofNat offset } .device) := by
  have succeeds (call : AeadCall Unit) : ∃ output, sampleSeal call = some output ∧
      output.length = call.input.length + 16 := ⟨_, rfl, by simp⟩
  have counted := run_encryptBlock (defaultConfig .saead) sampleBlock (fun _ => 0) sampleSeal
    [0xc0] (by decide) (PouchBuf.ofList_contents _) succeeds () blocks
    (History.run (saeadStep (defaultConfig .saead)) ⟨.boot, []⟩ (sampleUplinkOps 0)) rfl rfl
  refine ⟨⟨1, 0, Bytes.zero 16⟩, rfl, ?_⟩
  rw [sampleUplinkOps, History.run_append]
  exact counted

-- The 65537th block of a pouch gets the nonce of the first one again.
theorem nonce_reused :
    History.Meets (saeadStep (defaultConfig .saead)) (FreshKey (defaultConfig .saead)) ⟨.boot, []⟩
        (sampleUplinkOps 65537) ∧
      History.Meets (saeadStep (defaultConfig .saead)) PsaTagged ⟨.boot, []⟩ (sampleUplinkOps 65537) ∧
      ¬ (usedNonces (History.run (saeadStep (defaultConfig .saead)) ⟨.boot, []⟩
        (sampleUplinkOps 65537)).log).Nodup := by
  refine ⟨sampleUplink_fresh 65537, sampleUplink_tagged 65537, ?_⟩
  obtain ⟨pouch, started, nonces⟩ := sampleUplink_nonces 65537
  rw [nonces]
  exact nonces_collide () pouch started

end Pouch
