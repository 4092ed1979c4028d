import Pouch.Saead.State

set_option autoImplicit false

namespace Pouch

open ByteMemory

variable {Key : Type}

/-- A block of the given pouch was decrypted, and since then only headers of its session have been
accepted. -/
def SeenSince (id : SessionId) (pouchId : UInt16) (log : List (SaeadEvent Key)) : Prop :=
  ∃ before after, log = before ++ .decrypted id pouchId :: after ∧
    ∀ other otherPouch, .accepted other otherPouch ∈ after → other = id

theorem seenSince_concat (id : SessionId) (pouchId : UInt16) (log : List (SaeadEvent Key))
    (event : SaeadEvent Key) (seen : SeenSince id pouchId (log ++ [event])) :
    event = .decrypted id pouchId ∨
      (SeenSince id pouchId log ∧ ∀ other otherPouch, event = .accepted other otherPouch → other = id) := by
  obtain ⟨before, after, split, only⟩ := seen
  rcases List.eq_nil_or_concat after with rfl | ⟨earlier, last, rfl⟩
  · have ends := List.append_inj' split rfl
    exact .inl (List.cons.inj ends.2).1
  · rw [List.concat_eq_append] at split only
    rw [← List.cons_append, ← List.append_assoc] at split
    obtain ⟨same, lastSame⟩ := List.append_inj' split rfl
    have isLast := (List.cons.inj lastSame).1
    refine .inr ⟨⟨before, earlier, same, ?_⟩, ?_⟩
    · exact fun other otherPouch member => only other otherPouch (List.mem_append_left _ member)
    · intro other otherPouch isAccepted
      exact only other otherPouch (by simp [← isLast, isAccepted])

def SeenInvariant (history : History (Saead Key) (SaeadEvent Key)) : Prop :=
  ∀ id pouchId, id.initiator = .server → SeenSince id pouchId history.log →
    history.state.downlink.id = id ∧
      (id.isServerSequential = true → history.state.downlink.flags.valid = true ∧
        history.state.server.seqnum = id.seqnum)

section Runs

variable (cfg : Config) {history : History (Saead Key) (SaeadEvent Key)}

theorem SeenInvariant.silent (invariant : SeenInvariant history) (next : Saead Key)
    (events : List (SaeadEvent Key)) (few : events.length ≤ 1)
    (quiet : ∀ id pouchId, .decrypted id pouchId ∉ events)
    (sameId : next.downlink.id = history.state.downlink.id)
    (sameValid : next.downlink.flags.valid = history.state.downlink.flags.valid)
    (sameSeqnum : next.server.seqnum = history.state.server.seqnum) :
    SeenInvariant ⟨next, history.log ++ events⟩ := by
  intro id pouchId server seen
  have before : SeenSince id pouchId history.log := by
    match events, few with
    | [], _ => simpa using seen
    | [event], _ =>
      rcases seenSince_concat id pouchId history.log event seen with decrypted | ⟨old, _⟩
      · exact absurd (by simp [decrypted]) (quiet id pouchId)
      · exact old
  rw [sameId, sameValid, sameSeqnum]
  exact invariant id pouchId server before

theorem SeenInvariant.downlinkStart (invariant : SeenInvariant history) (info : EncryptionInfo)
    (keys : KeySource Key) :
    SeenInvariant (history.record (saeadStep cfg) (.downlinkStart info keys)) := by
  simp only [History.record, saeadStep]
  rcases cryptoDownlinkStart_cases cfg history.state info keys with
    ⟨err, refused⟩ | ⟨session, pouchId, newId, key, rfl, parsed, valid, accepted⟩
  · rw [refused]
    exact invariant.silent _ _ (by simp) (by simp) rfl rfl rfl
  · rw [accepted]
    simp only [if_true]
    intro id seenPouch server seen
    rcases seenSince_concat id seenPouch history.log _ seen with decrypted | ⟨old, only⟩
    · exact absurd decrypted (by simp)
    obtain rfl : newId = id := only newId pouchId rfl
    obtain ⟨_, numbered⟩ := invariant newId seenPouch server old
    refine ⟨rfl, ?_⟩
    -- A numbered session that was seen is refused, so this header is not one of it.
    intro isNumbered
    obtain ⟨flag, seqnum⟩ := numbered isNumbered
    simp only [isValidDownlink, flag, if_true, isNumbered, Bool.true_and, seqnum] at valid
    split_ifs at valid
    simp at valid

theorem SeenInvariant.decryptBlock (invariant : SeenInvariant history) (block : PouchBuf)
    (malloc : Option Memory) (psa : PsaAead Key) :
    SeenInvariant (history.record (saeadStep cfg) (.decryptBlock block malloc psa)) := by
  simp only [History.record, saeadStep]
  rcases downlinkBlockDecrypt_cases cfg history.state block malloc psa with
    failed | ⟨buf, next, opened, sameId, _, valid, seqnum⟩
  · rw [failed]
    exact invariant.silent _ _ (by simp) (by simp) rfl rfl rfl
  · rw [opened]
    simp only [Option.isSome_some, if_true]
    intro id pouchId server seen
    have current : next.downlink.id = id := by
      rcases seenSince_concat id pouchId history.log _ seen with decrypted | ⟨old, _⟩
      · simp only [SaeadEvent.decrypted.injEq] at decrypted
        exact decrypted.1
      · rw [sameId]
        exact (invariant id pouchId server old).1
    refine ⟨current, ?_⟩
    intro isNumbered
    refine ⟨valid, ?_⟩
    rw [seqnum, ← sameId, current, if_pos isNumbered]

theorem saeadStep_seen (invariant : SeenInvariant history) (op : SaeadOp Key) :
    SeenInvariant (history.record (saeadStep cfg) op) := by
  cases op with
  | sessionStart algorithm random keys =>
    refine invariant.silent _ _ ?_ ?_ rfl rfl rfl <;> simp only [saeadStep]
    · split_ifs <;> simp
    · intro id pouchId
      split_ifs <;> simp
  | pouchStart => exact invariant.silent _ _ (by simp [saeadStep]) (by simp [saeadStep]) rfl rfl rfl
  | encryptBlock block malloc psa =>
    refine invariant.silent _ _ ?_ ?_ rfl rfl rfl <;> simp only [saeadStep]
    · cases (uplinkEncryptBlock cfg malloc psa history.state.uplink block).call <;> simp
    · simp
  | downlinkStart info keys => exact invariant.downlinkStart cfg info keys
  | decryptBlock block malloc psa => exact invariant.decryptBlock cfg block malloc psa
  | sessionEnd =>
    exact invariant.silent _ _ (by simp [saeadStep]) (by simp [saeadStep]) sessionEnd_id
      sessionEnd_valid rfl

theorem run_seen (ops : List (SaeadOp Key)) :
    SeenInvariant (History.run (saeadStep cfg) ⟨.boot, []⟩ ops) := by
  apply History.run_invariant (saeadStep cfg) (fun _ _ => True)
  · rintro id pouchId _ ⟨before, after, split, _⟩
    simp at split
  · exact History.meets_of_forall _ _ _ _ fun _ _ _ => trivial
  · exact fun reached op _ holds => saeadStep_seen cfg holds op

/-- The pouch ID is never what a header is refused for: the flag its check depends on has been
reset just before. -/
theorem pouch_replay_refused_iff (ops : List (SaeadOp Key)) (id : SessionId) (pouchId : UInt16)
    (server : id.initiator = .server)
    (seen : SeenSince id pouchId (History.run (saeadStep cfg) ⟨.boot, []⟩ ops).log)
    (session : SessionInfo) (parsed : sessionIdOf session = some id) (replayed : UInt16)
    (keys : KeySource Key) :
    let state := (History.run (saeadStep cfg) ⟨.boot, []⟩ ops).state
    (cryptoDownlinkStart cfg state (.saead session replayed) keys).1 ≠ none ↔
      id.isServerSequential = true ∨
        (state.downlink.flags.valid = true ∧
          state.downlink.algorithm ≠ session.algorithm.algorithm) ∨
        keys.sessionKeyGenerate id session.algorithm.algorithm session.maxBlockSizeLog.toNat = none := by
  intro state
  obtain ⟨current, numbered⟩ := run_seen cfg ops id pouchId server seen
  have keyed : downlinkSessionKey cfg state id session.algorithm.algorithm session.maxBlockSizeLog keys =
      .ok (keys.sessionKeyGenerate id session.algorithm.algorithm session.maxBlockSizeLog.toNat) := by
    simp only [downlinkSessionKey, server]
  rw [cryptoDownlinkStart_saead session replayed keys id parsed, keyed]
  by_cases isNumbered : id.isServerSequential = true
  · obtain ⟨flag, seqnum⟩ := numbered isNumbered
    have refused : isValidDownlink state id session.algorithm.algorithm = false := by
      simp only [isValidDownlink, state, flag, if_true, isNumbered, Bool.true_and, seqnum]
      split_ifs <;> simp
    simp [refused, isNumbered]
  by_cases mismatch : state.downlink.flags.valid = true ∧
      state.downlink.algorithm ≠ session.algorithm.algorithm
  · have refused : isValidDownlink state id session.algorithm.algorithm = false := by
      simp only [isValidDownlink, mismatch.1, if_true]
      exact if_pos ⟨current, mismatch.2⟩
    simp [refused, mismatch]
  · have taken : isValidDownlink state id session.algorithm.algorithm = true := by
      simp only [isValidDownlink, isNumbered, Bool.false_and, Bool.not_false]
      split_ifs with flag differs
      · exact absurd ⟨flag, differs.2⟩ mismatch
      · rfl
      · rfl
    rw [taken]
    simp only [if_true, isNumbered, mismatch, Bool.false_eq_true, false_or]
    cases keys.sessionKeyGenerate id session.algorithm.algorithm session.maxBlockSizeLog.toNat <;>
      simp

end Runs

def lenientKeys : KeySource Unit := ⟨fun _ _ _ => some (), some⟩

def lenientOpen : PsaAead Unit := fun call => some (call.input.take (call.input.length - 16))

def pouchSession (id : SessionIdInfo) : SessionInfo := ⟨id, .server, .aesGcm, 9⟩

def receivePouch (id : SessionIdInfo) (pouchId : UInt16) : List (SaeadOp Unit) :=
  [.downlinkStart (.saead (pouchSession id) pouchId) lenientKeys,
    .decryptBlock (PouchBuf.ofList (putBe16 17 ++ List.replicate 17 0)) (some fun _ => 0) lenientOpen]

theorem numbered_pouch_refused :
    (cryptoDownlinkStart (defaultConfig .saead)
      (History.run (saeadStep (defaultConfig .saead)) ⟨.boot, []⟩
        (receivePouch (.sequential (List.replicate 8 0) 5) 7)).state
      (.saead (pouchSession (.sequential (List.replicate 8 0) 5)) 7) lenientKeys).1 ≠ none :=
  (pouch_replay_refused_iff (defaultConfig .saead) (receivePouch (.sequential (List.replicate 8 0) 5) 7)
    ⟨.server, .sequential (Bytes.zero 8) 5⟩ 7 rfl ⟨_, [], rfl, by simp⟩
    (pouchSession (.sequential (List.replicate 8 0) 5)) rfl 7 lenientKeys).mpr (.inl rfl)

-- A session with a random ID is, and with it the pouch that has just been received.
theorem random_pouch_replayed :
    let received := History.run (saeadStep (defaultConfig .saead)) ⟨.boot, []⟩
      (receivePouch (.random (List.replicate 16 0)) 7)
    SeenSince ⟨.server, .random (Bytes.zero 16)⟩ 7 received.log ∧
      sessionIdOf (pouchSession (.random (List.replicate 16 0))) =
        some ⟨.server, .random (Bytes.zero 16)⟩ ∧
      (cryptoDownlinkStart (defaultConfig .saead) received.state
        (.saead (pouchSession (.random (List.replicate 16 0))) 7) lenientKeys).1 = none := by
  refine ⟨⟨_, [], rfl, by simp⟩, rfl, ?_⟩
  decide +kernel

end Pouch
