import Pouch.Saead.State

set_option autoImplicit false

namespace Pouch

open ByteMemory

def serverSessions {Key : Type} (log : List (SaeadEvent Key)) : List SessionId :=
  log.filterMap fun
    | .decrypted id _ => if id.isServerSequential then some id else none
    | _ => none

def Superseded (first second : SessionId) : Prop := first ≠ second → first.seqnum < second.seqnum

instance (first second : SessionId) : Decidable (Superseded first second) :=
  inferInstanceAs (Decidable (first ≠ second → first.seqnum < second.seqnum))

theorem exists_getLast? {α : Type} {entries : List α} (nonempty : entries ≠ []) :
    ∃ last, last ∈ entries.getLast? :=
  ⟨_, List.getLast?_eq_some_getLast nonempty⟩

section Runs

variable {Key : Type} (cfg : Config)

@[simp] theorem serverSessions_append (first second : List (SaeadEvent Key)) :
    serverSessions (first ++ second) = serverSessions first ++ serverSessions second :=
  List.filterMap_append

/-- The sequence number of a header is looked at only while SESSION_VALID is set. When it is clear
although a numbered session has been seen, the number must still be new. -/
def SeqnumChecked (history : History (Saead Key) (SaeadEvent Key)) : SaeadOp Key → Prop
  | .downlinkStart (.saead session _) _ =>
    ∀ id, sessionIdOf session = some id → id.isServerSequential = true →
      history.state.downlink.flags.valid = false →
      ∀ last ∈ (serverSessions history.log).getLast?,
        id = last ∨ history.state.server.seqnum < id.seqnum
  | _ => True

structure ReplayInvariant (history : History (Saead Key) (SaeadEvent Key)) : Prop where
  ordered : (serverSessions history.log).Pairwise Superseded
  highest : ∀ last ∈ (serverSessions history.log).getLast?,
    history.state.server.seqnum = last.seqnum ∧ ∀ id ∈ serverSessions history.log, Superseded id last
  current : history.state.downlink.id.isServerSequential = true →
    ∀ last ∈ (serverSessions history.log).getLast?,
      history.state.downlink.id = last ∨ history.state.server.seqnum < history.state.downlink.id.seqnum

variable {history : History (Saead Key) (SaeadEvent Key)}

theorem ReplayInvariant.silent (invariant : ReplayInvariant history) (next : Saead Key)
    (events : List (SaeadEvent Key)) (quiet : serverSessions events = [])
    (seen : next.server.seqnum = history.state.server.seqnum)
    (current : next.downlink.id.isServerSequential = true →
      ∀ last ∈ (serverSessions history.log).getLast?,
        next.downlink.id = last ∨ history.state.server.seqnum < next.downlink.id.seqnum) :
    ReplayInvariant ⟨next, history.log ++ events⟩ := by
  have same : serverSessions (history.log ++ events) = serverSessions history.log := by simp [quiet]
  constructor
  · rw [same]
    exact invariant.ordered
  · rw [same, seen]
    exact invariant.highest
  · rw [same, seen]
    exact current

theorem ReplayInvariant.downlinkStart (invariant : ReplayInvariant history) (info : EncryptionInfo)
    (keys : KeySource Key) (checked : SeqnumChecked history (.downlinkStart info keys)) :
    ReplayInvariant (history.record (saeadStep cfg) (.downlinkStart info keys)) := by
  simp only [History.record, saeadStep]
  rcases cryptoDownlinkStart_cases cfg history.state info keys with
    ⟨err, refused⟩ | ⟨session, pouchId, id, key, rfl, parsed, valid, accepted⟩
  · rw [refused]
    exact invariant.silent _ _ rfl rfl invariant.current
  · rw [accepted]
    refine invariant.silent _ _ rfl rfl ?_
    intro numbered last isLast
    have newId : id.isServerSequential = true := numbered
    change id = last ∨ history.state.server.seqnum < id.seqnum
    cases flag : history.state.downlink.flags.valid with
    | false => exact checked id parsed newId flag last isLast
    | true =>
      right
      simp only [isValidDownlink, flag, if_true, newId, Bool.true_and] at valid
      split_ifs at valid
      simpa using valid

theorem ReplayInvariant.decryptBlock (invariant : ReplayInvariant history) (block : PouchBuf)
    (malloc : Option Memory) (psa : PsaAead Key) :
    ReplayInvariant (history.record (saeadStep cfg) (.decryptBlock block malloc psa)) := by
  simp only [History.record, saeadStep]
  rcases downlinkBlockDecrypt_cases cfg history.state block malloc psa with
    failed | ⟨buf, next, opened, sameId, _, _, seqnum⟩
  · rw [failed]
    exact invariant.silent _ _ rfl rfl invariant.current
  · rw [opened]
    simp only [Option.isSome_some, if_true]
    by_cases numbered : history.state.downlink.id.isServerSequential = true
    · rw [if_pos numbered] at seqnum
      have grown : serverSessions (history.log ++ [.decrypted next.downlink.id next.downlink.pouch.id]) =
          serverSessions history.log ++ [history.state.downlink.id] := by
        rw [serverSessions_append, sameId]
        simp [serverSessions, numbered]
      -- The session is the latest one once more, or its number is higher than all before.
      have later : ∀ id ∈ serverSessions history.log, Superseded id history.state.downlink.id := by
        intro id member
        obtain ⟨last, isLast⟩ := exists_getLast? (List.ne_nil_of_mem member)
        obtain ⟨highest, below⟩ := invariant.highest last isLast
        rcases invariant.current numbered last isLast with same | above
        · rw [same]
          exact below id member
        · intro _
          rw [highest] at above
          by_cases isLastId : id = last
          · rw [isLastId]
            exact above
          · exact UInt64.lt_trans (below id member isLastId) above
      constructor
      · rw [grown]
        refine List.pairwise_append.mpr ⟨invariant.ordered, List.pairwise_singleton _ _, ?_⟩
        intro id member _ new
        rw [List.mem_singleton.mp new]
        exact later id member
      · rw [grown, List.getLast?_concat]
        rintro last ⟨⟩
        refine ⟨seqnum, ?_⟩
        intro id member
        rcases List.mem_append.mp member with old | new
        · exact later id old
        · intro differs
          exact absurd (List.mem_singleton.mp new) differs
      · intro _
        rw [grown, List.getLast?_concat]
        rintro last ⟨⟩
        exact .inl sameId
    · rw [if_neg numbered] at seqnum
      refine invariant.silent _ _ ?_ seqnum ?_
      · simp [serverSessions, sameId, numbered]
      · intro isNumbered
        rw [sameId] at isNumbered
        exact absurd isNumbered numbered

theorem saeadStep_replay (invariant : ReplayInvariant history) (op : SaeadOp Key)
    (checked : SeqnumChecked history op) : ReplayInvariant (history.record (saeadStep cfg) op) := by
  cases op with
  | sessionStart algorithm random keys =>
    refine invariant.silent _ _ ?_ rfl invariant.current
    simp only [saeadStep]
    split_ifs <;> rfl
  | pouchStart => exact invariant.silent _ _ rfl rfl invariant.current
  | encryptBlock block malloc psa =>
    refine invariant.silent _ _ ?_ rfl invariant.current
    simp only [saeadStep]
    cases (uplinkEncryptBlock cfg malloc psa history.state.uplink block).call <;> rfl
  | downlinkStart info keys => exact invariant.downlinkStart cfg info keys checked
  | decryptBlock block malloc psa => exact invariant.decryptBlock cfg block malloc psa
  | sessionEnd =>
    refine invariant.silent _ _ rfl rfl ?_
    have same : (saeadStep cfg history.state .sessionEnd).1.downlink.id = history.state.downlink.id :=
      sessionEnd_id
    rw [same]
    exact invariant.current

theorem run_replay (ops : List (SaeadOp Key))
    (checked : History.Meets (saeadStep cfg) SeqnumChecked ⟨.boot, []⟩ ops) :
    ReplayInvariant (History.run (saeadStep cfg) ⟨.boot, []⟩ ops) := by
  apply History.run_invariant (saeadStep cfg) SeqnumChecked _ _ ops ?_ checked
  · exact fun reached op isChecked holds => saeadStep_replay cfg holds op isChecked
  · exact ⟨List.Pairwise.nil, by simp [serverSessions], by simp [serverSessions]⟩

/-- With that, a session that was seen makes every other one with a lower number unusable, and the
number that was seen never goes down. -/
theorem seqnum_replay_protection (ops : List (SaeadOp Key))
    (checked : History.Meets (saeadStep cfg) SeqnumChecked ⟨.boot, []⟩ ops) :
    (serverSessions (History.run (saeadStep cfg) ⟨.boot, []⟩ ops).log).Pairwise Superseded ∧
      ∀ first second, ops = first ++ second →
        serverSessions (History.run (saeadStep cfg) ⟨.boot, []⟩ first).log ≠ [] →
        (History.run (saeadStep cfg) ⟨.boot, []⟩ first).state.server.seqnum ≤
          (History.run (saeadStep cfg) ⟨.boot, []⟩ ops).state.server.seqnum := by
  have final := run_replay cfg ops checked
  refine ⟨final.ordered, ?_⟩
  rintro first second rfl seen
  have early := run_replay cfg first ((History.meets_append _ _ _ _ _).mp checked).1
  obtain ⟨before, isBefore⟩ := exists_getLast? seen
  have kept : before ∈ serverSessions
      (History.run (saeadStep cfg) ⟨.boot, []⟩ (first ++ second)).log := by
    obtain ⟨more, extended⟩ := History.log_prefix (saeadStep cfg)
      (History.run (saeadStep cfg) ⟨.boot, []⟩ first) second
    rw [History.run_append, ← extended, serverSessions_append]
    exact List.mem_append_left _ (List.mem_of_getLast? isBefore)
  obtain ⟨last, isLast⟩ := exists_getLast? (List.ne_nil_of_mem kept)
  obtain ⟨highest, below⟩ := final.highest last isLast
  rw [(early.highest before isBefore).1, highest]
  by_cases same : before = last
  · rw [same]
    exact UInt64.le_refl _
  · exact UInt64.le_of_lt (below before kept same)

end Runs

def sampleServerKeys : KeySource SessionId := ⟨fun id _ _ => some id, some⟩

def sampleServerSeal (key : SessionId) (plaintext : List UInt8) : List UInt8 :=
  plaintext ++ List.replicate 16 (UInt8.ofNat key.seqnum.toNat)

def sampleServerOpen : PsaAead SessionId := fun call =>
  let plaintext := call.input.take (call.input.length - 16)
  if call.input = sampleServerSeal call.key plaintext then some plaintext else none

def numberedHeader (seqnum : UInt64) : EncryptionInfo :=
  .saead ⟨.sequential (List.replicate 8 0) seqnum, .server, .aesGcm, 9⟩ 1

def numberedId (seqnum : UInt64) : SessionId := ⟨.server, .sequential (Bytes.zero 8) seqnum⟩

def numberedBlock (seqnum : UInt64) : PouchBuf :=
  PouchBuf.ofList (putBe16 17 ++ sampleServerSeal (numberedId seqnum) [0xc0])

def forgedHeader : EncryptionInfo := .saead ⟨.random (List.replicate 16 7), .server, .aesGcm, 9⟩ 1

def receiveSession (seqnum : UInt64) : List (SaeadOp SessionId) :=
  [.downlinkStart (numberedHeader seqnum) sampleServerKeys,
    .decryptBlock (numberedBlock seqnum) (some fun _ => 0) sampleServerOpen]

theorem sessions_in_order :
    (serverSessions (History.run (saeadStep (defaultConfig .saead)) ⟨.boot, []⟩
      (receiveSession 3 ++ receiveSession 5)).log).Pairwise Superseded := by
  refine (seqnum_replay_protection (defaultConfig .saead) (receiveSession 3 ++ receiveSession 5)
    ⟨?_, trivial, ?_, trivial, trivial⟩).1
  · intro id _ _ _ last isLast
    simp [serverSessions] at isLast
  · intro id _ _ clear
    exact absurd clear (by decide +kernel)

-- A header that nobody authenticated makes the device forget that a session was valid. After it
-- the recorded session 3 is taken although session 5 has been seen.
theorem old_session_replayed :
    let ops := receiveSession 5 ++ [.downlinkStart forgedHeader sampleServerKeys] ++ receiveSession 3
    let seen := History.run (saeadStep (defaultConfig .saead)) ⟨.boot, []⟩ (receiveSession 5)
    let final := History.run (saeadStep (defaultConfig .saead)) ⟨.boot, []⟩ ops
    (∀ call plaintext, sampleServerOpen call = some plaintext →
        call.input = sampleServerSeal call.key plaintext) ∧
      serverSessions final.log = [numberedId 5, numberedId 3] ∧
      ¬ (serverSessions final.log).Pairwise Superseded ∧
      ¬ seen.state.server.seqnum ≤ final.state.server.seqnum := by
  refine ⟨?_, by decide +kernel, by decide +kernel, by decide +kernel⟩
  intro call plaintext opened
  simp only [sampleServerOpen] at opened
  split_ifs at opened with genuine
  rw [← Option.some.inj opened]
  exact genuine

end Pouch
