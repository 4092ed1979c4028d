import Pouch.Saead.PouchReplay
import Pouch.Saead.SessionKeys

set_option autoImplicit false

/-!
# Downlink headers

Which headers of the current session are taken, and what is left behind by those that are not.
-/

namespace Pouch

open ByteMemory

section FollowUps

variable {Key : Type} (cfg : Config)

def NumberOnRecord (state : Saead Key) : Prop :=
  state.downlink.flags.valid = true → state.downlink.id.isServerSequential = true →
    state.server.seqnum = state.downlink.id.seqnum

theorem NumberOnRecord.kept {state next : Saead Key} (onRecord : NumberOnRecord state)
    (sameId : next.downlink.id = state.downlink.id)
    (sameValid : next.downlink.flags.valid = state.downlink.flags.valid)
    (sameSeqnum : next.server.seqnum = state.server.seqnum) : NumberOnRecord next := by
  unfold NumberOnRecord at onRecord ⊢
  rw [sameId, sameValid, sameSeqnum]
  exact onRecord

theorem saeadStep_onRecord (state : Saead Key) (op : SaeadOp Key) (onRecord : NumberOnRecord state) :
    NumberOnRecord (saeadStep cfg state op).1 := by
  cases op with
  | sessionStart algorithm random keys => exact onRecord.kept rfl rfl rfl
  | pouchStart => exact onRecord.kept rfl rfl rfl
  | encryptBlock block malloc psa => exact onRecord.kept rfl rfl rfl
  | downlinkStart info keys =>
    simp only [saeadStep]
    rcases cryptoDownlinkStart_cases cfg state info keys with
      ⟨err, refused⟩ | ⟨session, pouchId, id, key, rfl, parsed, valid, accepted⟩
    · rw [refused]
      exact onRecord
    · rw [accepted]
      intro flag
      exact absurd flag Bool.false_ne_true
  | decryptBlock block malloc psa =>
    simp only [saeadStep]
    rcases downlinkBlockDecrypt_cases cfg state block malloc psa with
      failed | ⟨buf, next, opened, sameId, _, valid, seqnum⟩
    · rw [failed]
      exact onRecord
    · rw [opened]
      intro _ numbered
      rw [sameId] at numbered ⊢
      rw [seqnum, if_pos numbered]
  | sessionEnd => exact onRecord.kept sessionEnd_id sessionEnd_valid rfl

theorem run_onRecord (ops : List (SaeadOp Key)) :
    NumberOnRecord (History.run (saeadStep cfg) ⟨.boot, []⟩ ops).state := by
  apply History.run_invariant (saeadStep cfg) (fun _ _ => True) (fun reached => NumberOnRecord reached.state)
  · intro flag
    exact absurd flag Bool.false_ne_true
  · exact History.meets_of_forall _ _ _ _ fun _ _ _ => trivial
  · intro reached op _ onRecord
    exact saeadStep_onRecord cfg reached.state op onRecord

/-- A header that announces a later pouch of the current downlink session: it names the session by its
ID and its algorithm. -/
structure FollowUp (history : History (Saead Key) (SaeadEvent Key)) (id : SessionId)
    (pouchId later : UInt16) (session : SessionInfo) : Prop where
  server : id.initiator = .server
  decrypted : .decrypted id pouchId ∈ history.log
  current : history.state.downlink.id = id
  sameId : sessionIdOf session = some id
  sameAlgorithm : session.algorithm.algorithm = history.state.downlink.algorithm
  isLater : pouchId < later

/-- The number of a session is compared as if the session were a new one: while SESSION_VALID is set, a
follow-up of a numbered session has an old number. -/
theorem follow_up_accepted_iff (ops : List (SaeadOp Key)) (id : SessionId) (pouchId later : UInt16)
    (session : SessionInfo)
    (followUp : FollowUp (History.run (saeadStep cfg) ⟨.boot, []⟩ ops) id pouchId later session)
    (keys : KeySource Key)
    (derived : (keys.sessionKeyGenerate id session.algorithm.algorithm
      session.maxBlockSizeLog.toNat).isSome = true) :
    let state := (History.run (saeadStep cfg) ⟨.boot, []⟩ ops).state
    (cryptoDownlinkStart cfg state (.saead session later) keys).1 = none ↔
      id.isServerSequential = false ∨ state.downlink.flags.valid = false := by
  intro state
  obtain ⟨key, derives⟩ := Option.isSome_iff_exists.mp derived
  have keyed : downlinkSessionKey cfg state id session.algorithm.algorithm session.maxBlockSizeLog keys =
      .ok (some key) := by
    simp only [downlinkSessionKey, followUp.server, derives]
  have matching : ¬ state.downlink.algorithm ≠ session.algorithm.algorithm :=
    not_not.mpr followUp.sameAlgorithm.symm
  have decided : (cryptoDownlinkStart cfg state (.saead session later) keys).1 = none ↔
      isValidDownlink state id session.algorithm.algorithm = true := by
    rw [cryptoDownlinkStart_saead session later keys id followUp.sameId, keyed]
    split_ifs with valid
    · simp [valid]
    · simp [valid]
  rw [decided]
  cases flag : state.downlink.flags.valid with
  | false => simp [isValidDownlink, flag]
  | true =>
    simp only [isValidDownlink, flag, if_true, matching, and_false, if_false]
    cases numbered : id.isServerSequential with
    | false => simp
    | true =>
      have onRecord : state.server.seqnum = id.seqnum := by
        have known := run_onRecord cfg ops flag
        rw [followUp.current] at known
        exact known numbered
      simp [onRecord]

end FollowUps

theorem random_session_continues :
    (cryptoDownlinkStart (defaultConfig .saead)
      (History.run (saeadStep (defaultConfig .saead)) ⟨.boot, []⟩
        (receivePouch (.random (List.replicate 16 0)) 7)).state
      (.saead (pouchSession (.random (List.replicate 16 0))) 8) lenientKeys).1 = none :=
  (follow_up_accepted_iff (defaultConfig .saead) (receivePouch (.random (List.replicate 16 0)) 7)
    ⟨.server, .random (Bytes.zero 16)⟩ 7 8 (pouchSession (.random (List.replicate 16 0)))
    ⟨rfl, List.mem_of_getElem? (i := 1) rfl, rfl, rfl, rfl, by decide⟩ lenientKeys rfl).mpr (.inl rfl)

theorem numbered_session_stops :
    let id : SessionId := ⟨.server, .sequential (Bytes.zero 8) 5⟩
    let session := pouchSession (.sequential (List.replicate 8 0) 5)
    let received := History.run (saeadStep (defaultConfig .saead)) ⟨.boot, []⟩
      (receivePouch (.sequential (List.replicate 8 0) 5) 7)
    FollowUp received id 7 8 session ∧
      (lenientKeys.sessionKeyGenerate id session.algorithm.algorithm
        session.maxBlockSizeLog.toNat).isSome = true ∧
      (cryptoDownlinkStart (defaultConfig .saead) received.state (.saead session 8) lenientKeys).1 =
        some .ebadmsg := by
  refine ⟨⟨rfl, List.mem_of_getElem? (i := 1) rfl, rfl, rfl, rfl, by decide⟩, rfl, ?_⟩
  decide +kernel

section Refused

variable {cfg : Config}

theorem downlinkKeyCreated_of_refused {saead : Saead Nat} {info : EncryptionInfo} {keys : KeySource Nat}
    (refused : (cryptoDownlinkStart cfg saead info keys).1 ≠ none) :
    downlinkKeyCreated cfg saead info keys = none := by
  cases created : downlinkKeyCreated cfg saead info keys with
  | none => rfl
  | some key =>
    obtain ⟨session, pouchId, id, rfl, parsed, valid, made⟩ := downlinkKeyCreated_eq_some.mp created
    rw [cryptoDownlinkStart_saead session pouchId keys id parsed, if_pos valid, made] at refused
    exact absurd rfl refused

theorem keyStep_refused (ring : Keyring) (info : EncryptionInfo) (derives copies : Bool)
    (refused : (cryptoDownlinkStart cfg ring.saead info
      (freshKeys ring.keys.next derives copies)).1 ≠ none) :
    (keyStep cfg ring (.downlinkStart info derives copies)).1 = ring := by
  have uncreated := downlinkKeyCreated_of_refused refused
  have unchanged := cryptoDownlinkStart_created cfg ring.saead info (freshKeys ring.keys.next derives copies)
  rw [uncreated] at unchanged
  simp only [keyStep, KeyOp.call, saeadStep, keysAfter, keysWith, uncreated, unchanged]
  rfl

end Refused

/-- A header that is refused leaves the downlink session, the replay record and the live keys as they
were. -/
theorem refused_header_changes_nothing (cfg : Config) (ops : List KeyOp) (info : EncryptionInfo)
    (derives copies : Bool)
    (refused :
      let ring := (History.run (keyStep cfg) ⟨.boot, []⟩ ops).state
      (cryptoDownlinkStart cfg ring.saead info (freshKeys ring.keys.next derives copies)).1 ≠ none) :
    let ring := (History.run (keyStep cfg) ⟨.boot, []⟩ ops).state
    let next := (keyStep cfg ring (.downlinkStart info derives copies)).1
    next.saead.downlink = ring.saead.downlink ∧ next.saead.server = ring.saead.server ∧
      next.keys.live = ring.keys.live := by
  intro ring next
  have same : next = ring := keyStep_refused ring info derives copies refused
  rw [same]
  exact ⟨rfl, rfl, rfl⟩

theorem replayed_header_changes_nothing :
    let header : EncryptionInfo := .saead (pouchSession (.sequential (List.replicate 8 0) 5)) 7
    let block := PouchBuf.ofList (putBe16 17 ++ List.replicate 17 0)
    let ring := (History.run (keyStep (defaultConfig .saead)) ⟨.boot, []⟩
      [.downlinkStart header true false,
        .decryptBlock block (some fun _ => 0) fun call => some (call.input.take 1)]).state
    let next := (keyStep (defaultConfig .saead) ring (.downlinkStart header true false)).1
    ring.saead.downlink.flags.valid = true ∧
      next.saead.downlink = ring.saead.downlink ∧ next.saead.server = ring.saead.server ∧
      next.keys.live = ring.keys.live :=
  ⟨by decide +kernel,
    refused_header_changes_nothing (defaultConfig .saead) _ _ true false (by decide +kernel)⟩

end Pouch
