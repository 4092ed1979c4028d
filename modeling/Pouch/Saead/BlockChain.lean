import Pouch.Saead.Session
import Pouch.Shared.History

set_option autoImplicit false

namespace Pouch

open ByteMemory

/-- An AEAD: the ciphertext is followed by a tag of 16 bytes, and decryption inverts encryption
under the same key, nonce and additional data. -/
structure Aead (Key : Type) where
  encrypt : AeadCall Key → List UInt8
  decrypt : PsaAead Key
  tagged : ∀ call : AeadCall Key, (encrypt call).length = call.input.length + 16
  inverts : ∀ call : AeadCall Key, decrypt { call with input := encrypt call } = some call.input

structure FramedBlock where
  payload : List UInt8
  field : payload.length < 65536

def FramedBlock.contents (block : FramedBlock) : List UInt8 :=
  putBe16 block.payload.length ++ block.payload

variable {Key : Type}

def Aead.tag (aead : Aead Key) (call : AeadCall Key) : List UInt8 :=
  (aead.encrypt call).drop call.input.length

theorem Aead.tag_length (aead : Aead Key) (call : AeadCall Key) : (aead.tag call).length = 16 := by
  rw [tag, List.length_drop, aead.tagged, Nat.add_sub_cancel_left]

/-- The two ends of a pouch: same key, algorithm and pouch, and the same place in the chain. The
additional data of the first block is empty, whatever is left over in the session. -/
structure InStep (first second : Session Key) : Prop where
  key : first.key = second.key
  algorithm : first.algorithm = second.algorithm
  pouch : first.pouch.id = second.pouch.id
  index : first.pouch.blockIndex = second.pouch.blockIndex
  ad : 0 < first.pouch.blockIndex → first.pouch.ad = second.pouch.ad

namespace InStep

variable {first second : Session Key}

theorem aeadCall (inStep : InStep first second) (sender : PouchRole) (key : Key)
    (input : List UInt8) : first.aeadCall sender key input = second.aeadCall sender key input := by
  have ads : first.adArgument = second.adArgument := by
    simp only [Session.adArgument, ← inStep.index]
    split_ifs with later
    · rw [inStep.ad later]
    · rfl
  simp only [Session.aeadCall, ads, nonceGenerate]
  rw [inStep.algorithm, inStep.pouch, inStep.index]

theorem advance (inStep : InStep first second) (tag : List UInt8) (length : tag.length = 16) :
    InStep (first.advance tag) (second.advance tag).markValid ∧
      (first.advance tag).pouch.ad = (second.advance tag).markValid.pouch.ad := by
  have ads : first.pouch.ad.overwrite tag = second.pouch.ad.overwrite tag := by
    apply Subtype.ext
    rw [Bytes.overwrite_all _ _ length, Bytes.overwrite_all _ _ length]
  refine ⟨⟨inStep.key, inStep.algorithm, inStep.pouch, ?_, fun _ => ads⟩, ads⟩
  simp only [Session.advance, Session.markValid, inStep.index]

end InStep

structure SealAttempt (cfg : Config) where
  block : FramedBlock
  nonempty : 1 ≤ block.payload.length
  within : block.payload.length ≤ cfg.maxPlaintextBlockSize - 2
  malloc : Option Memory
  psaFails : Bool

namespace SealAttempt

variable {cfg : Config}

def psa (attempt : SealAttempt cfg) (aead : Aead Key) : PsaAead Key := fun call =>
  if attempt.psaFails then none else some (aead.encrypt call)

def Succeeds (attempt : SealAttempt cfg) : Prop :=
  attempt.malloc.isSome = true ∧ attempt.psaFails = false

end SealAttempt

structure Link (Key : Type) where
  sender : Session Key
  receiver : Session Key

structure Transfer where
  sent : FramedBlock
  received : Option PouchBuf
  sender : SessionPouch
  receiver : SessionPouch

def Transfer.Faithful (transfer : Transfer) : Prop :=
  transfer.received.map PouchBuf.contents = some transfer.sent.contents ∧
    transfer.sender.blockIndex = transfer.receiver.blockIndex ∧
    transfer.sender.ad = transfer.receiver.ad

section Link

variable (cfg : Config) (aead : Aead Key) (role : PouchRole)

-- The output of the encryption goes straight to a receiver that expects the sender's role.
def linkStep (link : Link Key) (attempt : SealAttempt cfg) : Link Key × List Transfer :=
  let outcome := sealBlock cfg role attempt.malloc (attempt.psa aead) link.sender
    (PouchBuf.ofList attempt.block.contents)
  match outcome.block with
  | none => ({ link with sender := outcome.session }, [])
  | some buf =>
    let opened := openBlock cfg role (some fun _ => 0) aead.decrypt link.receiver buf
    (⟨outcome.session, opened.session⟩,
      [⟨attempt.block, opened.block, outcome.session.pouch, opened.session.pouch⟩])

variable {cfg} {link : Link Key} {attempt : SealAttempt cfg}

theorem linkStep_fails (fails : ¬ attempt.Succeeds) :
    linkStep cfg aead role link attempt = (link, []) := by
  have unsealed : (sealBlock cfg role attempt.malloc (attempt.psa aead) link.sender
      (PouchBuf.ofList attempt.block.contents)).session = link.sender ∧
      (sealBlock cfg role attempt.malloc (attempt.psa aead) link.sender
        (PouchBuf.ofList attempt.block.contents)).block = none := by
    cases allocated : attempt.malloc with
    | none => exact ⟨rfl, rfl⟩
    | some memory =>
      have psaFails : attempt.psaFails = true := by
        by_contra works
        exact fails ⟨by rw [allocated]; rfl, Bool.eq_false_iff.mpr works⟩
      rcases sealBlock_cases _ rfl with ⟨same, failed, _⟩ | ⟨key, input, output, buf, _, called, _⟩
      · exact ⟨same, failed⟩
      · simp [SealAttempt.psa, psaFails] at called
  simp only [linkStep, unsealed]

theorem linkStep_sealed (key : Key) (held : link.sender.key = some key)
    (succeeds : attempt.Succeeds) :
    let call := link.sender.aeadCall role key attempt.block.payload
    let sender := link.sender.advance (aead.tag call)
    ∃ buf, buf.contents = putBe16 (aead.encrypt call).length ++ aead.encrypt call ∧
      let opened := openBlock cfg role (some fun _ => 0) aead.decrypt link.receiver buf
      linkStep cfg aead role link attempt = (⟨sender, opened.session⟩,
        [⟨attempt.block, opened.block, sender.pouch, opened.session.pouch⟩]) := by
  intro call sender
  obtain ⟨allocated, works⟩ := succeeds
  obtain ⟨memory, isMemory⟩ := Option.isSome_iff_exists.mp allocated
  have called : attempt.psa aead call = some (aead.encrypt call) := by
    simp [SealAttempt.psa, works]
  obtain ⟨buf, sealed', contents⟩ := sealBlock_framed cfg memory attempt.block.payload
    (aead.encrypt call) key attempt.block.field (PouchBuf.ofList_contents attempt.block.contents)
    held called (aead.tagged call)
  refine ⟨buf, contents, ?_⟩
  simp only [linkStep, isMemory, sealed']
  rfl

theorem linkStep_delivers (key : Key) (held : link.sender.key = some key)
    (inStep : InStep link.sender link.receiver) (succeeds : attempt.Succeeds)
    (short : attempt.block.payload.length ≤ 65519) :
    ∃ transfer, (linkStep cfg aead role link attempt).2 = [transfer] ∧ transfer.Faithful ∧
      InStep (linkStep cfg aead role link attempt).1.sender
        (linkStep cfg aead role link attempt).1.receiver := by
  obtain ⟨buf, contents, stepped⟩ := linkStep_sealed aead role key held succeeds
  let call := link.sender.aeadCall role key attempt.block.payload
  have tagged := aead.tagged call
  have payload : call.input = attempt.block.payload := rfl
  rw [payload] at tagged
  have nonempty := attempt.nonempty
  have decrypted : aead.decrypt (link.receiver.aeadCall role key (aead.encrypt call)) =
      some attempt.block.payload := by
    rw [← inStep.aeadCall role key]
    exact aead.inverts call
  obtain ⟨out, opened, plaintext⟩ := openBlock_framed cfg (fun _ => 0) (aead.encrypt call)
    attempt.block.payload key (by omega) (by omega) contents (inStep.key.symm.trans held) decrypted
    (by omega)
  obtain ⟨nextStep, sameAd⟩ := inStep.advance (aead.tag call) (aead.tag_length call)
  rw [stepped, opened]
  refine ⟨_, rfl, ⟨?_, nextStep.index, sameAd⟩, nextStep⟩
  exact congrArg some plaintext

theorem linkStep_truncates (key : Key) (held : link.sender.key = some key)
    (succeeds : attempt.Succeeds) (long : 65519 < attempt.block.payload.length) :
    ∃ transfer ∈ (linkStep cfg aead role link attempt).2, ¬ transfer.Faithful := by
  obtain ⟨buf, contents, stepped⟩ := linkStep_sealed aead role key held succeeds
  have tagged : (aead.encrypt (link.sender.aeadCall role key attempt.block.payload)).length =
      attempt.block.payload.length + 16 := aead.tagged _
  have field := attempt.block.field
  have handed := Handed.of_contents cfg _ _ contents (by omega)
  have rejected := openBlock_mismatch cfg role (some fun _ => 0) aead.decrypt link.receiver _ _
    handed.fits contents (by omega)
  rw [stepped, rejected]
  refine ⟨_, List.mem_singleton_self _, ?_⟩
  rintro ⟨received, _⟩
  simp at received

theorem linkStep_key (key : Key) (held : link.sender.key = some key) :
    (linkStep cfg aead role link attempt).1.sender.key = some key := by
  by_cases succeeds : attempt.Succeeds
  · obtain ⟨buf, _, stepped⟩ := linkStep_sealed aead role key held succeeds
    rw [stepped]
    exact held
  · rw [linkStep_fails aead role succeeds]
    exact held

structure Paired (first second : Session Key) (key : Key) : Prop where
  firstKey : first.key = some key
  secondKey : second.key = some key
  algorithm : first.algorithm = second.algorithm
  firstActive : first.flags.active = true
  secondActive : second.flags.active = true

theorem Paired.pouchStart {first second : Session Key} {key : Key} (paired : Paired first second key)
    (pouchId : UInt16) :
    (sessionPouchStart first pouchId).2.key = some key ∧
      InStep (sessionPouchStart first pouchId).2 (sessionPouchStart second pouchId).2 := by
  simp only [sessionPouchStart, paired.firstActive, paired.secondActive, if_true]
  refine ⟨paired.firstKey, ⟨paired.firstKey.trans paired.secondKey.symm, paired.algorithm, rfl, rfl, ?_⟩⟩
  exact fun later => absurd later (UInt32.lt_irrefl 0)

structure LinkInvariant (key : Key) (history : History (Link Key) Transfer) : Prop where
  held : history.state.sender.key = some key
  inStep : InStep history.state.sender history.state.receiver
  faithful : ∀ transfer ∈ history.log, transfer.Faithful

theorem LinkInvariant.step {key : Key} {history : History (Link Key) Transfer}
    (invariant : LinkInvariant key history)
    (short : attempt.Succeeds → attempt.block.payload.length ≤ 65519) :
    LinkInvariant key (history.record (linkStep cfg aead role) attempt) := by
  by_cases succeeds : attempt.Succeeds
  · obtain ⟨transfer, reported, arrived, next⟩ :=
      linkStep_delivers aead role key invariant.held invariant.inStep succeeds (short succeeds)
    refine ⟨linkStep_key aead role key invariant.held, next, ?_⟩
    simp only [History.record, reported, List.mem_append, List.mem_singleton]
    rintro other (old | rfl)
    · exact invariant.faithful other old
    · exact arrived
  · simp only [History.record, linkStep_fails aead role succeeds, List.append_nil]
    exact invariant

theorem linkRun_truncates (key : Key) (start : Link Key) (held : start.sender.key = some key)
    (attempts : List (SealAttempt cfg)) (member : attempt ∈ attempts) (succeeds : attempt.Succeeds)
    (long : 65519 < attempt.block.payload.length) :
    ∃ transfer ∈ (History.run (linkStep cfg aead role) ⟨start, []⟩ attempts).log,
      ¬ transfer.Faithful := by
  obtain ⟨before, after, rfl⟩ := List.append_of_mem member
  have keyed : (History.run (linkStep cfg aead role) ⟨start, []⟩ before).state.sender.key =
      some key := by
    apply History.run_invariant (linkStep cfg aead role) (fun _ _ => True)
      (fun history => history.state.sender.key = some key) ⟨start, []⟩ before held
    · exact History.meets_of_forall _ _ _ _ fun _ _ _ => trivial
    · exact fun reached op _ holds => linkStep_key aead role key holds
  obtain ⟨transfer, reported, broken⟩ := linkStep_truncates aead role key keyed succeeds long
  refine ⟨transfer, ?_, broken⟩
  rw [History.run_append, History.run_cons]
  obtain ⟨more, extended⟩ := History.log_prefix (linkStep cfg aead role)
    ((History.run (linkStep cfg aead role) ⟨start, []⟩ before).record (linkStep cfg aead role) attempt)
    after
  rw [← extended]
  exact List.mem_append_left _ (List.mem_append_right _ reported)

/-- Every block that was encrypted arrives, and both ends stay in step, exactly when the size field
of each of them has room for the tag. -/
theorem blocks_in_step_iff (first second : Session Key) (key : Key) (paired : Paired first second key)
    (pouchId : UInt16) (attempts : List (SealAttempt cfg)) :
    (∀ transfer ∈ (History.run (linkStep cfg aead role)
        ⟨⟨(sessionPouchStart first pouchId).2, (sessionPouchStart second pouchId).2⟩, []⟩ attempts).log,
      transfer.Faithful) ↔
      ∀ attempt ∈ attempts, attempt.Succeeds → attempt.block.payload.length ≤ 65519 := by
  obtain ⟨held, inStep⟩ := paired.pouchStart pouchId
  constructor
  · intro faithful attempt member succeeds
    by_contra long
    obtain ⟨transfer, reported, broken⟩ := linkRun_truncates aead role key
      ⟨(sessionPouchStart first pouchId).2, (sessionPouchStart second pouchId).2⟩ held attempts member
      succeeds (Nat.not_le.mp long)
    exact broken (faithful transfer reported)
  · intro short
    have invariant : LinkInvariant key (History.run (linkStep cfg aead role)
        ⟨⟨(sessionPouchStart first pouchId).2, (sessionPouchStart second pouchId).2⟩, []⟩ attempts) := by
      apply History.run_invariant (linkStep cfg aead role)
        (fun _ attempt => attempt.Succeeds → attempt.block.payload.length ≤ 65519)
      · exact ⟨held, inStep, by simp⟩
      · exact History.meets_of_forall _ _ _ _ fun _ attempt member => short attempt member
      · exact fun reached attempt fits holds => holds.step aead role fits
    exact invariant.faithful

end Link

-- The tag is the nonce, filled up with zeros.
def nonceTag (nonce : List UInt8) : List UInt8 := (nonce ++ List.replicate 16 0).take 16

theorem nonceTag_length (nonce : List UInt8) : (nonceTag nonce).length = 16 := by
  simp only [nonceTag, List.length_take, List.length_append, List.length_replicate]
  omega

def nonceAead : Aead Unit where
  encrypt call := call.input ++ nonceTag call.nonce
  decrypt call :=
    let plaintext := call.input.take (call.input.length - 16)
    if call.input = plaintext ++ nonceTag call.nonce then some plaintext else none
  tagged call := by rw [List.length_append, nonceTag_length]
  inverts call := by
    have plaintext : (call.input ++ nonceTag call.nonce).take
        ((call.input ++ nonceTag call.nonce).length - 16) = call.input := by
      apply List.take_left'
      rw [List.length_append, nonceTag_length, Nat.add_sub_cancel]
    simp only [plaintext, if_true]

def pairedSession : Session Unit where
  id := ⟨.server, .random (Bytes.zero 16)⟩
  flags := ⟨true, true, false⟩
  algorithm := .gcm
  key := some ()
  pouch := ⟨0, 0, Bytes.zero 16⟩

theorem pairedSession_paired : Paired pairedSession pairedSession () := ⟨rfl, rfl, rfl, rfl, rfl⟩

def shortAttempt : SealAttempt (defaultConfig .saead) where
  block := ⟨[0xc0, 1, 2], by decide⟩
  nonempty := by decide
  within := by decide
  malloc := some fun _ => 0
  psaFails := false

theorem short_blocks_in_step :
    let run := History.run (linkStep (defaultConfig .saead) nonceAead .device)
      ⟨⟨(sessionPouchStart pairedSession 1).2, (sessionPouchStart pairedSession 1).2⟩, []⟩
      [shortAttempt, { shortAttempt with psaFails := true }, shortAttempt]
    run.log.length = 2 ∧ ∀ transfer ∈ run.log, transfer.Faithful := by
  refine ⟨by decide +kernel, ?_⟩
  apply (blocks_in_step_iff nonceAead .device pairedSession pairedSession () pairedSession_paired 1 _).mpr
  intro attempt member _
  have same : attempt.block = shortAttempt.block := by
    simp only [List.mem_cons, List.not_mem_nil, or_false] at member
    rcases member with rfl | rfl | rfl <;> rfl
  rw [same]
  decide

-- Kconfig sets no limit to the block size.
def wideConfig : Config :=
  { defaultConfig .saead with
    blockSize := 65536
    blockSizePositive := by decide
    blockSizeInt := by decide }

def wideAttempt : SealAttempt wideConfig where
  block := ⟨List.replicate 65520 0, by rw [List.length_replicate]; decide⟩
  nonempty := by
    rw [List.length_replicate]
    decide
  within := by
    rw [List.length_replicate]
    decide
  malloc := some fun _ => 0
  psaFails := false

-- A block of 65520 bytes does not come through: with its tag it is 2 to the 16 bytes long.
theorem wide_block_lost :
    ¬ ∀ transfer ∈ (History.run (linkStep wideConfig nonceAead .device)
        ⟨⟨(sessionPouchStart pairedSession 1).2, (sessionPouchStart pairedSession 1).2⟩, []⟩
        [wideAttempt]).log, transfer.Faithful := by
  intro faithful
  have length : wideAttempt.block.payload.length = 65520 := List.length_replicate
  obtain ⟨transfer, reported, broken⟩ := linkRun_truncates nonceAead .device ()
    ⟨(sessionPouchStart pairedSession 1).2, (sessionPouchStart pairedSession 1).2⟩ rfl [wideAttempt]
    (List.mem_singleton_self _) ⟨rfl, rfl⟩ (by omega)
  exact broken (faithful transfer reported)

end Pouch
