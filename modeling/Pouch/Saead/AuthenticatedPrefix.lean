import Mathlib.Data.List.Nodup
import Pouch.Saead.BlockChain

set_option autoImplicit false

namespace Pouch

open ByteMemory

variable {Key : Type}

structure ReceiveOp where
  block : PouchBuf
  malloc : Option Memory
  psaFails : Bool

section Chain

variable (cfg : Config) (aead : Aead Key)

-- The PSA calls of a server that runs the code of `session.c` under its own role.
def sealRun : Session Key → List FramedBlock → List (AeadCall Key)
  | _, [] => []
  | session, block :: rest =>
    let outcome := sealBlock cfg .server (some fun _ => 0) (fun call => some (aead.encrypt call))
      session (PouchBuf.ofList block.contents)
    outcome.call.toList ++ sealRun outcome.session rest

def receiveStep (session : Session Key) (op : ReceiveOp) : Session Key × List PouchBuf :=
  let psa : PsaAead Key := fun call => if op.psaFails then none else aead.decrypt call
  let outcome := sessionDecryptBlock cfg op.malloc psa session op.block
  (outcome.session, outcome.block.toList)

/-- What is decrypted was encrypted by the server with exactly the key, nonce and additional data
of the receiver. -/
def Authentic (calls : List (AeadCall Key)) (history : History (Session Key) PouchBuf)
    (op : ReceiveOp) : Prop :=
  ∀ key input output, history.state.key = some key →
    op.block.contents = putBe16 input.length ++ input →
    aead.decrypt (history.state.aeadCall .server key input) = some output →
    ∃ made ∈ calls, made = history.state.aeadCall .server key made.input ∧
      input = aead.encrypt made

variable {cfg aead} {key : Key}

theorem sealRun_cons (session : Session Key) (held : session.key = some key) (block : FramedBlock)
    (rest : List FramedBlock) :
    let call := session.aeadCall .server key block.payload
    sealRun cfg aead session (block :: rest) =
      call :: sealRun cfg aead (session.advance (aead.tag call)) rest := by
  intro call
  let psa : PsaAead Key := fun call => some (aead.encrypt call)
  have called : psa call = some (aead.encrypt call) := rfl
  obtain ⟨buf, sealed', _⟩ := sealBlock_framed cfg (fun _ => 0) block.payload (aead.encrypt call) key
    block.field (PouchBuf.ofList_contents block.contents) held called (aead.tagged call)
  rw [sealRun, sealed']
  rfl

theorem adArgument_advance (session : Session Key) (tag : List UInt8) (length : tag.length = 16)
    (room : session.pouch.blockIndex.toNat + 1 < 2 ^ 32) :
    (session.advance tag).adArgument = tag ∧
      (session.advance tag).pouch.blockIndex.toNat = session.pouch.blockIndex.toNat + 1 := by
  have next : (session.pouch.blockIndex + 1).toNat = session.pouch.blockIndex.toNat + 1 := by
    rw [UInt32.toNat_add]
    exact Nat.mod_eq_of_lt room
  refine ⟨?_, next⟩
  have later : 0 < (session.advance tag).pouch.blockIndex := by
    rw [UInt32.lt_iff_toNat_lt]
    change 0 < (session.pouch.blockIndex + 1).toNat
    omega
  rw [Session.adArgument, if_pos later]
  exact Bytes.overwrite_all _ _ length

structure Chained (aead : Aead Key) (first : List UInt8) (calls : List (AeadCall Key)) : Prop where
  head : ∀ call, calls[0]? = some call → call.ad = first
  next : ∀ index call before, calls[index + 1]? = some call → calls[index]? = some before →
    call.ad = aead.tag before

variable (cfg aead) in
theorem sealRun_chained (session : Session Key) (held : session.key = some key)
    (blocks : List FramedBlock) (room : session.pouch.blockIndex.toNat + blocks.length < 2 ^ 32) :
    Chained aead session.adArgument (sealRun cfg aead session blocks) ∧
      (sealRun cfg aead session blocks).map AeadCall.input = blocks.map FramedBlock.payload := by
  induction blocks generalizing session with
  | nil => exact ⟨⟨by simp [sealRun], by simp [sealRun]⟩, rfl⟩
  | cons block rest ih =>
    rw [sealRun_cons session held]
    simp only [List.length_cons] at room
    have tagLength := aead.tag_length (session.aeadCall .server key block.payload)
    obtain ⟨nextAd, nextIndex⟩ := adArgument_advance session _ tagLength (by omega)
    obtain ⟨chained, inputs⟩ := ih (session.advance (aead.tag
      (session.aeadCall .server key block.payload))) held (by omega)
    refine ⟨⟨?_, ?_⟩, congrArg (List.cons block.payload) inputs⟩
    · rintro call ⟨⟩
      rfl
    · intro index call before found previous
      rw [List.getElem?_cons_succ] at found
      cases index with
      | zero =>
        obtain rfl := Option.some.inj previous
        rw [chained.head call found, nextAd]
      | succ index =>
        rw [List.getElem?_cons_succ] at previous
        exact chained.next index call before found previous

def AeadCall.plaintext (call : AeadCall Key) : List UInt8 :=
  putBe16 call.input.length ++ call.input

variable {calls : List (AeadCall Key)}

-- The additional data is never empty but for the first block, and distinct tags tell the others
-- apart.
theorem Chained.position (chained : Chained aead [] calls) (distinct : (calls.map aead.tag).Nodup)
    (made : AeadCall Key) (member : made ∈ calls) :
    (made.ad = [] → calls[0]? = some made) ∧
    ∀ index before, calls[index]? = some before → made.ad = aead.tag before →
      calls[index + 1]? = some made := by
  obtain ⟨place, found⟩ := List.mem_iff_getElem?.mp member
  cases place with
  | zero =>
    refine ⟨fun _ => found, ?_⟩
    intro index before _ chainedTo
    have length := aead.tag_length before
    rw [← chainedTo, chained.head made found] at length
    cases length
  | succ place =>
    obtain ⟨within, _⟩ := List.getElem?_eq_some_iff.mp found
    have previous : calls[place]? = some calls[place] := List.getElem?_eq_getElem (by omega)
    have tagged := chained.next place made _ found previous
    constructor
    · intro empty
      have length := aead.tag_length calls[place]
      rw [← tagged, empty] at length
      cases length
    · intro index before at' chainedTo
      have sameTag : (calls.map aead.tag)[place]? = (calls.map aead.tag)[index]? := by
        rw [List.getElem?_map, List.getElem?_map, previous, at', Option.map_some, Option.map_some,
          ← tagged, chainedTo]
      have inRange : place < (calls.map aead.tag).length := by
        rw [List.length_map]
        omega
      obtain rfl := (List.getElem?_inj inRange distinct).mp sameTag
      exact found

structure PrefixInvariant (aead : Aead Key) (calls : List (AeadCall Key)) (key : Key)
    (history : History (Session Key) PouchBuf) : Prop where
  held : history.state.key = some key
  count : history.log.length ≤ calls.length
  index : history.state.pouch.blockIndex.toNat = history.log.length
  returned : history.log.map PouchBuf.contents =
    (calls.take history.log.length).map AeadCall.plaintext
  ad : ∀ index before, history.log.length = index + 1 → calls[index]? = some before →
    history.state.pouch.ad.val = aead.tag before

namespace PrefixInvariant

variable {history : History (Session Key) PouchBuf}

theorem next (invariant : PrefixInvariant aead calls key history)
    (chained : Chained aead [] calls) (distinct : (calls.map aead.tag).Nodup)
    (made : AeadCall Key) (member : made ∈ calls) (sameAd : made.ad = history.state.adArgument) :
    calls[history.log.length]? = some made := by
  obtain ⟨isFirst, isNext⟩ := chained.position distinct made member
  have index := invariant.index
  cases received : history.log.length with
  | zero =>
    apply isFirst
    have first : ¬ 0 < history.state.pouch.blockIndex := by
      rw [UInt32.lt_iff_toNat_lt, index, received]
      exact Nat.lt_irrefl 0
    rw [sameAd, Session.adArgument, if_neg first]
  | succ count =>
    have within := invariant.count
    have before : calls[count]? = some calls[count] := List.getElem?_eq_getElem (by omega)
    apply isNext count _ before
    have later : 0 < history.state.pouch.blockIndex := by
      rw [UInt32.lt_iff_toNat_lt, index, received]
      exact Nat.succ_pos count
    rw [sameAd, Session.adArgument, if_pos later]
    exact invariant.ad count _ received before

theorem step (invariant : PrefixInvariant aead calls key history)
    (chained : Chained aead [] calls) (distinct : (calls.map aead.tag).Nodup)
    (room : calls.length < 2 ^ 32) (op : ReceiveOp) (handed : Handed cfg op.block)
    (authentic : Authentic aead calls history op) :
    PrefixInvariant aead calls key (history.record (receiveStep cfg aead) op) := by
  let psa : PsaAead Key := fun call => if op.psaFails then none else aead.decrypt call
  rcases openBlock_cases handed (openBlock cfg .server op.malloc psa history.state op.block) rfl with
    ⟨same, rejected⟩ | ⟨key', input, output, buf, held, contents, _, called, _, opened, whole⟩
  · have unchanged : history.record (receiveStep cfg aead) op = history := by
      simp only [History.record, receiveStep, sessionDecryptBlock]
      rw [same, rejected]
      simp
    rw [unchanged]
    exact invariant
  · obtain rfl : key' = key := Option.some.inj (held.symm.trans invariant.held)
    have decrypted : aead.decrypt (history.state.aeadCall .server key' input) = some output := by
      cases fails : op.psaFails with
      | true => simp [psa, fails] at called
      | false => simpa [psa, fails] using called
    obtain ⟨made, member, sameCall, isCiphertext⟩ := authentic key' input output held contents decrypted
    have plaintext : output = made.input := by
      have inverted := aead.inverts made
      have handedCall : ({ made with input := aead.encrypt made } : AeadCall Key) =
          history.state.aeadCall .server key' input := by
        rw [isCiphertext]
        exact congrArg (fun call : AeadCall Key => { call with input := aead.encrypt made }) sameCall
      rw [handedCall, decrypted] at inverted
      exact Option.some.inj inverted
    subst plaintext isCiphertext
    have place := invariant.next chained distinct made member (congrArg AeadCall.ad sameCall)
    obtain ⟨within, found⟩ := List.getElem?_eq_some_iff.mp place
    obtain ⟨nextAd, nextIndex⟩ := adArgument_advance history.state (aead.tag made)
      (aead.tag_length made) (by rw [invariant.index]; omega)
    have recorded : history.record (receiveStep cfg aead) op =
        ⟨(history.state.advance (aead.tag made)).markValid, history.log ++ [buf]⟩ := by
      simp only [History.record, receiveStep, sessionDecryptBlock]
      rw [opened]
      rfl
    rw [recorded]
    have length : (history.log ++ [buf]).length = history.log.length + 1 := List.length_append
    refine ⟨invariant.held, ?_, ?_, ?_, ?_⟩
    · rw [length]
      exact within
    · rw [length, ← invariant.index]
      exact nextIndex
    · rw [length, List.take_add_one, place, List.map_append, List.map_append, invariant.returned]
      simp only [List.map_cons, List.map_nil, Option.toList_some, whole]
      rfl
    · intro index before count at'
      obtain rfl : history.log.length = index := by
        rw [length] at count
        exact Nat.succ.inj count
      obtain rfl := Option.some.inj (place.symm.trans at')
      exact Bytes.overwrite_all _ _ (aead.tag_length made)

end PrefixInvariant

theorem plaintexts_sent (blocks : List FramedBlock)
    (inputs : calls.map AeadCall.input = blocks.map FramedBlock.payload) :
    calls.map AeadCall.plaintext = blocks.map FramedBlock.contents := by
  have framed := congrArg (List.map fun bytes => putBe16 bytes.length ++ bytes) inputs
  rw [List.map_map, List.map_map] at framed
  exact framed

theorem receiveRun_prefix (sending receiving : Session Key) (held : sending.key = some key)
    (inStep : InStep sending receiving) (start : sending.pouch.blockIndex = 0)
    (blocks : List FramedBlock) (countable : blocks.length < 2 ^ 32)
    (distinct : ((sealRun cfg aead sending blocks).map aead.tag).Nodup)
    (ops : List ReceiveOp) (handed : ∀ op ∈ ops, Handed cfg op.block)
    (authentic : History.Meets (receiveStep cfg aead)
      (Authentic aead (sealRun cfg aead sending blocks)) ⟨receiving, []⟩ ops) :
    (History.run (receiveStep cfg aead) ⟨receiving, []⟩ ops).log.map PouchBuf.contents <+:
      blocks.map FramedBlock.contents := by
  have room : sending.pouch.blockIndex.toNat + blocks.length < 2 ^ 32 := by
    rw [start, UInt32.toNat_zero, Nat.zero_add]
    exact countable
  obtain ⟨chained, inputs⟩ := sealRun_chained cfg aead sending held blocks room
  have noData : sending.adArgument = [] := by
    rw [Session.adArgument, start, if_neg (UInt32.lt_irrefl 0)]
  rw [noData] at chained
  have sentCount := congrArg List.length inputs
  rw [List.length_map, List.length_map] at sentCount
  have initial : PrefixInvariant aead (sealRun cfg aead sending blocks) key ⟨receiving, []⟩ := by
    refine ⟨inStep.key.symm.trans held, Nat.zero_le _, ?_, rfl, ?_⟩
    · rw [← inStep.index, start]
      rfl
    · intro index before count
      cases count
  have handedRun : History.Meets (receiveStep cfg aead) (fun _ op => Handed cfg op.block)
      ⟨receiving, []⟩ ops := History.meets_of_forall _ _ _ _ fun _ op member => handed op member
  have invariant := History.run_invariant (receiveStep cfg aead) _ _ _ ops initial
    (History.Meets.both _ handedRun authentic)
    fun reached op met holds => holds.step chained distinct (by omega) op met.1 met.2
  rw [invariant.returned, ← plaintexts_sent blocks inputs]
  exact (List.take_prefix _ _).map _

/-- Whatever reaches the receiver after the start of a pouch, it returns a prefix of the blocks the
server encrypted, and a buffer it rejects leaves no trace. -/
theorem authenticated_blocks (server receiver : Session Key) (paired : Paired server receiver key)
    (pouchId : UInt16) (blocks : List FramedBlock) (countable : blocks.length < 2 ^ 32)
    (distinct : ((sealRun cfg aead (sessionPouchStart server pouchId).2 blocks).map aead.tag).Nodup)
    (ops : List ReceiveOp) (handed : ∀ op ∈ ops, Handed cfg op.block)
    (authentic : History.Meets (receiveStep cfg aead)
      (Authentic aead (sealRun cfg aead (sessionPouchStart server pouchId).2 blocks))
      ⟨(sessionPouchStart receiver pouchId).2, []⟩ ops) :
    let run := History.run (receiveStep cfg aead) ⟨(sessionPouchStart receiver pouchId).2, []⟩
    (run ops).log.map PouchBuf.contents <+: blocks.map FramedBlock.contents ∧
      ∀ first op rest, ops = first ++ op :: rest →
        (receiveStep cfg aead (run first).state op).2 = [] →
        (receiveStep cfg aead (run first).state op).1 = (run first).state := by
  intro run
  obtain ⟨held, inStep⟩ := paired.pouchStart pouchId
  have start : (sessionPouchStart server pouchId).2.pouch.blockIndex = 0 := by
    simp only [sessionPouchStart, paired.firstActive, if_true]
  constructor
  · exact receiveRun_prefix _ _ held inStep start blocks countable distinct ops handed authentic
  · intro first op rest _ rejected
    rcases openBlock_session cfg .server op.malloc
      (fun call => if op.psaFails then none else aead.decrypt call) (run first).state op.block with
      ⟨same, _⟩ | ⟨_, buf, _, returned⟩
    · exact same
    · simp only [receiveStep, sessionDecryptBlock] at rejected
      rw [returned] at rejected
      cases rejected

end Chain

def sentBlocks : List FramedBlock := [⟨[0xaa], by decide⟩, ⟨[0xaa, 1], by decide⟩]

def sentCalls : List (AeadCall Unit) :=
  sealRun (defaultConfig .saead) nonceAead (sessionPouchStart pairedSession 1).2 sentBlocks

-- The first block again in place of the second.
def replayedOp : ReceiveOp where
  block := PouchBuf.ofList (0 :: 17 :: 0xaa :: nonceTag [0, 1, 0, 0, 1])
  malloc := some fun _ => 0
  psaFails := false

theorem replayedOp_authentic (history : History (Session Unit) PouchBuf)
    (call : (nonceAead.decrypt (history.state.aeadCall .server ()
        (0xaa :: nonceTag [0, 1, 0, 0, 1]))).isNone = true ∨
      history.state.aeadCall .server () [0xaa] ∈ sentCalls ∧
        0xaa :: nonceTag [0, 1, 0, 0, 1] =
          nonceAead.encrypt (history.state.aeadCall .server () [0xaa])) :
    Authentic nonceAead sentCalls history replayedOp := by
  intro key input output held contents decrypted
  have sameInput : input = 0xaa :: nonceTag [0, 1, 0, 0, 1] := by
    rw [replayedOp, PouchBuf.ofList_contents] at contents
    have split : [0, 17] ++ 0xaa :: nonceTag [0, 1, 0, 0, 1] = putBe16 input.length ++ input := contents
    exact (List.append_inj split rfl).2.symm
  subst sameInput
  rcases call with rejected | ⟨member, ciphertext⟩
  · rw [decrypted] at rejected
    cases rejected
  · exact ⟨_, member, rfl, ciphertext⟩

theorem replayed_block_refused :
    let returned := (History.run (receiveStep (defaultConfig .saead) nonceAead)
      ⟨(sessionPouchStart pairedSession 1).2, []⟩ [replayedOp, replayedOp]).log.map PouchBuf.contents
    returned = [[0, 1, 0xaa]] ∧ returned <+: sentBlocks.map FramedBlock.contents := by
  intro returned
  have authentic : History.Meets (receiveStep (defaultConfig .saead) nonceAead)
      (Authentic nonceAead sentCalls) ⟨(sessionPouchStart pairedSession 1).2, []⟩
      [replayedOp, replayedOp] := by
    refine ⟨replayedOp_authentic _ (.inr ?_), replayedOp_authentic _ (.inl ?_), trivial⟩
    · decide +kernel
    · decide +kernel
  have handed : ∀ op ∈ [replayedOp, replayedOp], Handed (defaultConfig .saead) op.block := by
    simp only [List.mem_cons, List.not_mem_nil, or_false, or_self, forall_eq]
    exact ⟨by decide, by decide⟩
  refine ⟨by decide +kernel, ?_⟩
  exact (authenticated_blocks pairedSession pairedSession pairedSession_paired 1 sentBlocks (by decide)
    (by decide +kernel) _ handed authentic).1

end Pouch
