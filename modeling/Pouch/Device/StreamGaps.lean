import Pouch.Device.PouchHeaders
import Pouch.Saead.BlockChain

set_option autoImplicit false

namespace Pouch

def Event.dequeues : Event → List Buf
  | .processed block _ _ _ _ | .dropped block _ => [block]
  | _ => []

def Event.seals : Event → List (Buf × Buf)
  | .processed block _ sent _ _ => [(block, sent)]
  | _ => []

section Receiver

variable {Key : Type} (cfg : Config) (decrypt : PsaAead Key)

-- The receiver of a pouch decrypts its blocks in order, each under the index after the one before.
def openAll : Session Key → List PouchBuf → Option (List PouchBuf)
  | _, [] => some []
  | receiver, block :: rest =>
    let outcome := openBlock cfg .device (some fun _ => 0) decrypt receiver block
    match outcome.block with
    | none => none
    | some plain => (openAll outcome.session rest).map (plain :: ·)

theorem openAll_length (receiver : Session Key) (blocks plains : List PouchBuf)
    (opened : openAll cfg decrypt receiver blocks = some plains) : plains.length = blocks.length := by
  induction blocks generalizing receiver plains with
  | nil =>
    obtain rfl := Option.some.inj opened
    rfl
  | cons block rest ih =>
    simp only [openAll] at opened
    split at opened
    · simp at opened
    · obtain ⟨others, isOthers, rfl⟩ := Option.map_eq_some_iff.mp opened
      simp [ih _ _ isOthers]

end Receiver

/-- Whenever what was sent of the pouch is decrypted, and the last block of a stream is among it, so
is every block of that stream that `process_blocks` took before it in the session. -/
def NoSilentGap (Key : Type) (cfg : Config) (session : List Event) : Prop :=
  ∀ (decrypt : PsaAead Key) (receiver : Session Key) (sent : List (Buf × Buf)) (plains : List PouchBuf),
    sent <+: session.flatMap Event.seals → openAll cfg decrypt receiver (sent.map (·.2.data)) = some plains →
    ∀ before last header encrypted starting sessionId after,
      session = before ++ .processed last header encrypted starting sessionId :: after →
      before.flatMap Event.seals ++ [(last, encrypted)] <+: sent →
      last.isStream = true → last.isLast = true →
      ∀ earlier ∈ before.flatMap Event.dequeues, earlier.owner = last.owner →
        ∃ (index : Nat) (ciphertext : Buf) (plain : PouchBuf),
          sent[index]? = some (earlier, ciphertext) ∧ plains[index]? = some plain

variable {Key : Type}

def Precedes (earlier later : Buf) : Prop :=
  earlier.isStream = true → earlier.owner = later.owner → earlier.isLast = false

structure StreamsInOrder (device : Device Key) (log : List Event) : Prop where
  owned : device.Owned
  fifo : log.flatMap Event.enqueues = log.flatMap Event.dequeues ++ device.uplink.queue
  issued : ∀ block ∈ log.flatMap Event.enqueues, ∀ handle session, block.owner = .stream handle session →
    handle < device.nextHandle
  unfinished : ∀ handle stream, device.streams handle = some stream →
    ∀ block ∈ log.flatMap Event.enqueues, ∀ session, block.owner = .stream handle session → block.isLast = false
  ordered : (log.flatMap Event.enqueues).Pairwise Precedes
  kept : ∀ block starting, .dropped block starting ∈ log → block.isStream = true → block.isLast = true

section Step

variable {device next : Device Key} {log : List Event} {event : Event}

theorem SmallStep.enqueues_open (small : SmallStep device event next) (owned : device.Owned) (block : Buf)
    (member : block ∈ event.enqueues) (handle session : Nat) (isOwner : block.owner = .stream handle session) :
    (∃ stream, device.streams handle = some stream) ∧
      (block.isLast = false ∨ next.streams handle = none) := by
  cases small with
  | entryPassed opened passed held id owner contents =>
    obtain rfl := List.mem_singleton.mp member
    simp [owner, owned.entries opened held] at isOwner
  | enqueued passed id owner =>
    obtain rfl := List.mem_singleton.mp member
    simp [owner] at isOwner
  | streamPassed from' old stream passed held valid id owner fresh same freshOwner unfinished =>
    obtain rfl := List.mem_singleton.mp member
    obtain ⟨oldOwner, wasUnfinished⟩ := owned.streams from' old held
    rw [owner, oldOwner] at isOwner
    cases isOwner
    exact ⟨⟨old, held⟩, .inl (unfinished wasUnfinished).2⟩
  | streamClosed from' stream passed held valid id owner =>
    obtain rfl := List.mem_singleton.mp member
    rw [owner, (owned.streams from' stream held).1] at isOwner
    cases isOwner
    exact ⟨⟨stream, held⟩, .inr (Function.update_self ..)⟩
  | downlink _ pool crypto downlink on =>
    rw [Event.enqueues_downlink on] at member
    exact absurd member List.not_mem_nil
  | _ => exact absurd member List.not_mem_nil

theorem SmallStep.streams_cases (small : SmallStep device event next) :
    device.nextHandle ≤ next.nextHandle ∧ ∀ handle stream, next.streams handle = some stream →
      handle = device.nextHandle ∨ (device.streams handle).isSome = true := by
  have same : ∀ handle stream, device.streams handle = some stream →
      handle = device.nextHandle ∨ (device.streams handle).isSome = true := by
    intro handle stream held
    rw [held]
    exact .inr rfl
  cases small with
  | streamOpened => exact ⟨Nat.le_succ _, forall_update same _ _ fun _ _ => .inl rfl⟩
  | streamWrote handle old stream held =>
    exact ⟨le_rfl, forall_update same _ _ fun _ _ => .inr (by rw [held]; rfl)⟩
  | streamPassed handle old stream block held =>
    exact ⟨le_rfl, forall_update same _ _ fun _ _ => .inr (by rw [held]; rfl)⟩
  | streamClosed => exact ⟨le_rfl, forall_update same _ _ nofun⟩
  | streamDiscarded => exact ⟨le_rfl, forall_update same _ _ nofun⟩
  | _ => exact ⟨le_rfl, same⟩

theorem SmallStep.fifo (small : SmallStep device event next) :
    device.uplink.queue ++ event.enqueues = event.dequeues ++ next.uplink.queue := by
  cases small with
  | entryPassed | streamPassed | streamClosed | enqueued => rfl
  | processed block sent rest crypto pool active opened queue =>
    rw [queue]
    exact List.append_nil _
  | dropped block rest crypto pool active opened queue =>
    rw [queue]
    exact List.append_nil _
  | downlink _ pool crypto downlink on =>
    have quiet : event.dequeues = [] := by
      rcases Event.of_downlink on with ⟨_, rfl⟩ | rfl | ⟨_, _, rfl⟩ | ⟨_, rfl⟩ <;> rfl
    rw [Event.enqueues_downlink on, quiet]
    exact List.append_nil _
  | _ => exact List.append_nil _

def Event.leavesGap : Event → Bool
  | .dropped block _ => block.isStream && !block.isLast
  | _ => false

theorem Buf.owner_of_isStream {block : Buf} (isStream : block.isStream = true) :
    ∃ handle session, block.owner = .stream handle session := by
  unfold Buf.isStream at isStream
  split at isStream
  · exact ⟨_, _, by assumption⟩
  · exact Bool.noConfusion isStream

theorem StreamsInOrder.unfinished_step (inOrder : StreamsInOrder device log) (small : SmallStep device event next)
    (handle : Nat) (stream : UplinkStream) (held : next.streams handle = some stream) (block : Buf)
    (member : block ∈ log.flatMap Event.enqueues ++ event.enqueues) (session : Nat)
    (owner : block.owner = .stream handle session) : block.isLast = false := by
  rcases List.mem_append.mp member with old | new
  · rcases small.streams_cases.2 handle stream held with rfl | wasOpen
    · have issued := inOrder.issued block old device.nextHandle session owner
      exact absurd issued (Nat.lt_irrefl _)
    · obtain ⟨before, isBefore⟩ := Option.isSome_iff_exists.mp wasOpen
      exact inOrder.unfinished handle before isBefore block old session owner
  · obtain ⟨_, notLast | closed⟩ := small.enqueues_open inOrder.owned block new handle session owner
    · exact notLast
    · rw [held] at closed
      exact absurd closed nofun

theorem StreamsInOrder.ordered_step (inOrder : StreamsInOrder device log) (small : SmallStep device event next) :
    (log.flatMap Event.enqueues ++ event.enqueues).Pairwise Precedes := by
  refine List.pairwise_append.mpr ⟨inOrder.ordered, ?_, ?_⟩
  · unfold Event.enqueues
    split <;> simp
  · intro earlier old later new isStream sameOwner
    obtain ⟨handle, session, owner⟩ := Buf.owner_of_isStream isStream
    obtain ⟨⟨stream, held⟩, _⟩ := small.enqueues_open inOrder.owned later new handle session
      (sameOwner.symm.trans owner)
    exact inOrder.unfinished handle stream held earlier old session owner

theorem StreamsInOrder.step (small : SmallStep device event next) (allowed : event.leavesGap = false)
    (inOrder : StreamsInOrder device log) : StreamsInOrder next (log ++ [event]) := by
  have all : (log ++ [event]).flatMap Event.enqueues = log.flatMap Event.enqueues ++ event.enqueues := by simp
  refine ⟨small.owned inOrder.owned, ?_, ?_, ?_, ?_, ?_⟩
  · simp only [List.flatMap_append, List.flatMap_singleton, inOrder.fifo, List.append_assoc, small.fifo]
  · rw [all]
    intro block member handle session owner
    refine Nat.lt_of_lt_of_le ?_ small.streams_cases.1
    rcases List.mem_append.mp member with old | new
    · exact inOrder.issued block old handle session owner
    · obtain ⟨⟨stream, held⟩, _⟩ := small.enqueues_open inOrder.owned block new handle session owner
      exact inOrder.owned.bound handle stream held
  · rw [all]
    exact inOrder.unfinished_step small
  · rw [all]
    exact inOrder.ordered_step small
  · intro block starting member isStream
    rw [List.mem_append, List.mem_singleton] at member
    rcases member with old | rfl
    · exact inOrder.kept block starting old isStream
    · simpa [Event.leavesGap, isStream] using allowed

theorem mem_seals {session : List Event} {block sent : Buf} :
    (block, sent) ∈ session.flatMap Event.seals ↔
      ∃ header starting sessionId, .processed block header sent starting sessionId ∈ session := by
  simp only [List.mem_flatMap]
  constructor
  · rintro ⟨event, member, seals⟩
    cases event with
    | processed plain header encrypted starting sessionId =>
      cases List.mem_singleton.mp seals
      exact ⟨header, starting, sessionId, member⟩
    | _ => exact absurd seals List.not_mem_nil
  · rintro ⟨header, starting, sessionId, member⟩
    exact ⟨_, member, List.mem_singleton_self _⟩

theorem sealed_of_dequeued {session : List Event} {block : Buf} (taken : block ∈ session.flatMap Event.dequeues)
    (kept : ∀ starting, .dropped block starting ∉ session) :
    ∃ sent, (block, sent) ∈ session.flatMap Event.seals := by
  obtain ⟨event, member, dequeues⟩ := List.mem_flatMap.mp taken
  cases event with
  | processed plain header sent starting sessionId =>
    obtain rfl := List.mem_singleton.mp dequeues
    exact ⟨sent, mem_seals.mpr ⟨header, starting, sessionId, member⟩⟩
  | dropped plain starting =>
    obtain rfl := List.mem_singleton.mp dequeues
    exact absurd member (kept starting)
  | _ => exact absurd dequeues List.not_mem_nil

theorem StreamsInOrder.noSilentGap (inOrder : StreamsInOrder device log) (cfg : Config) :
    NoSilentGap Key cfg (sessionLog log) := by
  intro decrypt receiver sent plains isSent opened before last header encrypted starting sessionId after split
    reached isStream isLast earlier taken sameOwner
  have alsoStream : earlier.isStream = true := by
    rw [Buf.isStream, sameOwner]
    exact isStream
  have inLog : ∃ prior, log = prior ++ before ++ .processed last header encrypted starting sessionId :: after := by
    refine ⟨History.upTo Event.activates log, ?_⟩
    rw [List.append_assoc, ← split]
    exact (History.upTo_append_since Event.activates log).symm
  obtain ⟨prior, inLog⟩ := inLog
  have ordered := inOrder.ordered
  rw [inOrder.fifo, inLog] at ordered
  simp only [List.flatMap_append, List.flatMap_cons, List.append_assoc] at ordered
  have later := (List.pairwise_append.mp ordered).2.1
  have notLast : earlier.isLast = false :=
    (List.pairwise_append.mp later).2.2 earlier taken last (by simp [Event.dequeues]) alsoStream sameOwner
  -- Only the last block of a stream may have been lost.
  have kept : ∀ starting, .dropped earlier starting ∉ before := by
    intro starting dropped
    have isLost : .dropped earlier starting ∈ log := by
      rw [inLog]
      exact List.mem_append_left _ (List.mem_append_right prior dropped)
    have wasLast := inOrder.kept earlier starting isLost alsoStream
    rw [notLast] at wasLast
    exact Bool.noConfusion wasLast
  obtain ⟨ciphertext, isSealed⟩ := sealed_of_dequeued taken kept
  have transmitted : (earlier, ciphertext) ∈ sent := by
    apply reached.subset
    exact List.mem_append_left _ isSealed
  obtain ⟨index, isAt⟩ := List.mem_iff_getElem?.mp transmitted
  have length := openAll_length cfg decrypt receiver _ plains opened
  obtain ⟨within, _⟩ := List.getElem?_eq_some_iff.mp isAt
  rw [List.length_map] at length
  exact ⟨index, ciphertext, plains[index], isAt, List.getElem?_eq_getElem (by omega)⟩

end Step

theorem StreamsInOrder.boot (cfg : Config) : StreamsInOrder (Device.boot Key cfg) [] := by
  refine ⟨⟨?_, ?_, ?_⟩, rfl, ?_, ?_, .nil, ?_⟩ <;> simp [Device.boot]

section Condition

variable (cfg : Config)

-- `session_encrypt_block` gets its memory, finds its key and the size of the block in order, and the
-- PSA call succeeds.
structure Session.Seals (session : Session Key) (call : BlockCall Key) (block : PouchBuf) : Prop where
  allocated : call.malloc.isSome = true
  keyed : session.key.isSome = true
  framed : (pouchBufviewReadBe16 cfg (pouchBufviewInit block)).1 =
    pouchBufviewAvailable cfg (pouchBufviewReadBe16 cfg (pouchBufviewInit block)).2
  psa : ∀ request, ∃ output, call.psa request = some output ∧ output.length = request.input.length + 16

def Crypto.Seals (call : BlockCall Key) (block : PouchBuf) : Crypto Key → Prop
  | .none => True
  | .saead state => state.uplink.flags.active = true ∧ state.uplink.Seals cfg call block

/-- A worker run encrypts every block of a stream that it takes, but for the last one of the stream. -/
def EncryptionsSucceed (history : History (Device Key) Event) : DeviceOp Key → Prop
  | .processBlocks calls => history.state.uplink.hasWork = true →
    ∀ (index : Nat) (block : Buf), history.state.uplink.queue[index]? = some block → block.isStream = true →
      block.isLast = false → history.state.crypto.Seals cfg (calls index) block.data
  | _ => True

variable {cfg}

theorem Session.Seals.sealed {session : Session Key} {call : BlockCall Key} {block : PouchBuf}
    (seals : session.Seals cfg call block) :
    (sessionEncryptBlock cfg call.malloc call.psa session block).block.isSome = true := by
  obtain ⟨memory, allocated⟩ := Option.isSome_iff_exists.mp seals.allocated
  obtain ⟨key, keyed⟩ := Option.isSome_iff_exists.mp seals.keyed
  have framed := seals.framed
  simp only [sessionEncryptBlock, sealBlock, allocated, bufAlloc, Option.map_some]
  generalize pouchBufviewReadBe16 cfg (pouchBufviewInit block) = read at framed ⊢
  obtain ⟨length, plaintext⟩ := read
  rw [if_neg (by simpa using framed)]
  simp only [keyed]
  obtain ⟨output, called, tagged⟩ := seals.psa (session.aeadCall .device key
    (ByteMemory.load plaintext.memory ((pouchBufviewRead cfg plaintext length).1.getD 0) length))
  simp only [called]
  rw [if_neg]
  · rfl
  · simp [tagged, Session.aeadCall]

theorem Crypto.Seals.sealed {crypto : Crypto Key} {call : BlockCall Key} {block : Buf} (pool : Ledger)
    (seals : crypto.Seals cfg call block.data) : (crypto.encryptBlock cfg call pool block).1.isSome = true := by
  cases crypto with
  | none => rfl
  | saead state =>
    obtain ⟨active, seals⟩ := seals
    obtain ⟨memory, allocated⟩ := Option.isSome_iff_exists.mp seals.allocated
    obtain ⟨produced, isProduced⟩ := Option.isSome_iff_exists.mp seals.sealed
    rw [allocated] at isProduced
    simp only [Crypto.encryptBlock, active, if_true, isProduced, allocated, bufProduce, bufHold, bufAlloc,
      Option.map_some, Option.isSome_some]

theorem Crypto.Seals.next {crypto : Crypto Key} {call : BlockCall Key} {block : PouchBuf}
    (seals : crypto.Seals cfg call block) (before : BlockCall Key) (pool : Ledger) (encrypted : Buf) :
    (crypto.encryptBlock cfg before pool encrypted).2.1.Seals cfg call block := by
  cases crypto with
  | none => trivial
  | saead state =>
    obtain ⟨active, seals⟩ := seals
    have kept : ∀ next : Session Key, next.key = state.uplink.key → next.flags = state.uplink.flags →
        next.flags.active = true ∧ next.Seals cfg call block := by
      intro next key flags
      exact ⟨flags ▸ active, seals.allocated, key ▸ seals.keyed, seals.framed, seals.psa⟩
    simp only [Crypto.encryptBlock, active, if_true]
    rcases sealBlock_cases _ rfl with ⟨same, _⟩ | ⟨_, _, _, _, _, _, _, sealed', _⟩
    · exact kept _ (congrArg Session.key same) (congrArg Session.flags same)
    · exact kept _ (congrArg (fun outcome => outcome.session.key) sealed')
        (congrArg (fun outcome => outcome.session.flags) sealed')

theorem processQueue_gaps (queue : List Buf) (calls : Nat → BlockCall Key) (device : Device Key)
    (seals : ∀ (index : Nat) (block : Buf), queue[index]? = some block → block.isStream = true →
      block.isLast = false → device.crypto.Seals cfg (calls index) block.data) :
    ∀ event ∈ (processQueue cfg queue calls device).2, event.leavesGap = false := by
  induction queue generalizing calls device with
  | nil => simp [processQueue]
  | cons block rest ih =>
    have first : block.isStream = true → block.isLast = false →
        (device.crypto.encryptBlock cfg (calls 0) device.pool block).1.isSome = true :=
      fun isStream notLast => (seals 0 block rfl isStream notLast).sealed device.pool
    have others : ∀ (index : Nat) (later : Buf), rest[index]? = some later → later.isStream = true →
        later.isLast = false →
          (device.crypto.encryptBlock cfg (calls 0) device.pool block).2.1.Seals cfg (calls (index + 1)) later.data :=
      fun index later found isStream notLast =>
        (seals (index + 1) later (by simpa using found) isStream notLast).next (calls 0) device.pool block
    simp only [processQueue]
    generalize device.crypto.encryptBlock cfg (calls 0) device.pool block = result at first others ⊢
    obtain ⟨encrypted, crypto, pool⟩ := result
    cases encrypted with
    | none =>
      simp only [List.mem_cons, forall_eq_or_imp]
      refine ⟨?_, ih _ _ others⟩
      by_contra gap
      simp only [Event.leavesGap, Bool.not_eq_false, Bool.and_eq_true, Bool.not_eq_true'] at gap
      exact Bool.noConfusion (first gap.1 gap.2)
    | some sent =>
      simp only [List.mem_cons, forall_eq_or_imp]
      exact ⟨rfl, ih _ _ others⟩

theorem processBlocks_gaps (calls : Nat → BlockCall Key) (device : Device Key) (log : List Event)
    (succeed : EncryptionsSucceed cfg ⟨device, log⟩ (.processBlocks calls)) :
    ∀ event ∈ (processBlocks cfg calls device).2, event.leavesGap = false := by
  intro event member
  rcases mem_processBlocks cfg calls device event member with rfl | ⟨rfl, _⟩ | ⟨hasWork, taken⟩
  · rfl
  · rfl
  · exact processQueue_gaps _ calls { device with uplink := { device.uplink with work := false } }
      (succeed hasWork) event taken

theorem step_gaps (device : Device Key) (log : List Event) (op : DeviceOp Key) (formed : device.Formed cfg)
    (succeed : EncryptionsSucceed cfg ⟨device, log⟩ op) :
    ∀ event ∈ (device.step cfg op).2, event.leavesGap = false := by
  intro event member
  by_contra gap
  have taken : ∃ during, event.takenDuring = some during := by
    cases event with
    | dropped block starting => exact ⟨starting, rfl⟩
    | _ => exact absurd rfl gap
  obtain ⟨during, taken⟩ := taken
  obtain ⟨calls, rfl, _⟩ := worker_reports cfg device op formed event member during taken
  exact gap (processBlocks_gaps calls device log succeed event member)

end Condition

/-- In a run in which no block of a stream fails to be encrypted, but for the last one of the stream,
no pouch has a silent gap. -/
theorem no_silent_gap (cfg : Config) (ops : List (DeviceOp Key))
    (succeed : History.Meets (Device.step cfg) (EncryptionsSucceed cfg) ⟨.boot Key cfg, []⟩ ops) :
    NoSilentGap Key cfg (sessionLog (History.run (Device.step cfg) ⟨.boot Key cfg, []⟩ ops).log) := by
  have inOrder := (Device.step_traced cfg).run_invariant (EncryptionsSucceed cfg)
    (fun event => event.leavesGap = false) StreamsInOrder ⟨.boot Key cfg, []⟩ ops (Device.boot_formed cfg)
    (StreamsInOrder.boot cfg) succeed
    (fun reached op formed met => step_gaps reached.state reached.log op formed met)
    (fun _ _ _ _ small allowed inOrder => inOrder.step small allowed)
  exact inOrder.noSilentGap cfg

-- Blocks of eight bytes, so that a short stream has three of them.
def narrowConfig : Config :=
  { defaultConfig .saead with
    blockSize := 8
    blockSizePositive := by decide
    blockSizeInt := by decide }

def keyedStart : List (DeviceOp Unit) :=
  [.startActivate, .startSession ⟨.gcm, some (Bytes.zero 16), ⟨fun _ _ _ => some (), some⟩⟩, .startPouch,
    .startHeader ⟨some fun _ => 0, true, some [0x82, 0x02]⟩]

def threeBlocks : List (DeviceOp Unit) :=
  [.streamOpen samplePath 42 true (some fun _ => 0),
    .streamWrite 0 [1, 2, 3, 4, 5, 6, 7, 8, 9, 10, 11, 12, 13] fun _ => some fun _ => 0, .streamClose 0]

def narrowRun (ops : List (DeviceOp Unit)) : History (Device Unit) Event :=
  History.run (Device.step narrowConfig) ⟨.boot Unit narrowConfig, []⟩ ops

def sealingRun (fails : Nat → Bool) : DeviceOp Unit :=
  .processBlocks fun index =>
    ⟨if fails index then none else some fun _ => 0, fun request => some (nonceAead.encrypt request)⟩

def sealedOps : List (DeviceOp Unit) := keyedStart ++ threeBlocks ++ [sealingRun fun _ => false]

def Crypto.isKeyed : Crypto Unit → Bool
  | .none => true
  | .saead state => state.uplink.flags.active && state.uplink.key.isSome

theorem no_silent_gap_sample :
    History.Meets (Device.step narrowConfig) (EncryptionsSucceed narrowConfig) ⟨.boot Unit narrowConfig, []⟩
        sealedOps ∧ NoSilentGap Unit narrowConfig (sessionLog (narrowRun sealedOps).log) := by
  have keyed : (narrowRun (keyedStart ++ threeBlocks)).state.crypto.isKeyed = true := by decide +kernel
  have framed : ∀ block ∈ (narrowRun (keyedStart ++ threeBlocks)).state.uplink.queue.map Buf.data,
      (pouchBufviewReadBe16 narrowConfig (pouchBufviewInit block)).1 =
        pouchBufviewAvailable narrowConfig (pouchBufviewReadBe16 narrowConfig (pouchBufviewInit block)).2 := by
    decide +kernel
  have succeed : History.Meets (Device.step narrowConfig) (EncryptionsSucceed narrowConfig)
      ⟨.boot Unit narrowConfig, []⟩ sealedOps := by
    refine ⟨trivial, trivial, trivial, trivial, trivial, trivial, trivial, ?_, trivial⟩
    intro _ index block found _ _
    have isFramed := framed block.data (List.mem_map_of_mem (List.mem_of_getElem? found))
    change (narrowRun (keyedStart ++ threeBlocks)).state.crypto.Seals narrowConfig _ block.data
    generalize (narrowRun (keyedStart ++ threeBlocks)).state.crypto = crypto at keyed ⊢
    cases crypto with
    | none => trivial
    | saead state =>
      simp only [Crypto.isKeyed, Bool.and_eq_true] at keyed
      exact ⟨keyed.1, rfl, keyed.2, isFramed, fun request => ⟨_, rfl, nonceAead.tagged request⟩⟩
  exact ⟨succeed, no_silent_gap narrowConfig sealedOps succeed⟩

def gapOps : List (DeviceOp Unit) := keyedStart ++ threeBlocks ++ [sealingRun fun index => index = 1]

def serverSession : Session Unit where
  id := ⟨.device, .random (Bytes.zero 16)⟩
  flags := ⟨true, true, false⟩
  algorithm := .gcm
  key := some ()
  pouch := ⟨1, 0, Bytes.zero 16⟩

def Event.sealsLastOf (owner : Owner) : Event → Bool
  | .processed block _ _ _ _ => block.owner = owner && block.isLast
  | _ => false

/-- A receiver that decrypts everything it got of the pouch has the last block of the stream, but not
the one in the middle. -/
theorem stream_with_silent_gap : ¬ NoSilentGap Unit narrowConfig (sessionLog (narrowRun gapOps).log) := by
  intro noGap
  have decrypts : (openAll narrowConfig nonceAead.decrypt serverSession
      (((sessionLog (narrowRun gapOps).log).flatMap Event.seals).map (·.2.data))).isSome = true := by
    decide +kernel
  have sealsLast : (sessionLog (narrowRun gapOps).log).findIdx? (Event.sealsLastOf (.stream 0 0)) = some 14 := by
    decide +kernel
  have taken : (2, .stream 0 0) ∈ (((sessionLog (narrowRun gapOps).log).take 14).flatMap Event.dequeues).map
      fun block => (block.id, block.owner) := by
    decide +kernel
  have notSent : 2 ∉ ((sessionLog (narrowRun gapOps).log).flatMap Event.seals).map (·.1.id) := by
    decide +kernel
  generalize sessionLog (narrowRun gapOps).log = session at noGap decrypts sealsLast taken notSent
  obtain ⟨plains, opened⟩ := Option.isSome_iff_exists.mp decrypts
  obtain ⟨event, isLast, split⟩ := History.split_found sealsLast
  obtain ⟨earlier, wasTaken, same⟩ := List.mem_map.mp taken
  cases event with
  | processed last header encrypted starting sessionId =>
    simp only [Event.sealsLastOf, Bool.and_eq_true, decide_eq_true_eq] at isLast
    simp only [Prod.mk.injEq] at same
    have reached : (session.take 14).flatMap Event.seals ++ [(last, encrypted)] <+: session.flatMap Event.seals := by
      refine ⟨(session.drop 15).flatMap Event.seals, ?_⟩
      conv_rhs => rw [split]
      simp [Event.seals]
    obtain ⟨index, ciphertext, _, isSent, _⟩ := noGap nonceAead.decrypt serverSession
      (session.flatMap Event.seals) plains (List.prefix_refl _) opened _ last header encrypted starting sessionId _
      split reached (by simp [Buf.isStream, isLast.1]) isLast.2 earlier wasTaken (same.2.trans isLast.1.symm)
    exact notSent (List.mem_map.mpr ⟨_, List.mem_of_getElem? isSent, same.1⟩)
  | _ => simp [Event.sealsLastOf] at isLast

end Pouch
