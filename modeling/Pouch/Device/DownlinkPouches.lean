import Pouch.Device.Traces

set_option autoImplicit false

namespace Pouch

open ByteMemory

structure Announcement (Key : Type) where
  id : SessionId
  key : Option Key
  pouchId : UInt16

def Saead.announcement {Key : Type} (state : Saead Key) : Announcement Key :=
  ⟨state.downlink.id, state.downlink.key, state.downlink.pouch.id⟩

def Crypto.announcement {Key : Type} : Crypto Key → Option (Announcement Key)
  | .none => Option.none
  | .saead state => some state.announcement

inductive DownlinkOp (Key : Type) where
  | start (malloc : Option Memory)
  | push (call : PushCall Key) (data : List UInt8)
  | decrypt (call : BlockCall Key)
  | consume

/-- The device with a record of its pouches that the code does not keep: what each accepted header
announced, and for every block in the decrypt queue the number of the header it came behind. -/
structure PouchRecord (Key : Type) where
  device : Device Key
  announced : List (Option (Announcement Key))
  pouches : List Nat

-- `crypto_decrypt_block` is called: what the header of the block announced, and what is current.
structure DecryptCall (Key : Type) where
  announced : Option (Announcement Key)
  current : Option (Announcement Key)

namespace PouchRecord

variable {Key : Type} (cfg : Config)

def boot (Key : Type) (cfg : Config) : PouchRecord Key := ⟨.boot Key cfg, [], []⟩

def accepts (record : PouchRecord Key) (device : Device Key) : Bool :=
  !record.device.downlink.pouchHeader && device.downlink.pouchHeader

-- The record of one call of `pouch_downlink_push`. All blocks it frames are of the same pouch: a
-- header is looked for only until there is one.
def follow (record : PouchRecord Key) (device : Device Key) : PouchRecord Key :=
  let announced :=
    if record.accepts device then
      record.announced ++ [device.crypto.announcement]
    else
      record.announced
  let framed := device.downlink.decryptQueue.length - record.device.downlink.decryptQueue.length
  { device := device
    announced := announced
    pouches := record.pouches ++ List.replicate framed (announced.length - 1) }

def decrypt (call : BlockCall Key) (record : PouchRecord Key) : PouchRecord Key × List (DecryptCall Key) :=
  let device := (record.device.decryptBlocks cfg call).1
  if record.device.downlink.decryptWork then
    match record.pouches with
    | [] => ({ record with device := device }, [])
    | pouch :: rest =>
      ({ record with device := device, pouches := rest },
        [⟨record.announced.getD pouch none, record.device.crypto.announcement⟩])
  else
    ({ record with device := device }, [])

def step (record : PouchRecord Key) : DownlinkOp Key → PouchRecord Key × List (DecryptCall Key)
  | .start malloc => ({ record with device := (record.device.pouchDownlinkStart malloc).1 }, [])
  | .push call data => (record.follow (record.device.pouchDownlinkPush cfg call data).1, [])
  | .decrypt call => record.decrypt cfg call
  | .consume => ({ record with device := record.device.consumeBlocks.1 }, [])

end PouchRecord

section Push

variable {Key : Type} (cfg : Config)

theorem parseHeader_refused (call : PushCall Key) (crypto : Crypto Key) (view : Bufview) (err : Errno)
    (next : Crypto Key)
    (parsed : pouchDownlinkParseHeader cfg (call.handling cfg) crypto view = (.error err, next)) :
    next = crypto := by
  simp only [pouchDownlinkParseHeader] at parsed
  split at parsed
  · simpa using (Prod.mk.inj parsed).2.symm
  · rename_i info headerLen decoded
    simp only [PushCall.handling] at parsed
    cases crypto with
    | none =>
      cases info <;> simp [Crypto.downlinkStart] at parsed
      exact parsed.2.symm
    | saead state =>
      rcases cryptoDownlinkStart_cases cfg state info call.keys with
        ⟨refusal, refused⟩ | ⟨_, _, _, _, _, _, _, accepted⟩
      · simp [Crypto.downlinkStart, refused] at parsed
        exact parsed.2.symm
      · simp [Crypto.downlinkStart, accepted] at parsed

structure PushEffect (push next : PushState Key) : Prop where
  queue : ∃ sent, next.state.decryptQueue = push.state.decryptQueue ++ sent
  behind : push.state.pouchHeader = true → next.state.pouchHeader = true ∧ next.crypto = push.crypto
  refused : next.state.pouchHeader = false →
    next.crypto = push.crypto ∧ next.state.decryptQueue = push.state.decryptQueue

theorem PushEffect.refl (push : PushState Key) : PushEffect push push :=
  ⟨⟨[], by simp⟩, fun header => ⟨header, rfl⟩, fun _ => ⟨rfl, rfl⟩⟩

theorem PushEffect.trans {first second third : PushState Key} (left : PushEffect first second)
    (right : PushEffect second third) : PushEffect first third := by
  obtain ⟨sent, earlier⟩ := left.queue
  obtain ⟨more, later⟩ := right.queue
  refine ⟨⟨sent ++ more, by rw [later, earlier, List.append_assoc]⟩, ?_, ?_⟩
  · intro header
    obtain ⟨still, same⟩ := left.behind header
    obtain ⟨last, sameAgain⟩ := right.behind still
    exact ⟨last, sameAgain.trans same⟩
  · intro none'
    obtain ⟨sameCrypto, sameQueue⟩ := right.refused none'
    have earlierNone : second.state.pouchHeader = false := by
      by_contra header
      have still := (right.behind (by simpa using header)).1
      simp [none'] at still
    obtain ⟨firstCrypto, firstQueue⟩ := left.refused earlierNone
    exact ⟨sameCrypto.trans firstCrypto, sameQueue.trans firstQueue⟩

theorem turn_queue (push : PushState Key) (turn : PushTurn (Crypto Key)) :
    ∃ sent, (push.turn turn).state.decryptQueue = push.state.decryptQueue ++ sent ∧
      (turn.sent = [] → sent = []) := by
  unfold PushState.turn
  cases push.state.pouchBuf with
  | none => exact ⟨[], by simp, fun _ => rfl⟩
  | some buf =>
    cases turn.sent with
    | nil => exact ⟨[], by simp, fun _ => rfl⟩
    | cons block rest => exact ⟨_, rfl, nofun⟩

theorem turn_header (push : PushState Key) (turn : PushTurn (Crypto Key)) :
    (push.turn turn).state.pouchHeader = turn.state.pouchHeader := by
  unfold PushState.turn
  cases push.state.pouchBuf with
  | none => rfl
  | some buf => cases turn.sent <;> rfl

theorem pushTurn_header (call : PushCall Key) (malloc : Option Memory) (state : Downlink (Crypto Key))
    (data : List UInt8) :
    let turn := pushTurn cfg (call.handling cfg) malloc state data
    (state.pouchHeader = true → turn.state.pouchHeader = true ∧ turn.state.crypto = state.crypto) ∧
      (turn.state.pouchHeader = false → turn.state.crypto = state.crypto ∧ turn.sent = []) := by
  simp only [pushTurn]
  cases state.pouchBuf with
  | none => exact ⟨fun header => ⟨header, rfl⟩, fun _ => ⟨rfl, rfl⟩⟩
  | some buf =>
    simp only
    split_ifs with full header
    · exact ⟨fun header => ⟨header, rfl⟩, fun _ => ⟨rfl, rfl⟩⟩
    · exact ⟨fun _ => ⟨header, rfl⟩, fun none' => by simp [header] at none'⟩
    · generalize parsed : pouchDownlinkParseHeader cfg (call.handling cfg) state.crypto _ = result
      obtain ⟨outcome, crypto⟩ := result
      refine ⟨fun isHeader => absurd isHeader header, ?_⟩
      cases outcome with
      | error err => exact fun _ => ⟨parseHeader_refused cfg call state.crypto _ err crypto parsed, rfl⟩
      | ok headerLen => simp

theorem turn_effect (call : PushCall Key) (malloc : Option Memory) (push : PushState Key)
    (data : List UInt8) :
    PushEffect push (push.turn (pushTurn cfg (call.handling cfg) malloc push.framing data)) := by
  obtain ⟨behind, refused⟩ := pushTurn_header cfg call malloc push.framing data
  obtain ⟨sent, queue, silent⟩ := turn_queue push (pushTurn cfg (call.handling cfg) malloc push.framing data)
  refine ⟨⟨sent, queue⟩, ?_, ?_⟩
  · rw [turn_header, turn_crypto]
    exact behind
  · rw [turn_header, turn_crypto]
    intro none'
    obtain ⟨same, unsent⟩ := refused none'
    exact ⟨same, by rw [queue, silent unsent, List.append_nil]⟩

theorem loop_effect (call : PushCall Key) (fuel index : Nat) (push : PushState Key) (data : List UInt8) :
    PushEffect push (PushState.loop cfg call fuel index push data) := by
  induction fuel generalizing index push data with
  | zero => exact .refl push
  | succ fuel ih =>
    have turn := turn_effect cfg call (call.malloc index) push data
    simp only [PushState.loop]
    split_ifs
    · exact .refl push
    · exact turn
    · exact turn.trans (ih _ _ _)

end Push

section Decrypt

variable {Key : Type} (cfg : Config)

theorem downlinkBlockDecrypt_announcement (malloc : Option Memory) (psa : PsaAead Key) (state : Saead Key)
    (block : PouchBuf) :
    (downlinkBlockDecrypt cfg malloc psa state block).2.announcement = state.announcement := by
  rcases openBlock_session cfg .server malloc psa state.downlink block with
    ⟨same, failed⟩ | ⟨tag, buf, next, opened⟩
  · simp only [downlinkBlockDecrypt, sessionDecryptBlock, failed, same]
  · simp only [downlinkBlockDecrypt, sessionDecryptBlock, opened, next]
    rfl

theorem decryptBlock_announcement (call : BlockCall Key) (pool : Ledger) (block : Buf) (crypto : Crypto Key) :
    (crypto.decryptBlock cfg call pool block).2.1.announcement = crypto.announcement := by
  cases crypto with
  | none => rfl
  | saead state =>
    exact congrArg some (downlinkBlockDecrypt_announcement cfg call.malloc call.psa state block.data)

theorem decryptBlocks_effect (call : BlockCall Key) (device : Device Key) :
    let next := (device.decryptBlocks cfg call).1
    next.crypto.announcement = device.crypto.announcement ∧
      next.crypto.isPlaintext = device.crypto.isPlaintext ∧
      next.downlink.pouchHeader = device.downlink.pouchHeader ∧
      next.downlink.decryptQueue =
        if device.downlink.decryptWork then device.downlink.decryptQueue.tail
        else device.downlink.decryptQueue := by
  have moved : ∀ decrypted, (device.downlink.decryptBlocks decrypted).pouchHeader = device.downlink.pouchHeader ∧
      (device.downlink.decryptBlocks decrypted).decryptQueue = device.downlink.decryptQueue.tail := by
    intro decrypted
    cases decrypted <;> exact ⟨rfl, rfl⟩
  simp only [Device.decryptBlocks]
  split_ifs
  · split
    · exact ⟨rfl, rfl, (moved none).1, (moved none).2⟩
    · rename_i block rest waiting
      have build := decryptBlock_build cfg call device.pool block device.crypto
      exact ⟨decryptBlock_announcement cfg call device.pool block device.crypto, build, (moved _).1, (moved _).2⟩
  · exact ⟨rfl, rfl, rfl, rfl⟩

end Decrypt

structure OwnPouch {Key : Type} (history : History (PouchRecord Key) (DecryptCall Key)) : Prop where
  build : history.state.device.crypto.isPlaintext = false
  counted : history.state.pouches.length = history.state.device.downlink.decryptQueue.length
  waiting : ∀ pouch ∈ history.state.pouches,
    history.state.announced[pouch]? = some history.state.device.crypto.announcement
  header : history.state.device.downlink.pouchHeader = true →
    history.state.announced.getLast? = some history.state.device.crypto.announcement
  own : ∀ call ∈ history.log, ∃ announcement,
    call.announced = some announcement ∧ call.current = some announcement

def HeadersWait {Key : Type} (cfg : Config) (history : History (PouchRecord Key) (DecryptCall Key)) :
    DownlinkOp Key → Prop
  | .push call data =>
    history.state.accepts (history.state.device.pouchDownlinkPush cfg call data).1 = true →
      history.state.device.downlink.decryptQueue = []
  | _ => True

section Step

variable {Key : Type} {cfg : Config} {history : History (PouchRecord Key) (DecryptCall Key)}

theorem OwnPouch.follow (own : OwnPouch history) (next : Device Key)
    (effect : PushEffect ⟨history.state.device.pool, history.state.device.crypto, history.state.device.downlink⟩
      ⟨next.pool, next.crypto, next.downlink⟩)
    (build : next.crypto.isPlaintext = history.state.device.crypto.isPlaintext)
    (waits : history.state.accepts next = true → history.state.device.downlink.decryptQueue = []) :
    OwnPouch ⟨history.state.follow next, history.log⟩ := by
  obtain ⟨⟨sent, queue⟩, behind, refused⟩ := effect
  simp only at queue behind refused
  have framed : next.downlink.decryptQueue.length - history.state.device.downlink.decryptQueue.length =
      sent.length := by
    rw [queue, List.length_append]
    omega
  have counted := own.counted
  by_cases header : history.state.device.downlink.pouchHeader = true
  · -- The pouch goes on.
    obtain ⟨still, same⟩ := behind header
    have last := own.header header
    have continues : history.state.accepts next = false := by simp [PouchRecord.accepts, header]
    simp only [PouchRecord.follow, continues, framed, Bool.false_eq_true, if_false]
    refine ⟨build.trans own.build, ?_, ?_, fun _ => ?_, own.own⟩
    · simp [queue, counted]
    · simp only [List.mem_append, List.mem_replicate, same]
      rintro pouch (old | ⟨_, rfl⟩)
      · exact own.waiting pouch old
      · rw [← List.getLast?_eq_getElem?]
        exact last
    · rw [same]
      exact last
  by_cases accepted : next.downlink.pouchHeader = true
  · -- A new pouch, with no block left of the one before.
    have accepts : history.state.accepts next = true := by simp [PouchRecord.accepts, header, accepted]
    have emptied := waits accepts
    have none' : history.state.pouches = [] := by
      apply List.eq_nil_of_length_eq_zero
      rw [counted, emptied]
      rfl
    simp only [PouchRecord.follow, accepts, framed, if_true]
    refine ⟨build.trans own.build, ?_, ?_, ?_, own.own⟩
    · simp [queue, none', emptied]
    · simp [none']
    · simp
  · rw [Bool.not_eq_true] at accepted
    obtain ⟨same, sameQueue⟩ := refused accepted
    have unsent : sent = [] := by simpa [queue] using sameQueue
    have refuses : history.state.accepts next = false := by simp [PouchRecord.accepts, accepted]
    simp only [PouchRecord.follow, refuses, framed, Bool.false_eq_true, if_false]
    refine ⟨build.trans own.build, ?_, ?_, ?_, own.own⟩
    · simp [queue, unsent, counted]
    · simp only [unsent, List.length_nil, List.replicate_zero, List.append_nil, same]
      exact own.waiting
    · simp [accepted]

theorem OwnPouch.push (own : OwnPouch history) (call : PushCall Key) (data : List UInt8)
    (waits : HeadersWait cfg history (.push call data)) :
    OwnPouch ⟨history.state.follow (history.state.device.pouchDownlinkPush cfg call data).1, history.log⟩ := by
  have effect := loop_effect cfg call data.length 0
    ⟨history.state.device.pool, history.state.device.crypto, history.state.device.downlink⟩ data
  have build := loop_build cfg call data.length 0
    ⟨history.state.device.pool, history.state.device.crypto, history.state.device.downlink⟩ data
  exact own.follow _ effect build waits

theorem OwnPouch.decrypt (own : OwnPouch history) (call : BlockCall Key) :
    OwnPouch ⟨(history.state.decrypt cfg call).1, history.log ++ (history.state.decrypt cfg call).2⟩ := by
  obtain ⟨same, build, header, queue⟩ := decryptBlocks_effect cfg call history.state.device
  have counted := own.counted
  have isSaead := own.build
  unfold PouchRecord.decrypt
  generalize (history.state.device.decryptBlocks cfg call).1 = next at *
  split_ifs with pending
  · rw [if_pos pending] at queue
    cases waiting : history.state.pouches with
    | nil =>
      rw [waiting, List.length_nil] at counted
      have emptied := List.eq_nil_of_length_eq_zero counted.symm
      refine ⟨build.trans isSaead, by simp [queue, emptied], by simp, ?_, by simpa using own.own⟩
      rw [header, same]
      exact own.header
    | cons pouch rest =>
      have announced := own.waiting pouch (by rw [waiting]; exact List.mem_cons_self)
      refine ⟨build.trans isSaead, ?_, ?_, ?_, ?_⟩
      · simp only [queue, List.length_tail, ← counted, waiting, List.length_cons, Nat.add_sub_cancel]
      · rw [same]
        exact fun other member => own.waiting other (by rw [waiting]; exact List.mem_cons_of_mem pouch member)
      · rw [header, same]
        exact own.header
      · simp only [List.mem_append, List.mem_singleton]
        rintro reported (old | rfl)
        · exact own.own reported old
        · simp only [List.getD_eq_getElem?_getD, announced, Option.getD_some, and_self]
          cases crypto : history.state.device.crypto with
          | none => simp [crypto, Crypto.isPlaintext] at isSaead
          | saead state => exact ⟨state.announcement, rfl⟩
  · rw [if_neg pending] at queue
    refine ⟨build.trans isSaead, by rw [queue]; exact counted, ?_, ?_, by simpa using own.own⟩
    · rw [same]
      exact own.waiting
    · rw [header, same]
      exact own.header

theorem OwnPouch.step (op : DownlinkOp Key) (waits : HeadersWait cfg history op) (own : OwnPouch history) :
    OwnPouch (history.record (PouchRecord.step cfg) op) := by
  cases op with
  | start malloc =>
    simp only [History.record, PouchRecord.step, List.append_nil]
    exact ⟨own.build, own.counted, own.waiting, fun absent => Bool.noConfusion absent, own.own⟩
  | push call data =>
    simp only [History.record, PouchRecord.step, List.append_nil]
    exact own.push call data waits
  | decrypt call => exact own.decrypt call
  | consume =>
    have kept : history.state.device.consumeBlocks.1.crypto = history.state.device.crypto ∧
        history.state.device.consumeBlocks.1.downlink.pouchHeader = history.state.device.downlink.pouchHeader ∧
        history.state.device.consumeBlocks.1.downlink.decryptQueue =
          history.state.device.downlink.decryptQueue := by
      simp only [Device.consumeBlocks]
      split_ifs
      · split <;> exact ⟨rfl, rfl, rfl⟩
      · exact ⟨rfl, rfl, rfl⟩
    obtain ⟨crypto, header, queue⟩ := kept
    simp only [History.record, PouchRecord.step, List.append_nil]
    refine ⟨by rw [crypto]; exact own.build, by rw [queue]; exact own.counted, ?_, ?_, own.own⟩
    · rw [crypto]
      exact own.waiting
    · rw [crypto, header]
      exact own.header

end Step

-- Headers of one byte, which is in the session ID and is the pouch ID.
def byteHeader (raw : List UInt8) : Option (EncryptionInfo × Nat) :=
  raw.head?.map fun byte =>
    (.saead ⟨.random (List.replicate 16 byte), .server, .aesGcm, 9⟩ byte.toUInt16, 1)

def pushBytes (data : List UInt8) : DownlinkOp Unit :=
  .push ⟨byteHeader, ⟨fun _ _ _ => some (), some⟩, fun _ => some fun _ => 0⟩ data

def startDownload : DownlinkOp Unit := .start (some fun _ => 0)

def decryptNext : DownlinkOp Unit := .decrypt ⟨some fun _ => 0, fun _ => none⟩

def recordRun (ops : List (DownlinkOp Unit)) : History (PouchRecord Unit) (DecryptCall Unit) :=
  History.run (PouchRecord.step (defaultConfig .saead)) ⟨.boot Unit (defaultConfig .saead), []⟩ ops

def promptOps : List (DownlinkOp Unit) :=
  [startDownload, pushBytes [1, 0, 1, 0], decryptNext, startDownload, pushBytes [2, 0, 1, 0], decryptNext]

-- The worker comes to the block only after the next download has begun.
def lateOps : List (DownlinkOp Unit) :=
  [startDownload, pushBytes [1, 0, 1, 0], startDownload, pushBytes [2], decryptNext]

end Pouch
