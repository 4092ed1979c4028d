import Pouch.FramingSoundness

set_option autoImplicit false

/-!
# What is passed on of arbitrary input

Nothing is passed on that was not pushed in that order, and after an error there is nothing at all until
the next pouch.
-/

namespace Pouch

open ByteMemory

section Halted

variable {Info Crypto : Type} (cfg : Config)

def OversizedFront (downlink : Downlink Crypto) : Prop :=
  downlink.pouchHeader = true ∧ ∃ buf size, downlink.pouchBuf = some buf ∧ sizeField buf = some size ∧
    cfg.maxBlockSizeFieldValue < size

def FullWithoutHeader (downlink : Downlink Crypto) : Prop :=
  downlink.pouchHeader = false ∧ ∃ buf, downlink.pouchBuf = some buf ∧ cfg.maxCiphertextBlockSize ≤ buf.bytes

def Halted (downlink : Downlink Crypto) : Prop :=
  downlink.pouchBuf = none ∨ OversizedFront cfg downlink ∨ FullWithoutHeader cfg downlink

theorem sizeField_grown {buf written : PouchBuf} {size : Nat} (field : sizeField buf = some size)
    (grown : ∃ more, written.contents = buf.contents ++ more) :
    2 ≤ buf.bytes ∧ sizeField written = some size := by
  obtain ⟨more, grown⟩ := grown
  have length := buf.contents_length
  match whole : buf.contents with
  | [] | [_] => simp [sizeField, whole] at field
  | high :: low :: others =>
    rw [whole] at length grown
    simp only [sizeField, whole] at field
    refine ⟨?_, ?_⟩
    · simp at length
      omega
    · simpa [sizeField, grown] using field

theorem Turned.halted {handling : HeaderHandling Info Crypto} {malloc : Option Memory}
    {state : Downlink Crypto} {data : List UInt8} {view : TurnView} {turn : PushTurn Crypto}
    (turned : Turned cfg handling malloc state data view turn) (more : data ≠ [])
    (halted : Halted cfg state) : Halted cfg turn.state ∧ view.header = none ∧ turn.sent = [] := by
  cases turned with
  | missing absent => exact ⟨halted, rfl, rfl⟩
  | full buf held noRoom => exact ⟨halted, rfl, rfl⟩
  | undecoded buf written unread next held room header copied =>
    rcases halted with absent | ⟨hasHeader, _⟩ | ⟨_, other, same, full⟩
    · simp [held] at absent
    · simp [header] at hasHeader
    · obtain rfl := Option.some.inj (held.symm.trans same)
      omega
  | header buf written unread next info headerLen pushed held room header copied decoded cut =>
    rcases halted with absent | ⟨hasHeader, _⟩ | ⟨_, other, same, full⟩
    · simp [held] at absent
    · simp [header] at hasHeader
    · obtain rfl := Option.some.inj (held.symm.trans same)
      omega
  | blocks buf written unread pushed held room header copied cut =>
    rcases halted with absent | ⟨_, other, size, same, field, large⟩ | ⟨noHeader, _⟩
    · simp [held] at absent
    · obtain rfl := Option.some.inj (held.symm.trans same)
      obtain ⟨two, still⟩ := sizeField_grown field copied.grown
      have longer := copied.grows more
      have leading : leadingSize written = size := by simp [leadingSize, still]
      cases cut with
      | waiting short => omega
      | oversized => exact ⟨.inr (.inl ⟨rfl, written, size, rfl, still, large⟩), rfl, rfl⟩
      | uncut => omega
      | cut => omega
    · simp [header] at noHeader

def FramingOp.isStart : FramingOp Info Crypto → Bool
  | .start _ => true
  | _ => false

theorem framingStep_halted (receiving : Receiving Crypto) (op : FramingOp Info Crypto)
    (noStart : op.isStart = false) (halted : Halted cfg receiving.downlink) :
    Halted cfg (framingStep cfg receiving op).1.downlink ∧
      handedBlocks (framingStep cfg receiving op).2 = [] := by
  cases op with
  | start malloc => simp [FramingOp.isStart] at noStart
  | push data =>
    simp only [framingStep]
    split_ifs
    · exact ⟨halted, rfl⟩
    · exact ⟨halted, rfl⟩
  | crypto next => exact ⟨halted, rfl⟩
  | turn decoding malloc =>
    by_cases idle : receiving.unread = []
    next =>
      simp only [framingStep, idle, if_true]
      exact ⟨halted, rfl⟩
    next =>
      have turned := pushTurn_turned cfg decoding.toHeaderHandling malloc receiving.downlink receiving.unread
      obtain ⟨still, _, silent⟩ := turned.halted cfg idle halted
      simp only [framingStep, idle, if_false, handedBlocks_turnEvents]
      exact ⟨still, silent⟩

theorem run_halted (receiving : Receiving Crypto) (ops : List (FramingOp Info Crypto))
    (noStart : ∀ op ∈ ops, op.isStart = false) (halted : Halted cfg receiving.downlink) :
    handedBlocks (History.run (framingStep cfg) ⟨receiving, []⟩ ops).log = [] := by
  have final := History.run_invariant (framingStep cfg) (fun _ op => op.isStart = false)
    (fun reached => Halted cfg reached.state.downlink ∧ handedBlocks reached.log = []) ⟨receiving, []⟩ ops
    ⟨halted, rfl⟩ ((History.meets_iff_forall _ _ _ _).mpr noStart) ?_
  · exact final.2
  · rintro reached op still ⟨before, silent⟩
    obtain ⟨after, quiet⟩ := framingStep_halted cfg reached.state op still before
    exact ⟨after, by simp [History.record, silent, quiet]⟩

end Halted

section Sessions

@[simp] theorem pushedBytes_append (first second : List FramingEvent) :
    pushedBytes (first ++ second) = pushedBytes first ++ pushedBytes second :=
  List.flatMap_append

@[simp] theorem handedBytes_append (first second : List FramingEvent) :
    handedBytes (first ++ second) = handedBytes first ++ handedBytes second := by
  simp [handedBytes]

@[simp] theorem acceptedHeader_append (first second : List FramingEvent) :
    acceptedHeader (first ++ second) = (acceptedHeader first).or (acceptedHeader second) :=
  List.findSome?_append

variable {Crypto : Type} (view : TurnView) (turn : PushTurn Crypto)

@[simp] theorem pushedBytes_turnEvents : pushedBytes (turnEvents view turn) = [] := by
  simp [pushedBytes, turnEvents, List.flatMap_map]

@[simp] theorem handedBytes_turnEvents :
    handedBytes (turnEvents view turn) = turn.sent.flatMap PouchBuf.contents := by
  simp [handedBytes]

@[simp] theorem acceptedHeader_turnEvents : acceptedHeader (turnEvents view turn) = view.header := by
  have blocks : acceptedHeader (turn.sent.map .sent) = none := by
    simp [acceptedHeader, List.findSome?_map]
  rw [turnEvents, acceptedHeader_append, blocks, Option.or_none]
  cases view.header <;> rfl

end Sessions

section Delivered

variable {Info Crypto : Type} {cfg : Config}

-- Nothing was dropped: what was pushed behind the header is what was passed on, then what is in the
-- buffer, then what the current call has still to take in.
def InSync (cfg : Config) (receiving : Receiving Crypto) (header : Option Nat) (pushed handed : List UInt8) :
    Prop :=
  ∃ buf, receiving.downlink.pouchBuf = some buf ∧ buf.bytes < cfg.maxCiphertextBlockSize ∧
    receiving.downlink.pouchHeader = header.isSome ∧ header.getD 0 ≤ pushed.length ∧
    pushed.drop (header.getD 0) = handed ++ buf.contents ++ receiving.unread

structure Delivered (cfg : Config) (receiving : Receiving Crypto) (session : List FramingEvent) : Prop where
  behindHeader : handedBytes session <+: (pushedBytes session).drop ((acceptedHeader session).getD 0)
  unheaded : acceptedHeader session = none → handedBytes session = []
  state : Halted cfg receiving.downlink ∨
    InSync cfg receiving (acceptedHeader session) (pushedBytes session) (handedBytes session)

theorem Cut.delivers {malloc : Option Memory} {front : PouchBuf} {pushed : PushedBlock}
    (cut : Cut cfg malloc front pushed) (within : front.bytes ≤ cfg.maxCiphertextBlockSize)
    (stream handed unread : List UInt8) (split : stream = handed ++ front.contents ++ unread) (crypto : Crypto) :
    handed ++ pushed.sent.flatMap PouchBuf.contents <+: stream ∧
      (Halted cfg (⟨pushed.pouchBuf, true, crypto⟩ : Downlink Crypto) ∨
        ∃ next, pushed.pouchBuf = some next ∧ next.bytes < cfg.maxCiphertextBlockSize ∧
          pushed.returned = false ∧
          stream = handed ++ pushed.sent.flatMap PouchBuf.contents ++ next.contents ++ unread) := by
  have room : 4 ≤ cfg.maxCiphertextBlockSize :=
    cfg.maxPlaintextBlockSize_ge.trans (Nat.le_add_right _ _)
  have field : cfg.maxBlockSizeFieldValue + 2 = cfg.maxCiphertextBlockSize := by
    simp only [Config.maxBlockSizeFieldValue]
    omega
  cases cut with
  | waiting short =>
    have notFull : front.bytes < cfg.maxCiphertextBlockSize := by omega
    exact ⟨by simp [split], .inr ⟨front, rfl, notFull, rfl, by simpa using split⟩⟩
  | oversized two large =>
    obtain ⟨high, low, rest, whole, _⟩ := contents_split two
    have size : sizeField front = some (leadingSize front) := by simp [leadingSize, sizeField, whole]
    exact ⟨by simp [split], .inl (.inr (.inl ⟨rfl, front, _, rfl, size, large⟩))⟩
  | uncut two supported complete failed => exact ⟨by simp [split], .inl (.inl rfl)⟩
  | cut memory next sent allocated supported sized joined =>
    have lengths := congrArg List.length joined
    simp only [List.length_append, PouchBuf.contents_length] at lengths
    refine ⟨by simp [split, ← joined], .inr ⟨next, rfl, by omega, rfl, ?_⟩⟩
    simp [split, ← joined]

theorem Cut.delivered {malloc : Option Memory} {front : PouchBuf} {pushed : PushedBlock}
    (cut : Cut cfg malloc front pushed) (within : front.bytes ≤ cfg.maxCiphertextBlockSize)
    (view : TurnView) (unread : List UInt8) (crypto : Crypto) (session : List FramingEvent) (headerLen : Nat)
    (accepted : (acceptedHeader session).or view.header = some headerLen)
    (inside : headerLen ≤ (pushedBytes session).length)
    (split : (pushedBytes session).drop headerLen = handedBytes session ++ front.contents ++ unread) :
    let turn : PushTurn Crypto := ⟨⟨pushed.pouchBuf, true, crypto⟩, unread, pushed.sent, pushed.returned⟩
    Delivered cfg ⟨turn.state, if turn.returned then [] else turn.unread⟩
      (session ++ turnEvents view turn) := by
  intro turn
  obtain ⟨passed, after⟩ := cut.delivers within _ _ _ split crypto
  refine ⟨by simpa [turn, accepted] using passed, by simp [accepted], ?_⟩
  rcases after with halted | ⟨next, isNext, room, continues, split⟩
  · exact .inl halted
  · right
    refine ⟨next, isNext, room, by simp [turn, accepted], by simpa [accepted] using inside, ?_⟩
    simpa [turn, accepted, continues] using split

theorem Turned.delivers {handling : HeaderHandling Info Crypto} {malloc : Option Memory}
    {receiving : Receiving Crypto} {view : TurnView} {turn : PushTurn Crypto} {session : List FramingEvent}
    (turned : Turned cfg handling malloc receiving.downlink receiving.unread view turn)
    (decodes : ∀ raw info headerLen, handling.cborDecodePouchHeader raw = some (info, headerLen) →
      headerLen ≤ raw.length)
    (more : receiving.unread ≠ []) (delivered : Delivered cfg receiving session) :
    Delivered cfg ⟨turn.state, if turn.returned then [] else turn.unread⟩
      (session ++ turnEvents view turn) := by
  rcases delivered.state with halted | ⟨held, isHeld, notFull, hasHeader, inside, split⟩
  · obtain ⟨still, unheaded, silent⟩ := turned.halted cfg more halted
    refine ⟨?_, ?_, .inl still⟩
    · simpa [unheaded, silent] using delivered.behindHeader
    · simpa [unheaded, silent] using delivered.unheaded
  cases turned with
  | missing absent => simp [isHeld] at absent
  | full buf same noRoom =>
    obtain rfl := Option.some.inj (isHeld.symm.trans same)
    omega
  | undecoded buf written unread next same room noHeader copied =>
    obtain rfl := Option.some.inj (isHeld.symm.trans same)
    have none' : acceptedHeader session = none := by simpa [noHeader] using hasHeader.symm
    have silent := delivered.unheaded none'
    have joined := copied.joined
    refine ⟨by simpa using delivered.behindHeader, by simpa using delivered.unheaded, ?_⟩
    by_cases full : written.bytes = cfg.maxCiphertextBlockSize
    next => exact .inl (.inr (.inr ⟨rfl, written, rfl, Nat.le_of_eq full.symm⟩))
    next =>
      have all : unread = [] := by
        by_contra left
        exact full (copied.full left)
      have within := copied.within
      right
      refine ⟨written, rfl, by omega, by simp [none'], by simp [none'], ?_⟩
      rw [all, List.append_nil] at joined
      simp only [none', Option.getD_none, List.drop_zero, silent, List.nil_append] at split
      simp [none', silent, joined, split]
  | header buf written unread next info headerLen pushed same room noHeader copied decoded cut =>
    obtain rfl := Option.some.inj (isHeld.symm.trans same)
    have none' : acceptedHeader session = none := by simpa [noHeader] using hasHeader.symm
    have silent := delivered.unheaded none'
    have part := decodes written.contents info headerLen decoded
    simp only [none', Option.getD_none, List.drop_zero, silent, List.nil_append] at split
    rw [← copied.joined] at split
    refine cut.delivered ((bufTrimStart_le _ _).trans copied.within) _ unread next session headerLen
      (by simp [none']) ?_ ?_
    · rw [split, List.length_append]
      omega
    · rw [split, silent, bufTrimStart_contents, List.drop_append_of_le_length part, List.nil_append]
  | blocks buf written unread pushed same room header copied cut =>
    obtain rfl := Option.some.inj (isHeld.symm.trans same)
    rw [header] at hasHeader
    obtain ⟨headerLen, accepted⟩ := Option.isSome_iff_exists.mp hasHeader.symm
    simp only [accepted, Option.getD_some] at inside split
    rw [List.append_assoc, ← copied.joined, ← List.append_assoc] at split
    exact cut.delivered copied.within _ unread _ session headerLen (by simp [accepted]) inside split

theorem turnEvents_others (view : TurnView) (turn : PushTurn Crypto) :
    ∀ event ∈ turnEvents view turn, event.isStart = false := by
  simp [turnEvents, or_imp, forall_and, FramingEvent.isStart]

theorem Delivered.pushed {receiving : Receiving Crypto} {session : List FramingEvent}
    (delivered : Delivered cfg receiving session) (idle : receiving.unread = []) (data : List UInt8) :
    Delivered cfg { receiving with unread := data } (session ++ [.pushed data]) := by
  have sent : handedBytes [.pushed data] = [] := rfl
  have taken : pushedBytes [.pushed data] = data := List.append_nil data
  have header : acceptedHeader [.pushed data] = none := rfl
  obtain ⟨behindHeader, unheaded, state⟩ := delivered
  refine ⟨?_, by simpa [sent, header] using unheaded, ?_⟩
  · simp only [handedBytes_append, sent, List.append_nil, pushedBytes_append, acceptedHeader_append, header,
      Option.or_none, List.drop_append]
    exact behindHeader.trans (List.prefix_append _ _)
  · rcases state with halted | ⟨buf, held, room, hasHeader, inside, split⟩
    · exact .inl halted
    · right
      refine ⟨buf, held, room, by simpa [header] using hasHeader, ?_, ?_⟩
      · simp only [acceptedHeader_append, header, Option.or_none, pushedBytes_append, List.length_append]
        omega
      · simp only [acceptedHeader_append, header, Option.or_none, pushedBytes_append, taken,
          handedBytes_append, sent, List.append_nil, List.drop_append_of_le_length inside, split, idle]

theorem framingStep_delivered (reached : History (Receiving Crypto) FramingEvent) (op : FramingOp Info Crypto)
    (delivered : Delivered cfg reached.state (sinceStart reached.log)) :
    let next := History.record (framingStep cfg) reached op
    Delivered cfg next.state (sinceStart next.log) := by
  intro next
  have quiet (same : (framingStep cfg reached.state op).2 = [])
      (kept : Delivered cfg (framingStep cfg reached.state op).1 (sinceStart reached.log)) :
      Delivered cfg next.state (sinceStart next.log) := by
    simpa [next, History.record, same] using kept
  cases op with
  | start malloc =>
    by_cases idle : reached.state.unread = []
    next =>
      have begun : sinceStart (reached.log ++ [.started]) = [] := History.since_mark _ _ _ rfl
      simp only [next, History.record, framingStep, idle, if_true, begun]
      refine ⟨List.nil_prefix, fun _ => rfl, ?_⟩
      cases malloc with
      | none => exact .inl (.inl rfl)
      | some memory => exact .inr ⟨⟨0, memory⟩, rfl, cfg.maxCiphertextBlockSize_pos, rfl, Nat.le_refl _, rfl⟩
    next => exact quiet (by simp [framingStep, idle]) (by simpa [framingStep, idle] using delivered)
  | push data =>
    by_cases idle : reached.state.unread = []
    next =>
      have added : sinceStart (reached.log ++ [.pushed data]) = sinceStart reached.log ++ [.pushed data] :=
        History.since_other _ _ _ rfl
      simp only [next, History.record, framingStep, idle, if_true, added]
      exact delivered.pushed idle data
    next => exact quiet (by simp [framingStep, idle]) (by simpa [framingStep, idle] using delivered)
  | crypto other => exact quiet rfl ⟨delivered.behindHeader, delivered.unheaded, delivered.state⟩
  | turn decoding malloc =>
    by_cases idle : reached.state.unread = []
    next => exact quiet (by simp [framingStep, idle]) (by simpa [framingStep, idle] using delivered)
    next =>
      have turned := pushTurn_turned cfg decoding.toHeaderHandling malloc reached.state.downlink
        reached.state.unread
      have added := History.since_others FramingEvent.isStart reached.log _ (turnEvents_others
        (turnView cfg decoding.toHeaderHandling reached.state.downlink reached.state.unread)
        (pushTurn cfg decoding.toHeaderHandling malloc reached.state.downlink reached.state.unread))
      simp only [next, History.record, framingStep, idle, if_false, sinceStart, added]
      exact turned.delivers decoding.within idle delivered

theorem run_delivered (crypto : Crypto) (ops : List (FramingOp Info Crypto)) :
    let reached := History.run (framingStep cfg) ⟨.boot crypto, []⟩ ops
    Delivered cfg reached.state (sinceStart reached.log) := by
  apply History.run_invariant (framingStep cfg) (fun _ _ => True)
    (fun reached => Delivered cfg reached.state (sinceStart reached.log))
  · exact ⟨List.nil_prefix, fun _ => rfl, .inl (.inl rfl)⟩
  · exact History.meets_of_forall _ _ _ _ fun _ _ _ => trivial
  · intro reached op _ delivered
    exact framingStep_delivered reached op delivered

end Delivered

/-- At every moment, the blocks passed on since the last start are the beginning of what was pushed behind
the header; and none follows an unsupported size, or a buffer that is full without a header. -/
theorem arbitrary_input_framed {Info Crypto : Type} (cfg : Config) (crypto : Crypto)
    (ops : List (FramingOp Info Crypto)) :
    let reached := History.run (framingStep cfg) ⟨.boot crypto, []⟩ ops
    let session := sinceStart reached.log
    (acceptedHeader session = none → handedBytes session = []) ∧
      handedBytes session <+: (pushedBytes session).drop ((acceptedHeader session).getD 0) ∧
      (OversizedFront cfg reached.state.downlink ∨ FullWithoutHeader cfg reached.state.downlink →
        ∀ more : List (FramingOp Info Crypto), (∀ op ∈ more, op.isStart = false) →
          handedBlocks (History.run (framingStep cfg) ⟨reached.state, []⟩ more).log = []) := by
  intro reached session
  have delivered : Delivered cfg reached.state session := run_delivered crypto ops
  refine ⟨delivered.unheaded, delivered.behindHeader, ?_⟩
  intro error more noStart
  exact run_halted cfg reached.state more noStart (.inr error)

end Pouch
