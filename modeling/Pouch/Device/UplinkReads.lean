import Pouch.Device.UplinkFifo

set_option autoImplicit false

namespace Pouch

open ByteMemory

def Outgoing.bytes (packet : Outgoing) : List UInt8 := packet.buf.data.contents

def Uplink.remainder (uplink : Uplink) : List UInt8 :=
  match uplink.reader with
  | none => []
  | some packet => packet.bytes.drop uplink.offset

def Uplink.unread (uplink : Uplink) : List UInt8 :=
  uplink.remainder ++ uplink.transport.flatMap Outgoing.bytes

/-- The sizes of buffers are `size_t`s, and a buffer does not stay in the reader once it is read. -/
structure Uplink.Readable (cfg : Config) (uplink : Uplink) : Prop where
  sized : ∀ packet ∈ uplink.reader.toList ++ uplink.transport, packet.buf.data.bytes < cfg.sizeRange
  inside : ∀ packet, uplink.reader = some packet → uplink.offset < packet.buf.data.bytes

theorem take_resume {α : Type} (front rest : List α) (count : Nat) :
    front.take count ++ (front.drop count ++ rest).take (count - (front.take count).length) =
      (front ++ rest).take count := by
  by_cases short : count ≤ front.length
  next =>
    rw [List.length_take, Nat.min_eq_left short, Nat.sub_self, List.take_zero, List.append_nil,
      List.take_append_of_le_length short]
  next =>
    have all : front.drop count = [] := List.drop_eq_nil_of_le (by omega)
    rw [all, List.nil_append, List.length_take, Nat.min_eq_right (by omega), List.take_append]

theorem drop_resume {α : Type} (front rest : List α) (count : Nat) :
    (front.drop count ++ rest).drop (count - (front.take count).length) = (front ++ rest).drop count := by
  by_cases short : count ≤ front.length
  next =>
    rw [List.length_take, Nat.min_eq_left short, Nat.sub_self, List.drop_zero,
      List.drop_append_of_le_length short]
  next =>
    have all : front.drop count = [] := List.drop_eq_nil_of_le (by omega)
    rw [all, List.nil_append, List.length_take, Nat.min_eq_right (by omega), List.drop_append, all,
      List.nil_append]

section Loop

variable {Key : Type} {cfg : Config} {device : Device Key} {packet : Outgoing}

theorem Uplink.view_at (uplink : Uplink) (held : uplink.reader = some packet)
    (within : uplink.offset ≤ packet.buf.data.bytes) : uplink.view.At packet.buf.data uplink.remainder := by
  have remainder : uplink.remainder = packet.bytes.drop uplink.offset := by simp [remainder, held]
  constructor
  next => simp [Uplink.view, held]
  next =>
    simp only [remainder, Outgoing.bytes, List.length_drop, PouchBuf.contents_length, Uplink.view]
    omega
  next => exact remainder.symm

theorem Uplink.Readable.available {uplink : Uplink} (readable : uplink.Readable cfg)
    (held : uplink.reader = some packet) : 0 < pouchBufviewAvailable cfg uplink.view := by
  have inside := readable.inside packet held
  have at' := uplink.view_at held (Nat.le_of_lt inside)
  have within := at'.within
  have offset : uplink.view.offset = uplink.offset := rfl
  rw [at'.available (readable.sized packet (by simp [held]))]
  omega

theorem Bufview.At.memcpy {view : Bufview} {buf : PouchBuf} {rest : List UInt8} (at' : view.At buf rest)
    (fits : buf.bytes < cfg.sizeRange) (count : Nat) :
    (pouchBufviewMemcpy cfg view count).1 = rest.take count ∧
      (pouchBufviewMemcpy cfg view count).2.At buf (rest.drop count) := by
  have within : min count rest.length ≤ rest.length := Nat.min_le_right _ _
  have advanced := at'.advance fits (min count rest.length) within
  simp only [pouchBufviewMemcpy, at'.available fits]
  constructor
  next =>
    have loaded := at'.loaded_take (min count rest.length) within
    rw [← List.take_take, List.take_length] at loaded
    exact loaded
  next =>
    have same : rest.drop (min count rest.length) = rest.drop count := by
      by_cases short : count ≤ rest.length
      next => rw [Nat.min_eq_left short]
      next => rw [Nat.min_eq_right (by omega), List.drop_length, List.drop_eq_nil_of_le (by omega)]
    rwa [same] at advanced

structure CopiesOut (cfg : Config) (left : Nat) (packet : Outgoing) (device : Device Key) (copied : Reading Key) :
    Prop where
  output : copied.output = device.uplink.remainder.take left
  remainder : copied.device.uplink.remainder = device.uplink.remainder.drop left
  transport : copied.device.uplink.transport = device.uplink.transport
  reader : ∀ other, copied.device.uplink.reader = some other →
    other = packet ∧ copied.device.uplink.offset < packet.buf.data.bytes

theorem fillCopy_copiesOut (left : Nat) (held : device.uplink.reader = some packet)
    (within : device.uplink.offset ≤ packet.buf.data.bytes) (sized : packet.buf.data.bytes < cfg.sizeRange) :
    CopiesOut cfg left packet device (fillCopy cfg left packet device) := by
  have copies := (device.uplink.view_at held within).memcpy sized left
  have source : (pouchBufviewMemcpy cfg device.uplink.view left).2.buf = some packet.buf.data := copies.2.source
  simp only [fillCopy]
  generalize pouchBufviewMemcpy cfg device.uplink.view left = result at copies source ⊢
  obtain ⟨bytes, view⟩ := result
  have available := copies.2.available sized
  have rest := copies.2.remaining
  have inside := copies.2.within
  simp only at copies source available rest inside ⊢
  split_ifs with exhausted
  · have emptied : device.uplink.remainder.drop left = [] := by
      rw [available] at exhausted
      exact List.eq_nil_of_length_eq_zero exhausted
    exact ⟨copies.1, emptied.symm, rfl, by simp⟩
  · constructor
    next => exact copies.1
    next =>
      simp only [Uplink.remainder, held] at rest ⊢
      exact rest
    next => rfl
    next =>
      intro other found
      have same : other = packet := by simpa [held] using found.symm
      rw [available] at exhausted
      exact ⟨same, by simp only; omega⟩

structure ReadsOut (cfg : Config) (left : Nat) (unread : List UInt8) (reading : Reading Key) : Prop where
  output : reading.output = unread.take left
  rest : reading.device.uplink.unread = unread.drop left
  readable : reading.device.uplink.Readable cfg
  emptied : reading.output.length < left →
    reading.device.uplink.reader = none ∧ reading.device.uplink.transport = []

theorem CopiesOut.readable {left : Nat} {copied : Reading Key} (copies : CopiesOut cfg left packet device copied)
    (sized : packet.buf.data.bytes < cfg.sizeRange)
    (others : ∀ other ∈ device.uplink.transport, other.buf.data.bytes < cfg.sizeRange) :
    copied.device.uplink.Readable cfg := by
  constructor
  next =>
    intro other member
    rw [copies.transport, List.mem_append, Option.mem_toList] at member
    rcases member with held | waiting
    next => simpa [(copies.reader other held).1] using sized
    next => exact others other waiting
  next =>
    intro other held
    obtain ⟨rfl, inside⟩ := copies.reader other held
    exact inside

theorem CopiesOut.resume {left : Nat} {copied rest : Reading Key} {events : List Event}
    (copies : CopiesOut cfg left packet device copied)
    (reads : ReadsOut cfg (left - copied.output.length) copied.device.uplink.unread rest) :
    ReadsOut cfg left device.uplink.unread ⟨rest.device, copied.output ++ rest.output, events⟩ := by
  have unread : copied.device.uplink.unread =
      device.uplink.remainder.drop left ++ device.uplink.transport.flatMap Outgoing.bytes := by
    rw [Uplink.unread, copies.remainder, copies.transport]
  constructor
  next =>
    rw [reads.output, unread, copies.output, take_resume]
    rfl
  next =>
    rw [reads.rest, unread, copies.output, drop_resume]
    rfl
  next => exact reads.readable
  next =>
    intro short
    apply reads.emptied
    simp only [List.length_append] at short
    omega

theorem ReadsOut.nothing (readable : device.uplink.Readable cfg) (left : Nat)
    (done : left = 0 ∨ device.uplink.reader = none ∧ device.uplink.transport = []) :
    ReadsOut cfg left device.uplink.unread ⟨device, [], []⟩ := by
  rcases done with rfl | ⟨free, queue⟩
  next => exact ⟨by simp, by simp, readable, by simp⟩
  next =>
    have unread : device.uplink.unread = [] := by simp [Uplink.unread, Uplink.remainder, free, queue]
    exact ⟨by simp [unread], by simp [unread], readable, fun _ => ⟨free, queue⟩⟩

theorem fillLoop_readsOut (fuel left : Nat) (device : Device Key) (readable : device.uplink.Readable cfg)
    (enough : left + device.uplink.transport.length ≤ fuel) :
    ReadsOut cfg left device.uplink.unread (fillLoop cfg fuel left device) := by
  induction fuel generalizing left device with
  | zero => exact .nothing readable left (.inl (by omega))
  | succ fuel ih =>
    simp only [fillLoop]
    split_ifs with done ready
    · exact .nothing readable left (.inl done)
    · cases held : device.uplink.reader with
      | none => simp [Uplink.isReady, held] at ready
      | some packet =>
        have sized := readable.sized packet (by simp [held])
        have copies := fillCopy_copiesOut left held (Nat.le_of_lt (readable.inside packet held)) sized
        have next := copies.readable sized fun other waiting => readable.sized other (by simp [waiting])
        refine copies.resume (ih _ _ next ?_)
        have progress := fillCopy_progress cfg left packet device
        have available : 0 < pouchBufviewAvailable cfg device.uplink.view := by
          simpa [Uplink.isReady, held] using ready
        rw [progress.1, progress.2]
        omega
    · have free : device.uplink.reader = none := by
        cases held : device.uplink.reader with
        | none => rfl
        | some packet =>
          have available := readable.available held
          simp [Uplink.isReady, held, available] at ready
      cases queue : device.uplink.transport with
      | nil => exact .nothing readable left (.inr ⟨free, queue⟩)
      | cons packet rest =>
        have sized := readable.sized packet (by simp [queue])
        let taken : Device Key :=
          { device with
            uplink := { device.uplink with transport := rest, reader := some packet, offset := 0 } }
        have copies : CopiesOut cfg left packet taken (fillCopy cfg left packet taken) :=
          fillCopy_copiesOut left rfl (Nat.zero_le _) sized
        have next := copies.readable sized fun other waiting =>
          readable.sized other (by simp [queue, show other ∈ rest from waiting])
        have unread : taken.uplink.unread = device.uplink.unread := by
          simp [taken, Uplink.unread, Uplink.remainder, free, queue]
        rw [← unread]
        refine copies.resume (ih _ _ next ?_)
        rw [copies.transport]
        simp only [queue, List.length_cons] at enough
        simp only [taken]
        omega

end Loop

section Calls

variable {Key : Type} (cfg : Config)

def Uplink.offered (uplink : Uplink) : List UInt8 := if uplink.sessionActive then uplink.unread else []

structure FillReturn where
  result : PouchResult
  output : List UInt8
  closed : Bool

inductive ReadOp (Key : Type) where
  | fill (maxlen : Nat)
  | other (op : DeviceOp Key)

def readStep (device : Device Key) : ReadOp Key → Device Key × List FillReturn
  | .fill maxlen =>
    let (result, reading) := pouchUplinkFill cfg maxlen device
    (reading.device, [⟨result, reading.output, device.uplink.pouchClosed⟩])
  | .other op => ((device.step cfg op).1, [])

structure Undisturbed (device next : Device Key) : Prop where
  active : next.uplink.sessionActive = device.uplink.sessionActive
  transport : next.uplink.transport = device.uplink.transport
  reader : next.uplink.reader = device.uplink.reader
  offset : next.uplink.offset = device.uplink.offset

def OthersUndisturbing (history : History (Device Key) FillReturn) : ReadOp Key → Prop
  | .fill _ => True
  | .other op => Undisturbed history.state (history.state.step cfg op).1

def requested : List (ReadOp Key) → Nat
  | [] => 0
  | .fill maxlen :: rest => maxlen + requested rest
  | .other _ :: rest => requested rest

def outputs (returns : List FillReturn) : List UInt8 := returns.flatMap FillReturn.output

structure FillEffect (maxlen : Nat) (device next : Device Key) (filled : FillReturn) : Prop where
  output : filled.output = device.uplink.offered.take maxlen
  rest : next.uplink.offered = device.uplink.offered.drop maxlen
  readable : next.uplink.Readable cfg
  closed : filled.closed = device.uplink.pouchClosed
  refused : device.uplink.sessionActive = false → filled.result = .error ∧ next.uplink.sessionActive = false
  ended : filled.result = .noMoreData →
    filled.closed = true ∧ next.uplink.offered = [] ∧ next.uplink.sessionActive = false
  goesOn : device.uplink.sessionActive = true → filled.result ≠ .noMoreData →
    filled.result = .moreData ∧ next.uplink.sessionActive = true
  ends : device.uplink.sessionActive = true → filled.closed = true →
    device.uplink.offered.length < maxlen → filled.result = .noMoreData

theorem fill_effect (maxlen : Nat) (device : Device Key) (readable : device.uplink.Readable cfg) :
    FillEffect cfg maxlen device (pouchUplinkFill cfg maxlen device).2.device
      ⟨(pouchUplinkFill cfg maxlen device).1, (pouchUplinkFill cfg maxlen device).2.output,
        device.uplink.pouchClosed⟩ := by
  by_cases active : device.uplink.sessionActive = true
  next =>
    have reads := fillLoop_readsOut (maxlen + device.uplink.transport.length) maxlen device readable
      (Nat.le_refl _)
    have same := fillLoop_readerOnly cfg (maxlen + device.uplink.transport.length) maxlen device
    have offered : device.uplink.offered = device.uplink.unread := by simp [Uplink.offered, active]
    rw [← offered] at reads
    simp only [pouchUplinkFill, active, if_true]
    generalize fillLoop cfg (maxlen + device.uplink.transport.length) maxlen device = read at reads same ⊢
    split_ifs with more
    · constructor
      next => exact reads.output
      next => simp [Uplink.offered, same.active, active, reads.rest]
      next => exact reads.readable
      next => rfl
      next => simp [active]
      next => simp
      next => exact fun _ _ => ⟨rfl, same.active.trans active⟩
      next =>
        -- Everything was asked for, so the loop has found the queue empty.
        intro _ closed beyond
        have short : read.output.length < maxlen := by
          rw [reads.output, List.length_take]
          omega
        obtain ⟨free, queue⟩ := reads.emptied short
        have isClosed : read.device.uplink.pouchClosed = true := same.closed.trans closed
        simp [isClosed, queue, Uplink.view, free, pouchBufviewAvailable] at more
    · simp only [Bool.or_eq_true, Bool.not_eq_true', decide_eq_true_eq, List.isEmpty_eq_false_iff, not_or,
        Bool.not_eq_false, Decidable.not_not] at more
      have free : read.device.uplink.reader = none := by
        cases held : read.device.uplink.reader with
        | none => rfl
        | some packet => exact absurd (reads.readable.available held) more.1.2
      have nothing : read.device.uplink.unread = [] := by
        simp [Uplink.unread, Uplink.remainder, free, more.2]
      constructor
      next => exact reads.output
      next =>
        rw [← reads.rest, nothing]
        rfl
      next => exact ⟨reads.readable.sized, reads.readable.inside⟩
      next => rfl
      next => simp [active]
      next => exact fun _ => ⟨same.closed.symm.trans more.1.1, rfl, rfl⟩
      next => exact fun _ other => absurd rfl other
      next => exact fun _ _ _ => rfl
  next =>
    have inactive : device.uplink.sessionActive = false := by simpa using active
    have offered : device.uplink.offered = [] := by simp [Uplink.offered, inactive]
    simp only [pouchUplinkFill, active]
    exact ⟨by simp [offered], by simp [offered], readable, rfl, fun _ => ⟨rfl, inactive⟩, by simp,
      fun isActive => absurd isActive active, fun isActive => absurd isActive active⟩

theorem Undisturbed.offered {device next : Device Key} (undisturbed : Undisturbed device next) :
    next.uplink.offered = device.uplink.offered := by
  simp only [Uplink.offered, Uplink.unread, Uplink.remainder, undisturbed.active, undisturbed.transport,
    undisturbed.reader, undisturbed.offset]

theorem Undisturbed.readable {device next : Device Key} (undisturbed : Undisturbed device next)
    (readable : device.uplink.Readable cfg) : next.uplink.Readable cfg := by
  constructor
  next => simpa [undisturbed.reader, undisturbed.transport] using readable.sized
  next => simpa [undisturbed.reader, undisturbed.offset] using readable.inside

structure ReadsThrough (active : Bool) (offered : List UInt8) (requests : Nat) (returns : List FillReturn) :
    Prop where
  output : outputs returns = offered.take requests
  refused : active = false → ∀ filled ∈ returns, filled.result = .error
  once : ∀ earlier filled later, returns = earlier ++ filled :: later → filled.result = .noMoreData →
    filled.closed = true ∧ outputs (earlier ++ [filled]) = offered ∧ ∀ other ∈ later, other.result = .error
  ends : active = true → offered.length < requests →
    (∀ filled ∈ returns, filled.result ≠ .error → filled.closed = true) →
    ∃ filled ∈ returns, filled.result = .noMoreData

theorem ReadsThrough.fill {maxlen requests : Nat} {device next : Device Key} {filled : FillReturn}
    {returns : List FillReturn} (effect : FillEffect cfg maxlen device next filled)
    (rest : ReadsThrough next.uplink.sessionActive next.uplink.offered requests returns) :
    ReadsThrough device.uplink.sessionActive device.uplink.offered (maxlen + requests) (filled :: returns) := by
  constructor
  next =>
    have tail := rest.output
    simp only [outputs, List.flatMap_cons] at tail ⊢
    rw [tail, effect.output, effect.rest, ← List.take_add]
  next =>
    intro inactive
    obtain ⟨error, still⟩ := effect.refused inactive
    simp only [List.mem_cons, forall_eq_or_imp]
    exact ⟨error, rest.refused still⟩
  next =>
    intro earlier entry later split noMore
    cases earlier with
    | nil =>
      obtain ⟨rfl, rfl⟩ := List.cons.inj split
      obtain ⟨closed, nothing, inactive⟩ := effect.ended noMore
      refine ⟨closed, ?_, rest.refused inactive⟩
      rw [effect.rest, List.drop_eq_nil_iff] at nothing
      simp [outputs, effect.output, List.take_of_length_le nothing]
    | cons head earlier =>
      obtain ⟨rfl, tail⟩ := List.cons.inj split
      obtain ⟨closed, all, errors⟩ := rest.once earlier entry later tail noMore
      refine ⟨closed, ?_, errors⟩
      simp only [outputs, List.cons_append, List.flatMap_cons] at all ⊢
      rw [all, effect.output, effect.rest, List.take_append_drop]
  next =>
    intro active beyond closed
    by_cases noMore : filled.result = .noMoreData
    next => exact ⟨filled, List.mem_cons_self, noMore⟩
    next =>
      obtain ⟨more, still⟩ := effect.goesOn active noMore
      have isClosed := closed filled List.mem_cons_self (by simp [more])
      have within : maxlen ≤ device.uplink.offered.length := by
        by_contra short
        exact noMore (effect.ends active isClosed (by omega))
      have left : next.uplink.offered.length < requests := by
        rw [effect.rest, List.length_drop]
        omega
      obtain ⟨last, member, isLast⟩ := rest.ends still left fun other member =>
        closed other (List.mem_cons_of_mem filled member)
      exact ⟨last, List.mem_cons_of_mem filled member, isLast⟩

theorem run_readsThrough (device : Device Key) (log : List FillReturn) (ops : List (ReadOp Key))
    (readable : device.uplink.Readable cfg)
    (undisturbed : History.Meets (readStep cfg) (OthersUndisturbing cfg) ⟨device, log⟩ ops) :
    ReadsThrough device.uplink.sessionActive device.uplink.offered (requested ops)
      (History.run (readStep cfg) ⟨device, []⟩ ops).log := by
  induction ops generalizing device log with
  | nil =>
    exact ⟨by simp [outputs, requested], by simp, by simp, fun _ beyond => absurd beyond (Nat.not_lt_zero _)⟩
  | cons op rest ih =>
    cases op with
    | fill maxlen =>
      have effect := fill_effect cfg maxlen device readable
      have tail := ih _ _ effect.readable undisturbed.2
      rw [History.run_cons, History.record, History.run_log]
      exact .fill cfg effect tail
    | other op =>
      have same : Undisturbed device (device.step cfg op).1 := undisturbed.1
      have tail := ih (device.step cfg op).1 _ (same.readable cfg readable) undisturbed.2
      rw [same.active, same.offered] at tail
      exact tail

/-- How the reads of a session are cut does not matter: they put out the next bytes of what is in the
reader and the queue, as many as are asked for. The end is reported by one read at most, when the pouch
is closed and all of the bytes have been put out, and it is reported once more bytes are asked for. -/
theorem uplink_reads_agree (device : Device Key) (readable : device.uplink.Readable cfg)
    (active : device.uplink.sessionActive = true) (first second : List (ReadOp Key))
    (firstAlone : History.Meets (readStep cfg) (OthersUndisturbing cfg) ⟨device, []⟩ first)
    (secondAlone : History.Meets (readStep cfg) (OthersUndisturbing cfg) ⟨device, []⟩ second)
    (same : requested first = requested second) :
    let returns := (History.run (readStep cfg) ⟨device, []⟩ first).log
    outputs returns = outputs (History.run (readStep cfg) ⟨device, []⟩ second).log ∧
      outputs returns = device.uplink.unread.take (requested first) ∧
      (∀ earlier filled later, returns = earlier ++ filled :: later → filled.result = .noMoreData →
        filled.closed = true ∧ outputs (earlier ++ [filled]) = device.uplink.unread ∧
          ∀ other ∈ later, other.result = .error) ∧
      (device.uplink.unread.length < requested first →
        (∀ filled ∈ returns, filled.result ≠ .error → filled.closed = true) →
        ∃ filled ∈ returns, filled.result = .noMoreData) := by
  have reads := run_readsThrough cfg device [] first readable firstAlone
  have others := run_readsThrough cfg device [] second readable secondAlone
  have offered : device.uplink.offered = device.uplink.unread := by simp [Uplink.offered, active]
  rw [offered] at reads others
  exact ⟨by rw [reads.output, others.output, same], reads.output, reads.once, reads.ends active⟩

end Calls

section Reachable

variable {Key : Type} (cfg : Config)

def Uplink.Placed (uplink : Uplink) : Prop :=
  ∀ packet, uplink.reader = some packet → packet.buf.data.bytes < cfg.sizeRange →
    uplink.offset < packet.buf.data.bytes

theorem fillCopy_placed (left : Nat) (packet : Outgoing) (device : Device Key)
    (held : device.uplink.reader = some packet)
    (within : packet.buf.data.bytes < cfg.sizeRange → device.uplink.offset ≤ packet.buf.data.bytes) :
    (fillCopy cfg left packet device).device.uplink.Placed cfg := by
  intro other found sized
  have same : other = packet := by
    simp only [fillCopy] at found
    split_ifs at found
    simpa [held] using found.symm
  subst same
  exact ((fillCopy_copiesOut left held (within sized) sized).reader other found).2

theorem fillLoop_placed (fuel left : Nat) (device : Device Key) (placed : device.uplink.Placed cfg) :
    (fillLoop cfg fuel left device).device.uplink.Placed cfg := by
  induction fuel generalizing left device with
  | zero => exact placed
  | succ fuel ih =>
    simp only [fillLoop]
    split_ifs with done ready
    · exact placed
    · cases held : device.uplink.reader with
      | none => exact placed
      | some packet =>
        exact ih _ _ (fillCopy_placed cfg left packet device held fun sized =>
          Nat.le_of_lt (placed packet held sized))
    · cases device.uplink.transport with
      | nil => exact placed
      | cons packet rest => exact ih _ _ (fillCopy_placed cfg left packet _ rfl fun _ => Nat.zero_le _)

theorem SmallStep.reader_kept {device next : Device Key} {event : Event} (small : SmallStep device event next)
    (read : event.party ≠ .read) (finish : event.party ≠ .finish) :
    next.uplink.reader = device.uplink.reader ∧ next.uplink.offset = device.uplink.offset := by
  cases small with
  | taken | copied | released | sessionEnded | noMoreData => exact absurd rfl read
  | finished => exact absurd rfl finish
  | _ => exact ⟨rfl, rfl⟩

theorem step_placed (device : Device Key) (op : DeviceOp Key) (formed : device.Formed cfg)
    (placed : device.uplink.Placed cfg) : (device.step cfg op).1.uplink.Placed cfg := by
  have call := Device.step_call cfg device op formed
  have others : op.party ≠ .read → op.party ≠ .finish → (device.step cfg op).1.uplink.Placed cfg := by
    intro read finish
    have kept := call.trace.invariant
      (fun reached _ => reached.uplink.reader = device.uplink.reader ∧
        reached.uplink.offset = device.uplink.offset)
      (fun event => event.party ≠ .read ∧ event.party ≠ .finish) ?_ (call.outsideReading read finish) [] ⟨rfl, rfl⟩
    · simpa [Uplink.Placed, kept.1, kept.2] using placed
    · intro before event after log small outside holds
      have same := small.reader_kept outside.1 outside.2
      exact ⟨same.1.trans holds.1, same.2.trans holds.2⟩
  cases op with
  | fill maxlen =>
    have read := fillLoop_placed cfg (maxlen + device.uplink.transport.length) maxlen device placed
    simp only [Device.step, Device.inTransport, pouchUplinkFill]
    split_ifs with busy active more
    · exact placed
    · exact read
    · exact read
    · exact placed
  | finish =>
    simp only [Device.step, Device.inTransport, pouchUplinkFinish]
    split_ifs
    · exact placed
    · rintro packet ⟨⟩
    · rintro packet ⟨⟩
  | _ => exact others (by simp [DeviceOp.party]) (by simp [DeviceOp.party])

theorem run_readable (ops : List (DeviceOp Key)) :
    let reached := (History.run (Device.step cfg) ⟨.boot Key cfg, []⟩ ops).state.uplink
    (∀ packet ∈ reached.reader.toList ++ reached.transport, packet.buf.data.bytes < cfg.sizeRange) →
      reached.Readable cfg := by
  intro reached sized
  have both := History.run_invariant (Device.step cfg) (fun _ _ => True)
    (fun history => history.state.Formed cfg ∧ history.state.uplink.Placed cfg) ⟨.boot Key cfg, []⟩ ops
    ⟨Device.boot_formed cfg, nofun⟩ (History.meets_of_forall _ _ _ _ fun _ _ _ => trivial) ?_
  · exact ⟨sized, fun packet held => both.2 packet held (sized packet (by simp [held]))⟩
  · intro history op _ holds
    exact ⟨(Device.step_traced cfg).formed history.state op holds.1,
      step_placed cfg history.state op holds.1 holds.2⟩

end Reachable

def closedPouchOps : List (DeviceOp Unit) :=
  startedOps ++ [enqueuedBlock [0, 1, 0], .closeCall, .closeReturn none, workerRun]

def readRun (ops : List (ReadOp Unit)) : List FillReturn :=
  (History.run (readStep (defaultConfig .none)) ⟨(deviceRun closedPouchOps).state, []⟩ ops).log

theorem uplink_reads_agree_sample :
    (readRun [.fill 1, .fill 0, .other .closeCall, .fill 9]).map FillReturn.result =
        [.moreData, .moreData, .noMoreData] ∧
      outputs (readRun [.fill 1, .fill 0, .other .closeCall, .fill 9]) = outputs (readRun [.fill 10]) := by
  have readable := run_readable (defaultConfig .none) closedPouchOps (by decide +kernel)
  have refused : ∀ device : Device Unit, Undisturbed device (closeCall device).1 := by
    intro device
    unfold closeCall
    split <;> exact ⟨rfl, rfl, rfl, rfl⟩
  have agree := uplink_reads_agree (defaultConfig .none) (deviceRun closedPouchOps).state readable
    (by decide +kernel) [.fill 1, .fill 0, .other .closeCall, .fill 9] [.fill 10]
    ⟨trivial, trivial, refused _, trivial, trivial⟩ ⟨trivial, trivial⟩ rfl
  exact ⟨by decide +kernel, agree.1⟩

end Pouch
