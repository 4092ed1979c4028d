import Pouch.BleGatt.Packetizer
import Pouch.Device.Uplink
import Pouch.Shared.History

set_option autoImplicit false

/-!
# The uplink characteristic

A read starts a pouch when there is no packetizer, and gets a packetizer whose fill callback reads the pouch.
What `pouch_uplink_start` returned is not looked at before the callback uses it.
-/

namespace Pouch

-- The calls for a pouch; `none` is NULL.
inductive UplinkCall (Handle : Type) where
  | fill (pouch : Option Handle)
  | finish (pouch : Option Handle)

def UplinkCall.pouch {Handle : Type} : UplinkCall Handle → Option Handle
  | .fill pouch => pouch
  | .finish pouch => pouch

/-- The user argument of the fill callback: the pouch, together with what the callback meets and does. These
are the results of `pouch_uplink_fill` to come, the calls made so far, and whether one of them used NULL. -/
structure UplinkArg (Handle : Type) where
  pouch : Option Handle
  fills : Nat → Nat → PouchResult × List UInt8
  calls : List (UplinkCall Handle)
  faulted : Bool

structure UplinkCtx (Handle : Type) where
  packetizer : Option (Packetizer (UplinkArg Handle))
  faulted : Bool

/-- A read by the peer, with the outcomes of `pouch_uplink_start`, of the allocation of the packetizer and of
the fills until its end, for the case that it starts one. -/
structure ReadCall (Handle : Type) where
  len : Nat
  offset : Nat
  start : Option Handle
  malloc : Bool
  fills : Nat → Nat → PouchResult × List UInt8

inductive ReadResult where
  | packet (bytes : List UInt8)
  -- BT_GATT_ERR(BT_ATT_ERR_UNLIKELY)
  | attError
  -- NULL was dereferenced: the read does not return.
  | fault

/-- What a read reports: the result of the start if it made one, all calls made for its packetizer, the
value it returned, and whether the context then is as it was before the first read. -/
structure UplinkRead (Handle : Type) where
  started : Option (Option Handle)
  calls : List (UplinkCall Handle)
  result : ReadResult
  ready : Bool

section Model

variable {Handle : Type}

def UplinkArg.after (arg : UplinkArg Handle) (calls : List (UplinkCall Handle)) (faulted : Bool) :
    UplinkArg Handle :=
  { arg with fills := fun index => arg.fills (index + 1), calls := arg.calls ++ calls, faulted := faulted }

def uplinkFillCb : FillCb (UplinkArg Handle) := fun arg dstLen =>
  let (pouchRet, piece) := arg.fills 0 dstLen
  match arg.pouch, pouchRet with
  -- `pouch_uplink_fill` uses its argument if the session is active, `pouch_uplink_finish` in any case.
  | none, .error => ⟨.error, [], arg.after [.fill none, .finish none] true⟩
  | none, _ => ⟨.error, [], arg.after [.fill none] true⟩
  | some pouch, .error => ⟨.error, [], arg.after [.fill (some pouch), .finish (some pouch)] false⟩
  | some pouch, .noMoreData =>
    ⟨.noMoreData, piece, arg.after [.fill (some pouch), .finish (some pouch)] false⟩
  | some pouch, .moreData => ⟨.moreData, piece, arg.after [.fill (some pouch)] false⟩

def PacketSource.userArg? {Arg : Type} : PacketSource Arg → Option Arg
  | .buffer _ => none
  | .callback _ userArg => some userArg

def UplinkCtx.boot : UplinkCtx Handle := ⟨none, false⟩

def UplinkCtx.isReady (ctx : UplinkCtx Handle) : Bool := ctx.packetizer.isNone && !ctx.faulted

def UplinkCtx.report (ctx : UplinkCtx Handle) (started : Option (Option Handle))
    (calls : List (UplinkCall Handle)) (result : ReadResult) : UplinkCtx Handle × List (UplinkRead Handle) :=
  (ctx, [⟨started, calls, result, ctx.isReady⟩])

-- The second half of `uplink_read`, with a packetizer.
def uplinkPacket (packetizer : Packetizer (UplinkArg Handle)) (len : Nat) (started : Option (Option Handle)) :
    UplinkCtx Handle × List (UplinkRead Handle) :=
  let got := packetizerGet packetizer len
  let userArg := got.packetizer.source.userArg?
  let calls := (userArg.map UplinkArg.calls).getD []
  if (userArg.map UplinkArg.faulted).getD false then
    UplinkCtx.report ⟨some got.packetizer, true⟩ started calls .fault
  else
    match got.result with
    | .error => UplinkCtx.report ⟨none, false⟩ started calls .attError
    | .noMoreData => UplinkCtx.report ⟨none, false⟩ started calls (.packet got.packet)
    | _ => UplinkCtx.report ⟨some got.packetizer, false⟩ started calls (.packet got.packet)

def uplinkRead (ctx : UplinkCtx Handle) (call : ReadCall Handle) :
    UplinkCtx Handle × List (UplinkRead Handle) :=
  if ctx.faulted then
    (ctx, [])
  -- Packets are forced into a single MTU.
  else if call.offset ≠ 0 then
    ctx.report none [] (.packet [])
  else
    match ctx.packetizer with
    | some packetizer => uplinkPacket packetizer call.len none
    | none =>
      match packetizerStartCallback call.malloc uplinkFillCb ⟨call.start, call.fills, [], false⟩ with
      | none => UplinkCtx.report ⟨none, true⟩ (some call.start) [] .fault
      | some packetizer => uplinkPacket packetizer call.len (some call.start)

end Model

section Calls

variable {Handle : Type} {packetizer : Packetizer (UplinkArg Handle)} {arg : UplinkArg Handle} {pouch : Handle}
  {len : Nat}

theorem uplinkFillCb_null (dstLen : Nat) (null : arg.pouch = none) :
    (uplinkFillCb arg dstLen).userArg.faulted = true ∧
      .fill none ∈ (uplinkFillCb arg dstLen).userArg.calls ∧
      ∀ call ∈ (uplinkFillCb arg dstLen).userArg.calls, call ∈ arg.calls ∨ call.pouch = none := by
  simp only [uplinkFillCb, null]
  cases (arg.fills 0 dstLen).1 <;> simp [UplinkArg.after, or_imp, forall_and, UplinkCall.pouch] <;>
    exact fun call member => .inl member

theorem uplinkFillCb_pouch (dstLen : Nat) (given : arg.pouch = some pouch) :
    (uplinkFillCb arg dstLen).userArg.faulted = false ∧
      (uplinkFillCb arg dstLen).userArg.pouch = some pouch ∧
      ∀ call ∈ (uplinkFillCb arg dstLen).userArg.calls, call ∈ arg.calls ∨ call.pouch = some pouch := by
  simp only [uplinkFillCb, given]
  cases (arg.fills 0 dstLen).1 <;> simp [UplinkArg.after, given, or_imp, forall_and, UplinkCall.pouch] <;>
    exact fun call member => .inl member

theorem packetizerGet_called (source : packetizer.source = .callback uplinkFillCb arg) (long : ¬ len ≤ 1) :
    (packetizerGet packetizer len).packetizer.source =
      .callback uplinkFillCb (uplinkFillCb arg (len - 1)).userArg := by
  simp only [packetizerGet, if_neg long, source]
  split_ifs <;> rfl

theorem packetizerGet_short (short : len ≤ 1) :
    packetizerGet packetizer len = ⟨.error, [], { packetizer with error := some .enomem }⟩ :=
  if_pos short

def Serves (packetizer : Packetizer (UplinkArg Handle)) (pouch : Handle) : Prop :=
  ∃ arg : UplinkArg Handle, packetizer.source = .callback uplinkFillCb arg ∧ arg.pouch = some pouch ∧
    arg.faulted = false ∧ ∀ call ∈ arg.calls, call.pouch = some pouch

theorem Serves.packet (serves : Serves packetizer pouch) (len : Nat) (started : Option (Option Handle)) :
    ∃ (ctx : UplinkCtx Handle) (calls : List (UplinkCall Handle)) (result : ReadResult),
      uplinkPacket packetizer len started = ctx.report started calls result ∧ ctx.faulted = false ∧
      (∀ next, ctx.packetizer = some next → Serves next pouch) ∧
      ∀ call ∈ calls, call.pouch = some pouch := by
  obtain ⟨arg, source, given, healthy, made⟩ := serves
  by_cases short : len ≤ 1
  next =>
    refine ⟨⟨none, false⟩, arg.calls, .attError, ?_, rfl, by simp, made⟩
    simp [uplinkPacket, packetizerGet_short short, source, PacketSource.userArg?, healthy]
  next =>
    obtain ⟨fine, same, calls⟩ := uplinkFillCb_pouch (len - 1) given
    have after := packetizerGet_called source short
    have callsMade : ∀ call ∈ (uplinkFillCb arg (len - 1)).userArg.calls, call.pouch = some pouch := by
      intro call member
      rcases calls call member with earlier | new
      · exact made call earlier
      · exact new
    have next : Serves (packetizerGet packetizer len).packetizer pouch := ⟨_, after, same, fine, callsMade⟩
    simp only [uplinkPacket, after, PacketSource.userArg?, Option.map_some, Option.getD_some, fine,
      Bool.false_eq_true, if_false]
    split
    · exact ⟨⟨none, false⟩, _, _, rfl, rfl, by simp, callsMade⟩
    · exact ⟨⟨none, false⟩, _, _, rfl, rfl, by simp, callsMade⟩
    · refine ⟨⟨some _, false⟩, _, _, rfl, rfl, ?_, callsMade⟩
      rintro _ ⟨⟩
      exact next

theorem uplinkPacket_null (len : Nat) (started : Option (Option Handle))
    (source : packetizer.source = .callback uplinkFillCb arg) (null : arg.pouch = none)
    (healthy : arg.faulted = false) (noCalls : arg.calls = []) :
    (len ≤ 1 ∧ uplinkPacket packetizer len started = UplinkCtx.report ⟨none, false⟩ started [] .attError) ∨
    (¬ len ≤ 1 ∧ ∃ next calls, .fill none ∈ calls ∧ (∀ call ∈ calls, call.pouch = none) ∧
      uplinkPacket packetizer len started = UplinkCtx.report ⟨some next, true⟩ started calls .fault) := by
  by_cases short : len ≤ 1
  next =>
    left
    simp [uplinkPacket, packetizerGet_short short, source, PacketSource.userArg?, healthy, noCalls, short]
  next =>
    right
    obtain ⟨faulted, called, all⟩ := uplinkFillCb_null (len - 1) null
    have after := packetizerGet_called source short
    simp only [noCalls, List.not_mem_nil, false_or] at all
    refine ⟨short, (packetizerGet packetizer len).packetizer, _, called, all, ?_⟩
    simp only [uplinkPacket, after, PacketSource.userArg?, Option.map_some, Option.getD_some, faulted, if_true]

end Calls

section Runs

variable {Handle : Type}

def WasStarted (log : List (UplinkRead Handle)) (pouch : Handle) : Prop :=
  ∃ earlier ∈ log, earlier.started = some (some pouch)

structure Survives (log : List (UplinkRead Handle)) : Prop where
  calls : ∀ read ∈ log, ∀ call ∈ read.calls, ∃ pouch, call.pouch = some pouch ∧ WasStarted log pouch
  failed : ∀ read ∈ log, read.started = some none → read.result = .attError ∧ read.ready = true

def FailsEarly (reached : History (UplinkCtx Handle) (UplinkRead Handle)) (call : ReadCall Handle) : Prop :=
  reached.state.isReady = true → call.offset = 0 → call.start = none → call.len ≤ 1 ∧ call.malloc = true

def UplinkRead.Good (read : UplinkRead Handle) : Prop :=
  (∀ call ∈ read.calls, call.pouch ≠ none) ∧
    (read.started = some none → read.result = .attError ∧ read.ready = true)

def UplinkCtx.Healthy (ctx : UplinkCtx Handle) : Prop :=
  ctx.faulted = false → ∀ packetizer, ctx.packetizer = some packetizer → ∃ pouch, Serves packetizer pouch

inductive ReadCase (ctx : UplinkCtx Handle) (call : ReadCall Handle) :
    UplinkCtx Handle × List (UplinkRead Handle) → Prop where
  | stopped (faulted : ctx.faulted = true) : ReadCase ctx call (ctx, [])
  | inside (offset : call.offset ≠ 0) : ReadCase ctx call (ctx.report none [] (.packet []))
  | unallocated (ready : ctx.isReady = true) (offset : call.offset = 0) (failed : call.malloc = false) :
      ReadCase ctx call (UplinkCtx.report ⟨none, true⟩ (some call.start) [] .fault)
  | served (pouch : Handle) (started : Option (Option Handle)) (next : UplinkCtx Handle)
      (calls : List (UplinkCall Handle)) (result : ReadResult)
      (from' : started = some (some pouch) ∧ call.start = some pouch ∨
        started = none ∧ ctx.faulted = false ∧
          ∃ packetizer, ctx.packetizer = some packetizer ∧ Serves packetizer pouch)
      (healthy : next.faulted = false)
      (kept : ∀ packetizer, next.packetizer = some packetizer → Serves packetizer pouch)
      (with' : ∀ call ∈ calls, call.pouch = some pouch) :
      ReadCase ctx call (next.report started calls result)
  | refused (ready : ctx.isReady = true) (offset : call.offset = 0) (null : call.start = none) (short : call.len ≤ 1)
      (allocated : call.malloc = true) :
      ReadCase ctx call (UplinkCtx.report ⟨none, false⟩ (some none) [] .attError)
  | misused (ready : ctx.isReady = true) (offset : call.offset = 0) (null : call.start = none)
      (long : ¬ call.len ≤ 1) (next : Packetizer (UplinkArg Handle)) (calls : List (UplinkCall Handle))
      (used : .fill none ∈ calls) (null' : ∀ call ∈ calls, call.pouch = none) :
      ReadCase ctx call (UplinkCtx.report ⟨some next, true⟩ (some none) calls .fault)

theorem uplinkRead_case (ctx : UplinkCtx Handle) (call : ReadCall Handle) (healthy : ctx.Healthy) :
    ReadCase ctx call (uplinkRead ctx call) := by
  obtain ⟨packetizer, faulted⟩ := ctx
  cases faulted with
  | true => exact .stopped rfl
  | false =>
    by_cases offset : call.offset = 0
    next =>
      simp only [uplinkRead, Bool.false_eq_true, if_false, offset, ne_eq, not_true]
      cases packetizer with
      | some packetizer =>
        obtain ⟨pouch, serves⟩ := healthy rfl packetizer rfl
        obtain ⟨next, calls, result, report, fine, kept, made⟩ := serves.packet call.len none
        simp only [report]
        exact .served pouch none next calls result (.inr ⟨rfl, rfl, packetizer, rfl, serves⟩) fine kept made
      | none =>
        cases malloc : call.malloc with
        | false => exact .unallocated rfl offset malloc
        | true =>
          simp only [packetizerStartCallback, packetizerStart, if_true]
          cases start : call.start with
          | some pouch =>
            have serves : Serves ⟨.callback uplinkFillCb ⟨some pouch, call.fills, [], false⟩, true, none⟩ pouch :=
              ⟨_, rfl, rfl, rfl, by simp⟩
            obtain ⟨next, calls, result, report, fine, kept, made⟩ :=
              serves.packet call.len (some (some pouch))
            simp only [report]
            exact .served pouch _ next calls result (.inl ⟨rfl, start⟩) fine kept made
          | none =>
            let fresh : Packetizer (UplinkArg Handle) :=
              ⟨.callback uplinkFillCb ⟨none, call.fills, [], false⟩, true, none⟩
            have source : fresh.source = .callback uplinkFillCb ⟨none, call.fills, [], false⟩ := rfl
            change ReadCase _ _ (uplinkPacket fresh call.len (some none))
            rcases uplinkPacket_null call.len (some none) source rfl rfl rfl with
              ⟨short, report⟩ | ⟨long, next, calls, used, null, report⟩
            · rw [report]
              exact .refused rfl offset start short malloc
            · rw [report]
              exact .misused rfl offset start long next calls used null
    next =>
      simp only [uplinkRead, Bool.false_eq_true, if_false, ne_eq, offset, not_false_eq_true, if_true]
      exact .inside offset

theorem ReadCase.healthy {ctx : UplinkCtx Handle} {call : ReadCall Handle}
    {outcome : UplinkCtx Handle × List (UplinkRead Handle)} (read : ReadCase ctx call outcome)
    (healthy : ctx.Healthy) : outcome.1.Healthy := by
  cases read with
  | stopped faulted => exact healthy
  | inside offset => exact healthy
  | unallocated ready offset failed => simp [UplinkCtx.Healthy, UplinkCtx.report]
  | served pouch started next calls result from' fine kept with' =>
    exact fun _ packetizer held => ⟨pouch, kept packetizer held⟩
  | refused ready offset null short allocated => simp [UplinkCtx.Healthy, UplinkCtx.report]
  | misused ready offset null long next calls used null' => simp [UplinkCtx.Healthy, UplinkCtx.report]

theorem ReadCase.good_iff {reached : History (UplinkCtx Handle) (UplinkRead Handle)} {call : ReadCall Handle}
    {outcome : UplinkCtx Handle × List (UplinkRead Handle)} (read : ReadCase reached.state call outcome) :
    (∀ event ∈ outcome.2, event.Good) ↔ FailsEarly reached call := by
  cases read with
  | stopped faulted => simp [FailsEarly, UplinkCtx.isReady, faulted]
  | inside offset => simp [FailsEarly, UplinkCtx.report, UplinkRead.Good, offset]
  | unallocated ready offset failed =>
    simp [FailsEarly, UplinkCtx.report, UplinkRead.Good, ready, offset, failed]
  | served pouch started next calls result from' fine kept with' =>
    have early : FailsEarly reached call := by
      intro ready _ null
      rcases from' with ⟨_, start⟩ | ⟨_, _, packetizer, held, _⟩
      · simp [null] at start
      · simp [UplinkCtx.isReady, held] at ready
    have started' : started ≠ some none := by
      rcases from' with ⟨rfl, _⟩ | ⟨rfl, _⟩ <;> simp
    simp only [early, iff_true, UplinkCtx.report, List.mem_singleton, forall_eq]
    refine ⟨fun call member => ?_, fun null => absurd null started'⟩
    simp [with' call member]
  | refused ready offset null short allocated =>
    simp [FailsEarly, UplinkCtx.report, UplinkRead.Good, UplinkCtx.isReady, short, allocated]
  | misused ready offset null long next calls used null' =>
    simp only [FailsEarly, ready, offset, null, long, false_and, imp_false, not_true, iff_false]
    intro good
    exact (good _ (List.mem_singleton_self _)).1 _ used rfl

theorem Serves.unique {packetizer : Packetizer (UplinkArg Handle)} {first second : Handle}
    (left : Serves packetizer first) (right : Serves packetizer second) : first = second := by
  obtain ⟨arg, source, given, _⟩ := left
  obtain ⟨arg', source', given', _⟩ := right
  simp only [source, PacketSource.callback.injEq, true_and] at source'
  rw [← source', given] at given'
  exact Option.some.inj given'

structure Traced (history : History (UplinkCtx Handle) (UplinkRead Handle)) : Prop where
  packetizer : history.state.faulted = false → ∀ packetizer, history.state.packetizer = some packetizer →
    ∃ pouch, Serves packetizer pouch ∧ WasStarted history.log pouch
  calls : ∀ read ∈ history.log, ∀ call ∈ read.calls, ∀ pouch, call.pouch = some pouch →
    WasStarted history.log pouch

theorem WasStarted.grow {log : List (UplinkRead Handle)} {pouch : Handle} (was : WasStarted log pouch)
    (more : List (UplinkRead Handle)) : WasStarted (log ++ more) pouch := by
  obtain ⟨earlier, member, started⟩ := was
  exact ⟨earlier, List.mem_append_left more member, started⟩

theorem Traced.grow {history : History (UplinkCtx Handle) (UplinkRead Handle)} (traced : Traced history)
    (next : UplinkCtx Handle) (started : Option (Option Handle)) (calls : List (UplinkCall Handle))
    (result : ReadResult)
    (kept : next.faulted = false → ∀ packetizer, next.packetizer = some packetizer → ∃ pouch,
      Serves packetizer pouch ∧ WasStarted (history.log ++ (next.report started calls result).2) pouch)
    (made : ∀ call ∈ calls, ∀ pouch, call.pouch = some pouch →
      WasStarted (history.log ++ (next.report started calls result).2) pouch) :
    Traced ⟨next, history.log ++ (next.report started calls result).2⟩ := by
  refine ⟨kept, ?_⟩
  intro read member call called pouch given
  rcases List.mem_append.mp member with old | new
  · exact (traced.calls read old call called pouch given).grow _
  · obtain rfl := List.mem_singleton.mp new
    exact made call called pouch given

theorem ReadCase.traced {history : History (UplinkCtx Handle) (UplinkRead Handle)} {call : ReadCall Handle}
    {outcome : UplinkCtx Handle × List (UplinkRead Handle)} (read : ReadCase history.state call outcome)
    (traced : Traced history) : Traced ⟨outcome.1, history.log ++ outcome.2⟩ := by
  cases read with
  | stopped faulted => simpa using traced
  | inside offset =>
    refine traced.grow _ _ _ _ ?_ (by simp)
    intro healthy packetizer held
    obtain ⟨pouch, serves, was⟩ := traced.packetizer healthy packetizer held
    exact ⟨pouch, serves, was.grow _⟩
  | unallocated ready offset failed => exact traced.grow _ _ _ _ (by simp [UplinkCtx.report]) (by simp)
  | served pouch started next calls result from' fine kept with' =>
    have was : WasStarted (history.log ++ (next.report started calls result).2) pouch := by
      rcases from' with ⟨rfl, _⟩ | ⟨rfl, healthy, packetizer, held, serves⟩
      · exact ⟨_, List.mem_append_right _ (List.mem_singleton_self _), rfl⟩
      · obtain ⟨other, serves', was⟩ := traced.packetizer healthy packetizer held
        rw [serves.unique serves']
        exact was.grow _
    refine traced.grow _ _ _ _ (fun _ packetizer held => ⟨pouch, kept packetizer held, was⟩) ?_
    intro call called other given
    rw [with' call called] at given
    obtain rfl := Option.some.inj given
    exact was
  | refused ready offset null short allocated => exact traced.grow _ _ _ _ (by simp [UplinkCtx.report]) (by simp)
  | misused ready offset null long next calls used null' =>
    refine traced.grow _ _ _ _ (by simp [UplinkCtx.report]) ?_
    intro call called pouch given
    simp [null' call called] at given

theorem Traced.healthy {history : History (UplinkCtx Handle) (UplinkRead Handle)} (traced : Traced history) :
    history.state.Healthy := by
  intro fine packetizer held
  obtain ⟨pouch, serves, _⟩ := traced.packetizer fine packetizer held
  exact ⟨pouch, serves⟩

theorem run_traced (reads : List (ReadCall Handle)) : Traced (History.run uplinkRead ⟨.boot, []⟩ reads) := by
  apply History.run_invariant uplinkRead (fun _ _ => True)
  · exact ⟨by simp [UplinkCtx.boot], by simp⟩
  · exact History.meets_of_forall _ _ _ _ fun _ _ _ => trivial
  · intro reached call _ traced
    exact (uplinkRead_case reached.state call traced.healthy).traced traced

/-- A failed start is survived exactly if none is met by a read with room for a payload, or without memory
for a packetizer: NULL goes to `pouch_uplink_fill` with the first payload. -/
theorem failed_starts_survived_iff (reads : List (ReadCall Handle)) :
    Survives (History.run uplinkRead ⟨.boot, []⟩ reads).log ↔
      History.Meets uplinkRead FailsEarly ⟨.boot, []⟩ reads := by
  have traced := run_traced reads
  have good := History.log_forall_iff uplinkRead UplinkRead.Good FailsEarly UplinkCtx.Healthy ⟨.boot, []⟩ reads
    (by simp [UplinkCtx.Healthy, UplinkCtx.boot])
    (fun reached call healthy => (uplinkRead_case reached.state call healthy).good_iff)
    (fun ctx call healthy => (uplinkRead_case ctx call healthy).healthy healthy)
  simp only [List.not_mem_nil, false_implies, implies_true, true_and] at good
  rw [← good]
  constructor
  · intro survives read member
    refine ⟨fun call called null => ?_, survives.failed read member⟩
    obtain ⟨pouch, given, _⟩ := survives.calls read member call called
    simp [null] at given
  · intro every
    refine ⟨fun read member call called => ?_, fun read member => (every read member).2⟩
    obtain ⟨pouch, given⟩ := Option.ne_none_iff_exists'.mp ((every read member).1 call called)
    exact ⟨pouch, given, traced.calls read member call called pouch given⟩

end Runs

def emptyFills : Nat → Nat → PouchResult × List UInt8 := fun _ _ => (.error, [])

/-- A read of 22 bytes whose start fails passes NULL to `pouch_uplink_fill` and `pouch_uplink_finish`. -/
theorem null_pouch_filled :
    ¬ Survives (History.run uplinkRead ⟨.boot, []⟩ [(⟨22, 0, none, true, emptyFills⟩ : ReadCall Unit)]).log := by
  intro survives
  obtain ⟨_, given, _⟩ := survives.calls _ (List.mem_singleton_self _) (.fill none)
    (List.Mem.head _)
  cases given

end Pouch
