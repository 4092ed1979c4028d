import Pouch.BleGatt.UplinkTransfer

set_option autoImplicit false

/-!
# The characteristic on the library

The reads of a run of the library are a run of the characteristic alone, which is given what the library returned.
-/

namespace Pouch

section Read

variable {Key Handle : Type} {cfg : Config} {fills : Nat → Nat → PouchResult × List UInt8}

-- The packetizer of a pouch that was started, and the one of the characteristic alone, with the fills to come.
inductive Alike (cfg : Config) (fills : Nat → Nat → PouchResult × List UInt8) :
    Packetizer (PouchArg Key) → Packetizer (UplinkArg Handle) → Prop
  | intro {packetizer : Packetizer (PouchArg Key)} {isFirst : Bool} (serving : Serving cfg packetizer isFirst)
      (arg : UplinkArg Handle) (handle : Handle) (error : Option PacketizerError) (given : arg.pouch = some handle)
      (fine : arg.faulted = false) (toCome : arg.fills = fills) :
      Alike cfg fills packetizer ⟨.callback uplinkFillCb arg, isFirst, error⟩

structure SameContext (cfg : Config) (fills : Nat → Nat → PouchResult × List UInt8) (port : UplinkPort Key)
    (ctx : UplinkCtx Handle) : Prop where
  faulted : port.faulted = ctx.faulted
  packetizer : port.faulted = false → Option.Rel (Alike cfg fills) port.packetizer ctx.packetizer

def PortEvent.result? : PortEvent → Option ReadResult
  | .packet _ bytes => some (.packet bytes)
  | .attError => some .attError
  | .device _ => none

def returnedValues (log : List PortEvent) : List ReadResult := log.filterMap PortEvent.result?

-- The read that faults is the last.
def readResults (port : UplinkPort Key) (log : List PortEvent) : List ReadResult :=
  returnedValues log ++ if port.faulted then [.fault] else []

structure SameRead (cfg : Config) (fills : Nat → Nat → PouchResult × List UInt8)
    (port : UplinkPort Key × List PortEvent) (ctx : UplinkCtx Handle × List (UplinkRead Handle)) : Prop where
  results : ctx.2.map (·.result) = readResults port.1 port.2
  contexts : SameContext cfg fills port.1 ctx.1

@[simp] theorem returnedValues_append (log more : List PortEvent) :
    returnedValues (log ++ more) = returnedValues log ++ returnedValues more := List.filterMap_append

@[simp] theorem returnedValues_device (events : List Event) : returnedValues (events.map .device) = [] := by
  simp [returnedValues, PortEvent.result?]

@[simp] theorem returnedValues_packet (room : Nat) (bytes : List UInt8) :
    returnedValues [.packet room bytes] = [.packet bytes] := rfl

@[simp] theorem returnedValues_attError : returnedValues [.attError] = [.attError] := rfl

variable {arg : UplinkArg Handle} {handle : Handle} {isFirst : Bool} {error : Option PacketizerError} {len : Nat}

theorem uplinkPacket_short (fine : arg.faulted = false) (short : len ≤ 1) (started : Option (Option Handle)) :
    uplinkPacket ⟨.callback uplinkFillCb arg, isFirst, error⟩ len started =
      UplinkCtx.report ⟨none, false⟩ started arg.calls .attError := by
  simp [uplinkPacket, packetizerGet_short short, PacketSource.userArg?, fine]

theorem uplinkPacket_error (given : arg.pouch = some handle) (long : ¬ len ≤ 1) (started : Option (Option Handle))
    (fails : (arg.fills 0 (len - 1)).1 = .error) :
    uplinkPacket ⟨.callback uplinkFillCb arg, isFirst, error⟩ len started =
      UplinkCtx.report ⟨none, false⟩ started (arg.calls ++ [.fill (some handle), .finish (some handle)])
        .attError := by
  simp [uplinkPacket, packetizerGet, long, PacketSource.userArg?, uplinkFillCb, UplinkArg.after, given, fails]

theorem uplinkPacket_last (given : arg.pouch = some handle) (long : ¬ len ≤ 1) (started : Option (Option Handle))
    (ends : (arg.fills 0 (len - 1)).1 = .noMoreData) :
    uplinkPacket ⟨.callback uplinkFillCb arg, isFirst, error⟩ len started =
      UplinkCtx.report ⟨none, false⟩ started (arg.calls ++ [.fill (some handle), .finish (some handle)])
        (.packet (packetFlags isFirst true :: (arg.fills 0 (len - 1)).2)) := by
  simp [uplinkPacket, packetizerGet, long, PacketSource.userArg?, uplinkFillCb, UplinkArg.after, given, ends]

theorem uplinkPacket_more (given : arg.pouch = some handle) (long : ¬ len ≤ 1) (started : Option (Option Handle))
    (goesOn : (arg.fills 0 (len - 1)).1 = .moreData) :
    let left := arg.after [.fill (some handle)] false
    uplinkPacket ⟨.callback uplinkFillCb arg, isFirst, error⟩ len started =
      UplinkCtx.report ⟨some ⟨.callback uplinkFillCb left, false, error⟩, false⟩ started left.calls
        (.packet (packetFlags isFirst false :: (arg.fills 0 (len - 1)).2)) := by
  by_cases empty : (arg.fills 0 (len - 1)).2.length = 0
  next =>
    simp [uplinkPacket, packetizerGet, long, PacketSource.userArg?, uplinkFillCb, UplinkArg.after, given, goesOn,
      empty]
  next =>
    simp [uplinkPacket, packetizerGet, long, PacketSource.userArg?, uplinkFillCb, UplinkArg.after, given, goesOn,
      empty]

variable {packetizer : Packetizer (PouchArg Key)} {other : Packetizer (UplinkArg Handle)}

theorem Alike.packet (alike : Alike cfg fills packetizer other) (len : Nat) (device : Device Key)
    (started : Option (Option Handle))
    (filled : fills 0 (len - 1) =
      ((pouchUplinkFill cfg (len - 1) device).1, (pouchUplinkFill cfg (len - 1) device).2.output)) :
    SameRead cfg (fun index => fills (index + 1)) (portPacket packetizer len device)
      (uplinkPacket other len started) := by
  obtain ⟨serving, arg, handle, error, given, fine, rfl⟩ := alike
  by_cases short : len ≤ 1
  next =>
    rw [serving.short device short, uplinkPacket_short fine short]
    exact ⟨rfl, rfl, fun _ => .none⟩
  next =>
    have returned : (arg.fills 0 (len - 1)).1 = (pouchUplinkFill cfg (len - 1) device).1 := congrArg Prod.fst filled
    have written : (arg.fills 0 (len - 1)).2 = (pouchUplinkFill cfg (len - 1) device).2.output :=
      congrArg Prod.snd filled
    cases result : (pouchUplinkFill cfg (len - 1) device).1 with
    | error =>
      rw [serving.error device short result, uplinkPacket_error given short started (returned.trans result)]
      exact ⟨by simp [UplinkCtx.report, readResults], rfl, fun _ => .none⟩
    | noMoreData =>
      rw [serving.last device short result, uplinkPacket_last given short started (returned.trans result), written]
      exact ⟨by simp [UplinkCtx.report, readResults], rfl, fun _ => .none⟩
    | moreData =>
      obtain ⟨next, serves, packet⟩ := serving.more device short result
      rw [packet, uplinkPacket_more given short started (returned.trans result), written]
      refine ⟨by simp [UplinkCtx.report, readResults], rfl, fun _ => .some ?_⟩
      exact ⟨serves, arg.after [.fill (some handle)] false, handle, error, given, rfl, rfl⟩

end Read

section Run

variable {Key : Type} {cfg : Config}

def startedPouch (succeeded : Bool) : Option Unit := if succeeded then some () else none

def fillThen (cfg : Config) (device : Device Key) (later : Nat → Nat → PouchResult × List UInt8) :
    Nat → Nat → PouchResult × List UInt8
  | 0, maxlen => ((pouchUplinkFill cfg maxlen device).1, (pouchUplinkFill cfg maxlen device).2.output)
  | index + 1, maxlen => later index maxlen

theorem portPacket_null_same (device : Device Key) (len : Nat)
    (fills later : Nat → Nat → PouchResult × List UInt8) :
    SameRead cfg later
      (portPacket ⟨.callback (PouchArg.fillCb cfg) ⟨true, device, [], false⟩, true, none⟩ len device)
      (uplinkPacket ⟨.callback uplinkFillCb ⟨startedPouch false, fills, [], false⟩, true, none⟩ len
        (some (startedPouch false))) := by
  rcases portPacket_null cfg true ⟨true, device, [], false⟩ rfl rfl none device len with
    ⟨short, refused⟩ | ⟨long, next, faults⟩
  next =>
    rw [refused, uplinkPacket_short rfl short]
    exact ⟨rfl, rfl, fun _ => .none⟩
  next =>
    let packetizer : Packetizer (UplinkArg Unit) :=
      ⟨.callback uplinkFillCb ⟨startedPouch false, fills, [], false⟩, true, none⟩
    have source : packetizer.source = .callback uplinkFillCb ⟨startedPouch false, fills, [], false⟩ := rfl
    rcases uplinkPacket_null len (some (startedPouch false)) source rfl rfl rfl with
      ⟨short, _⟩ | ⟨_, other, calls, _, _, used⟩
    · exact absurd short long
    · rw [faults, used]
      exact ⟨rfl, rfl, fun healthy => by cases healthy⟩

theorem portRead_same (read : PeerRead Key) (port : UplinkPort Key) (healthy : port.faulted = false)
    (inside : read.offset = 0) (later : Nat → Nat → PouchResult × List UInt8) :
    ∃ (fills : Nat → Nat → PouchResult × List UInt8) (call : ReadCall Unit), call.len = read.len ∧ ∀ ctx,
      SameContext cfg fills port ctx → SameRead cfg later (portRead cfg read port) (uplinkRead ctx call) := by
  obtain ⟨device, held, faulted⟩ := port
  obtain rfl : faulted = false := healthy
  cases held with
  | some packetizer =>
    refine ⟨fillThen cfg device later, ⟨read.len, 0, none, read.malloc, later⟩, rfl, ?_⟩
    rintro ⟨other, faulted⟩ ⟨rfl, alike⟩
    cases alike rfl with
    | some both =>
      have packet : SameRead cfg later (portPacket packetizer read.len device) (uplinkPacket _ read.len none) :=
        both.packet read.len device none rfl
      simpa [portRead, uplinkRead, inside] using packet
  | none =>
    let started := History.run (Device.step cfg) ⟨device, []⟩ read.start
    let start := startedPouch (startSucceeded started.log)
    refine ⟨later, ⟨read.len, 0, start, read.malloc, fillThen cfg started.state later⟩, rfl, ?_⟩
    rintro ⟨other, faulted⟩ ⟨rfl, alike⟩
    cases alike rfl
    let pouch : PouchArg Key := ⟨!startSucceeded started.log, started.state, [], false⟩
    have packet : SameRead cfg later
        (portPacket ⟨.callback (PouchArg.fillCb cfg) pouch, true, none⟩ read.len started.state)
        (uplinkPacket ⟨.callback uplinkFillCb ⟨start, fillThen cfg started.state later, [], false⟩, true, none⟩
          read.len (some start)) := by
      simp only [pouch, start]
      cases startSucceeded started.log with
      | true =>
        have alike : Alike cfg (fillThen cfg started.state later)
            ⟨.callback (PouchArg.fillCb cfg) ⟨false, started.state, [], false⟩, true, none⟩
            ⟨.callback uplinkFillCb ⟨some (), fillThen cfg started.state later, [], false⟩, true, none⟩ :=
          ⟨⟨_, _, rfl, rfl, rfl⟩, _, (), none, rfl, rfl, rfl⟩
        exact alike.packet read.len started.state (some (some ())) rfl
      | false => exact portPacket_null_same started.state read.len _ later
    simp only [portRead, uplinkRead, inside, ne_eq, not_true, if_false, Bool.false_eq_true, packetizerStartCallback,
      packetizerStart]
    cases read.malloc with
    | false => exact ⟨by simp [readResults, UplinkCtx.report], rfl, fun healthy => by cases healthy⟩
    | true => exact ⟨by simpa [readResults] using packet.results, packet.contexts⟩

theorem run_faulted (port : UplinkPort Key) (log : List PortEvent) (faulted : port.faulted = true)
    (ops : List (PortOp Key)) : History.run (portStep cfg) ⟨port, log⟩ ops = ⟨port, log⟩ := by
  induction ops with
  | nil => rfl
  | cons op rest ih => simpa [History.record, portStep, faulted] using ih

-- A read inside a packet returns none of it.
def PortOp.len? : PortOp Key → Option Nat
  | .read peer => if peer.offset = 0 then some peer.len else none
  | .other _ => none

variable (cfg) in
/-- The values that the reads of a run on the library return are those of a run of the characteristic. -/
theorem portRun_same (ops : List (PortOp Key)) (port : UplinkPort Key) (healthy : port.faulted = false) :
    ∃ (fills : Nat → Nat → PouchResult × List UInt8) (calls : List (ReadCall Unit)),
      calls.map (·.len) <+: ops.filterMap PortOp.len? ∧ ∀ ctx, SameContext cfg fills port ctx →
        let ran := History.run (portStep cfg) ⟨port, []⟩ ops
        (History.run uplinkRead ⟨ctx, []⟩ calls).log.map (·.result) = readResults ran.state ran.log := by
  induction ops generalizing port with
  | nil =>
    refine ⟨fun _ _ => (.error, []), [], List.nil_prefix, fun ctx same => ?_⟩
    simp [readResults, returnedValues, healthy]
  | cons op rest ih =>
    rw [History.run_cons, History.record, History.run_log]
    cases op with
    | other op =>
      obtain ⟨fills, calls, lens, same⟩ := ih (portStep cfg port (.other op)).1 (by simp [portStep, healthy])
      refine ⟨fills, calls, lens, fun ctx context => ?_⟩
      have left : SameContext cfg fills (portStep cfg port (.other op)).1 ctx :=
        ⟨by simpa [portStep, healthy] using context.faulted, by simpa [portStep, healthy] using context.packetizer⟩
      simp [same ctx left, readResults, portStep, healthy]
    | read read =>
      by_cases inside : read.offset = 0
      next =>
        have step : portStep cfg port (.read read) = portRead cfg read port := by simp [portStep, healthy]
        rw [step]
        cases faulted : (portRead cfg read port).1.faulted with
        | false =>
          obtain ⟨later, calls, lens, same⟩ := ih (portRead cfg read port).1 faulted
          obtain ⟨fills, call, len, first⟩ := portRead_same read port healthy inside later
          refine ⟨fills, call :: calls, by simpa [PortOp.len?, inside, len] using lens, fun ctx context => ?_⟩
          have results := (first ctx context).results
          have others := same _ (first ctx context).contexts
          rw [History.run_cons, History.record, History.run_log uplinkRead]
          simp only [List.nil_append, List.map_append, results, others]
          simp [readResults, faulted]
        | true =>
          obtain ⟨fills, call, len, first⟩ := portRead_same read port healthy inside fun _ _ => (.error, [])
          refine ⟨fills, [call], by simp [PortOp.len?, inside, len], fun ctx context => ?_⟩
          simpa [run_faulted _ _ faulted, History.record] using (first ctx context).results
      next =>
        have step : portStep cfg port (.read read) = (port, []) := by simp [portStep, portRead, healthy, inside]
        obtain ⟨fills, calls, lens, same⟩ := ih port healthy
        exact ⟨fills, calls, by simpa [PortOp.len?, inside] using lens,
          fun ctx context => by simpa [step] using same ctx context⟩

theorem portRun_refines (ops : List (PortOp Key)) :
    ∃ calls : List (ReadCall Unit), calls.map (·.len) <+: ops.filterMap PortOp.len? ∧
      let ran := History.run (portStep cfg) ⟨.boot Key cfg, []⟩ ops
      (History.run uplinkRead ⟨.boot, []⟩ calls).log.map (·.result) = readResults ran.state ran.log := by
  obtain ⟨fills, calls, lens, same⟩ := portRun_same cfg ops (.boot Key cfg) rfl
  exact ⟨calls, lens, same .boot ⟨rfl, fun _ => .none⟩⟩

end Run

end Pouch
