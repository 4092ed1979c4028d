import Pouch.BleGatt.Packetizer
import Pouch.Shared.ByteMemory
import Pouch.Shared.History

set_option autoImplicit false

namespace Pouch

open ByteMemory

inductive AttError where
  | unlikely
  | insufficientResources
  deriving DecidableEq, Repr

/-- The certificate of `struct golioth_ble_gatt_server_cert_ctx`; `none` is a NULL buffer. -/
structure ServerCertCtx where
  buffer : Option Memory
  size : Nat

structure CertWrite where
  buf : Option (List UInt8)
  malloc : Option Memory
  certificateSet : Status
  len : ∀ bytes, buf = some bytes → bytes.length < 65536

structure CertEvent where
  buf : Option (List UInt8)
  result : Except AttError Nat
  certificate : Option (List UInt8)
  disconnects : Bool

section Model

variable (cfg : Config)

def ServerCertCtx.restart (ctx : ServerCertCtx) (isFirst : Bool) (malloc : Option Memory) :
    ServerCertCtx :=
  if isFirst then ⟨malloc, 0⟩ else ctx

-- There is no check against the size of the allocation.
def ServerCertCtx.append (ctx : ServerCertCtx) (memory : Memory) (payload : List UInt8) :
    ServerCertCtx where
  buffer := some (store memory ctx.size payload)
  size := (ctx.size + payload.length) % cfg.sizeRange

def CertWrite.reject (write : CertWrite) (error : AttError) : CertEvent where
  buf := write.buf
  result := .error error
  certificate := none
  disconnects := false

def serverCertWrite (ctx : ServerCertCtx) (write : CertWrite) : ServerCertCtx × CertEvent :=
  match packetizerDecode write.buf with
  | .error _ => (ctx, write.reject .unlikely)
  | .ok packet =>
    if packet.payload.length ≤ 0 then
      (ctx, write.reject .unlikely)
    else
      let ctx := ctx.restart packet.isFirst write.malloc
      match ctx.buffer with
      | none => (ctx, write.reject .insufficientResources)
      | some memory =>
        let written := store memory ctx.size packet.payload
        let ctx := ctx.append cfg memory packet.payload
        let result := .ok ((write.buf.getD []).length)
        if packet.isLast then
          ({ ctx with buffer := none },
            ⟨write.buf, result, some (load written 0 ctx.size), write.certificateSet.isSome⟩)
        else
          (ctx, ⟨write.buf, result, none, false⟩)

def serverCertStep (ctx : ServerCertCtx) (write : CertWrite) : ServerCertCtx × List CertEvent :=
  ((serverCertWrite cfg ctx write).1, [(serverCertWrite cfg ctx write).2])

end Model

def CertEvent.accepted (event : CertEvent) : Bool :=
  match event.result with
  | .ok _ => true
  | .error _ => false

def account (collected : List UInt8) (event : CertEvent) : List UInt8 :=
  match packetizerDecode event.buf with
  | .error _ => collected
  | .ok packet =>
    let kept := if packet.isFirst then [] else collected
    if event.accepted then kept ++ packet.payload else kept

def acceptedSinceFirst (log : List CertEvent) : List UInt8 := log.foldl account []

def mostRecentFirst (bufs : List (Option (List UInt8))) : Option Packet :=
  ((bufs.filterMap fun buf => (packetizerDecode buf).toOption).filter Packet.isFirst).getLast?

def FirstCarries (bufs : List (Option (List UInt8))) : Prop :=
  ∀ first, mostRecentFirst bufs = some first → first.payload ≠ []

theorem acceptedSinceFirst_append (log : List CertEvent) (event : CertEvent) :
    acceptedSinceFirst (log ++ [event]) = account (acceptedSinceFirst log) event := by
  rw [acceptedSinceFirst, List.foldl_append]
  rfl

theorem mostRecentFirst_append (bufs : List (Option (List UInt8))) (buf : Option (List UInt8))
    (packet : Packet) (decoded : packetizerDecode buf = .ok packet) :
    mostRecentFirst (bufs ++ [buf]) =
      if packet.isFirst then some packet else mostRecentFirst bufs := by
  cases first : packet.isFirst <;>
    simp [mostRecentFirst, List.filterMap_append, decoded, Except.toOption, first]

section Specs

variable {cfg : Config} {ctx : ServerCertCtx} {write : CertWrite} {packet : Packet} {memory : Memory}

structure Copies (ctx : ServerCertCtx) (write : CertWrite) (packet : Packet) (memory : Memory) :
    Prop where
  decoded : packetizerDecode write.buf = .ok packet
  carries : packet.payload ≠ []
  buffer : (ctx.restart packet.isFirst write.malloc).buffer = some memory

theorem serverCertWrite_copies (cfg : Config) (copies : Copies ctx write packet memory) :
    let appended := (ctx.restart packet.isFirst write.malloc).append cfg memory packet.payload
    let result := .ok (write.buf.getD []).length
    serverCertWrite cfg ctx write =
      if packet.isLast then
        (⟨none, appended.size⟩,
          ⟨write.buf, result, some (load (appended.buffer.getD memory) 0 appended.size),
            write.certificateSet.isSome⟩)
      else
        (appended, ⟨write.buf, result, none, false⟩) := by
  have positive : ¬ packet.payload.length ≤ 0 := by
    rw [Nat.le_zero, List.length_eq_zero_iff]
    exact copies.carries
  simp only [serverCertWrite, copies.decoded, positive, if_false, copies.buffer]
  rfl

-- What a write can do. A packet without a payload is rejected before its FIRST flag is looked at.
theorem serverCertWrite_cases (cfg : Config) (ctx : ServerCertCtx) (write : CertWrite) :
    (serverCertWrite cfg ctx write = (ctx, write.reject .unlikely) ∧
      ∀ packet, packetizerDecode write.buf = .ok packet → packet.payload = []) ∨
    (∃ packet, packetizerDecode write.buf = .ok packet ∧ packet.payload ≠ [] ∧
      (ctx.restart packet.isFirst write.malloc).buffer = none ∧
      serverCertWrite cfg ctx write =
        (ctx.restart packet.isFirst write.malloc, write.reject .insufficientResources)) ∨
    ∃ packet memory, Copies ctx write packet memory := by
  cases decoded : packetizerDecode write.buf with
  | error error =>
    refine .inl ⟨?_, fun packet found => by cases found⟩
    simp only [serverCertWrite, decoded]
  | ok packet =>
    by_cases carries : packet.payload = []
    · refine .inl ⟨?_, ?_⟩
      · simp [serverCertWrite, decoded, carries]
      · rintro other ⟨⟩
        exact carries
    · cases buffer : (ctx.restart packet.isFirst write.malloc).buffer with
      | none =>
        refine .inr (.inl ⟨packet, rfl, carries, buffer, ?_⟩)
        simp [serverCertWrite, decoded, carries, buffer]
      | some memory => exact .inr (.inr ⟨packet, memory, decoded, carries, buffer⟩)

theorem Copies.payload_short (copies : Copies ctx write packet memory) :
    packet.payload.length < 65535 := by
  have decoded := copies.decoded
  cases buf : write.buf with
  | none =>
    rw [buf] at decoded
    cases decoded
  | some bytes =>
    rw [buf] at decoded
    have length := packetizerDecode_payload_length bytes packet decoded
    have bound := write.len bytes buf
    omega

theorem restart_size_le (ctx : ServerCertCtx) (isFirst : Bool) (malloc : Option Memory) :
    (ctx.restart isFirst malloc).size ≤ ctx.size := by
  cases isFirst with
  | false => exact Nat.le_refl _
  | true => exact Nat.zero_le _

theorem Copies.appended_size (copies : Copies ctx write packet memory)
    (bounded : ctx.size ≤ cfg.serverCertMaxLen) :
    ((ctx.restart packet.isFirst write.malloc).append cfg memory packet.payload).size =
      (ctx.restart packet.isFirst write.malloc).size + packet.payload.length := by
  have restarted := restart_size_le ctx packet.isFirst write.malloc
  have short := copies.payload_short
  have int := cfg.serverCertMaxLenInt
  have range := cfg.sizeRange_ge
  exact Nat.mod_eq_of_lt (by omega)

theorem appended_bytes (ctx : ServerCertCtx) (memory : Memory) (payload : List UInt8)
    (size : (ctx.append cfg memory payload).size = ctx.size + payload.length) :
    load (store memory ctx.size payload) 0 (ctx.append cfg memory payload).size =
      load memory 0 ctx.size ++ payload := by
  have appended := load_store_append memory 0 ctx.size payload
  rw [Nat.zero_add] at appended
  rw [size, appended]

theorem serverCertWrite_size (copies : Copies ctx write packet memory)
    (bounded : ctx.size ≤ cfg.serverCertMaxLen) :
    (serverCertWrite cfg ctx write).1.size =
      (ctx.restart packet.isFirst write.malloc).size + packet.payload.length := by
  rw [serverCertWrite_copies cfg copies, ← copies.appended_size bounded]
  split_ifs <;> rfl

theorem serverCertWrite_buf (cfg : Config) (ctx : ServerCertCtx) (write : CertWrite) :
    (serverCertWrite cfg ctx write).2.buf = write.buf := by
  rcases serverCertWrite_cases cfg ctx write with
    ⟨rejected, _⟩ | ⟨packet, _, _, _, rejected⟩ | ⟨packet, memory, copies⟩
  · rw [rejected]
    rfl
  · rw [rejected]
    rfl
  · rw [serverCertWrite_copies cfg copies]
    split_ifs <;> rfl

theorem Copies.packet_unique {other : Packet} {otherMemory : Memory}
    (copies : Copies ctx write packet memory) (others : Copies ctx write other otherMemory) :
    packet = other :=
  Except.ok.inj (copies.decoded.symm.trans others.decoded)

theorem serverCertWrite_certificate (copies : Copies ctx write packet memory)
    (bounded : ctx.size ≤ cfg.serverCertMaxLen) :
    let restarted := ctx.restart packet.isFirst write.malloc
    (serverCertWrite cfg ctx write).2.certificate =
        (if packet.isLast then some (load memory 0 restarted.size ++ packet.payload) else none) ∧
      (serverCertWrite cfg ctx write).2.accepted = true := by
  intro restarted
  rw [serverCertWrite_copies cfg copies]
  have bytes := appended_bytes restarted memory packet.payload (copies.appended_size bounded)
  split_ifs with last
  · exact ⟨congrArg some bytes, rfl⟩
  · exact ⟨rfl, rfl⟩

theorem serverCertWrite_rejects (cfg : Config)
    (none : ∀ packet memory, ¬ Copies ctx write packet memory) :
    (serverCertWrite cfg ctx write).1.size ≤ ctx.size ∧
      (serverCertWrite cfg ctx write).2.certificate = Option.none := by
  rcases serverCertWrite_cases cfg ctx write with
    ⟨rejected, _⟩ | ⟨packet, _, _, _, rejected⟩ | ⟨packet, memory, copies⟩
  · rw [rejected]
    exact ⟨Nat.le_refl _, rfl⟩
  · rw [rejected]
    exact ⟨restart_size_le _ _ _, rfl⟩
  · exact absurd copies (none packet memory)

/-- What is in the buffer ends in the accepted payloads since the most recent FIRST packet, and is
nothing more as long as that packet was not rejected for having no payload. -/
structure Collected (history : History ServerCertCtx CertEvent) (memory : Memory) : Prop where
  started : 0 < history.state.size
  bytes : ∃ stale, load memory 0 history.state.size = stale ++ acceptedSinceFirst history.log ∧
    (stale = [] ↔ FirstCarries (history.log.map CertEvent.buf))

structure CertInvariant (cfg : Config) (history : History ServerCertCtx CertEvent) : Prop where
  bounded : history.state.size ≤ cfg.serverCertMaxLen
  collected : ∀ memory, history.state.buffer = some memory → Collected history memory

def CertFits (cfg : Config) (history : History ServerCertCtx CertEvent) (write : CertWrite) : Prop :=
  ∀ packet memory, Copies history.state write packet memory →
    (history.state.restart packet.isFirst write.malloc).size + packet.payload.length ≤
      cfg.serverCertMaxLen

def CertCompletes (history : History ServerCertCtx CertEvent) (write : CertWrite) : Prop :=
  ∀ packet memory, Copies history.state write packet memory → packet.isLast = true →
    FirstCarries (history.log.map CertEvent.buf ++ [write.buf])

def CertReassembles (cfg : Config) (history : History ServerCertCtx CertEvent) (write : CertWrite) :
    Prop :=
  (serverCertWrite cfg history.state write).1.size ≤ cfg.serverCertMaxLen ∧
    ∀ certificate, (serverCertWrite cfg history.state write).2.certificate = some certificate →
      certificate = acceptedSinceFirst (history.log ++ [(serverCertWrite cfg history.state write).2])

end Specs

section Run

variable {cfg : Config} {history : History ServerCertCtx CertEvent} {write : CertWrite}
  {packet : Packet} {memory : Memory}

theorem CertInvariant.copied (invariant : CertInvariant cfg history)
    (copies : Copies history.state write packet memory) (event : CertEvent)
    (isWrite : event.buf = write.buf) (accepted : event.accepted = true) :
    ∃ stale, load memory 0 (history.state.restart packet.isFirst write.malloc).size ++
        packet.payload = stale ++ acceptedSinceFirst (history.log ++ [event]) ∧
      (stale = [] ↔ FirstCarries (history.log.map CertEvent.buf ++ [write.buf])) := by
  have decoded := copies.decoded
  have buffer := copies.buffer
  rw [acceptedSinceFirst_append, account, isWrite, decoded]
  simp only [accepted, if_true, FirstCarries, mostRecentFirst_append _ _ packet decoded]
  cases first : packet.isFirst with
  | true =>
    refine ⟨[], rfl, iff_of_true rfl ?_⟩
    rintro other ⟨⟩
    exact copies.carries
  | false =>
    rw [first] at buffer
    obtain ⟨_, stale, held, exactly⟩ := invariant.collected memory buffer
    refine ⟨stale, ?_, exactly⟩
    simp only [ServerCertCtx.restart, Bool.false_eq_true, if_false, held, List.append_assoc]

theorem CertInvariant.step (invariant : CertInvariant cfg history)
    (fits : CertFits cfg history write) :
    CertInvariant cfg (history.record (serverCertStep cfg) write) := by
  have bounded := invariant.bounded
  have recorded : history.record (serverCertStep cfg) write =
      ⟨(serverCertWrite cfg history.state write).1,
        history.log ++ [(serverCertWrite cfg history.state write).2]⟩ := rfl
  rw [recorded]
  rcases serverCertWrite_cases cfg history.state write with
    ⟨rejected, empty⟩ | ⟨packet, _, _, buffer, rejected⟩ | ⟨packet, memory, copies⟩
  · rw [rejected]
    refine ⟨bounded, ?_⟩
    intro memory held
    obtain ⟨started, stale, bytes, exactly⟩ := invariant.collected memory held
    refine ⟨started, ?_⟩
    simp only [List.map_append, List.map_cons, List.map_nil, acceptedSinceFirst_append, account,
      CertWrite.reject, CertEvent.accepted]
    cases decoded : packetizerDecode write.buf with
    | error error =>
      refine ⟨stale, bytes, ?_⟩
      simpa [FirstCarries, mostRecentFirst, decoded, Except.toOption] using exactly
    | ok packet =>
      simp only [Bool.false_eq_true, if_false, FirstCarries, mostRecentFirst_append _ _ packet decoded]
      cases first : packet.isFirst with
      | false => exact ⟨stale, bytes, exactly⟩
      | true =>
        -- The buffer keeps what an earlier FIRST packet started.
        refine ⟨load memory 0 history.state.size, (List.append_nil _).symm, ?_⟩
        apply iff_of_false
        · intro nothing
          have length := congrArg List.length nothing
          rw [load_length, List.length_nil] at length
          omega
        · intro carries
          exact carries packet rfl (empty packet decoded)
  · rw [rejected]
    refine ⟨Nat.le_trans (restart_size_le _ _ _) bounded, ?_⟩
    intro memory held
    rw [buffer] at held
    cases held
  · have within := fits packet memory copies
    have size := copies.appended_size bounded
    rw [serverCertWrite_copies cfg copies]
    split_ifs with last
    · refine ⟨by simp only [size]; exact within, ?_⟩
      intro memory held
      cases held
    · refine ⟨by simp only [size]; exact within, ?_⟩
      intro appended held
      obtain rfl := Option.some.inj held
      have positive := List.length_pos_iff.mpr copies.carries
      refine ⟨by simp only [size]; omega, ?_⟩
      simp only [List.map_append, List.map_cons, List.map_nil]
      rw [appended_bytes _ _ _ size]
      exact invariant.copied copies _ rfl rfl

theorem CertInvariant.reassembles_iff (invariant : CertInvariant cfg history) :
    CertReassembles cfg history write ↔ CertFits cfg history write ∧ CertCompletes history write := by
  have bounded := invariant.bounded
  by_cases copying : ∃ packet memory, Copies history.state write packet memory
  · obtain ⟨packet, memory, copies⟩ := copying
    have size := serverCertWrite_size copies bounded
    obtain ⟨handed, accepted⟩ := serverCertWrite_certificate copies bounded
    obtain ⟨stale, bytes, exactly⟩ := invariant.copied copies
      (serverCertWrite cfg history.state write).2 (serverCertWrite_buf cfg history.state write) accepted
    constructor
    · rintro ⟨within, right⟩
      constructor
      · intro other memory' others
        obtain rfl := copies.packet_unique others
        rw [← size]
        exact within
      · intro other memory' others last
        obtain rfl := copies.packet_unique others
        rw [if_pos last] at handed
        have same := right _ handed
        rw [bytes] at same
        exact exactly.mp (List.append_left_eq_self.mp same)
    · rintro ⟨fits, completes⟩
      refine ⟨by rw [size]; exact fits packet memory copies, ?_⟩
      intro certificate isHanded
      rw [handed] at isHanded
      split_ifs at isHanded with last
      obtain rfl := Option.some.inj isHanded
      rw [bytes, exactly.mpr (completes packet memory copies last), List.nil_append]
  · have none : ∀ packet memory, ¬ Copies history.state write packet memory :=
      fun packet memory copies => copying ⟨packet, memory, copies⟩
    obtain ⟨size, nothing⟩ := serverCertWrite_rejects cfg none
    apply iff_of_true
    · refine ⟨Nat.le_trans size bounded, ?_⟩
      intro certificate handed
      rw [nothing] at handed
      cases handed
    · exact ⟨fun packet memory copies => absurd copies (none packet memory),
        fun packet memory copies => absurd copies (none packet memory)⟩

/-- After every write the size is within the bound and every certificate handed over is what was
sent, exactly when no copy leaves the allocation and no certificate is completed whose most recent
FIRST packet was empty. -/
theorem server_cert_reassembly_iff (cfg : Config) (writes : List CertWrite) :
    History.Meets (serverCertStep cfg) (CertReassembles cfg) ⟨⟨none, 0⟩, []⟩ writes ↔
      History.Meets (serverCertStep cfg)
        (fun history write => CertFits cfg history write ∧ CertCompletes history write)
        ⟨⟨none, 0⟩, []⟩ writes := by
  apply History.meets_iff_of_invariant (serverCertStep cfg) _ _ (CertInvariant cfg)
  · refine ⟨Nat.zero_le _, ?_⟩
    intro memory held
    cases held
  · exact fun reached write invariant => invariant.reassembles_iff
  · exact fun reached write met invariant => invariant.step met.1

end Run

def fullPacket (flags : UInt8) : CertWrite where
  buf := some (flags :: List.replicate 511 0)
  malloc := some fun _ => 0
  certificateSet := none
  len := by
    rintro bytes ⟨⟩
    rw [List.length_cons, List.length_replicate]
    decide

-- Nine packets are 4599 bytes, but 4096 bytes are allocated.
theorem long_certificate_overflows :
    ¬ History.Meets (serverCertStep (defaultConfig .saead)) (CertReassembles (defaultConfig .saead))
      ⟨⟨none, 0⟩, []⟩ (fullPacket packetFirst :: List.replicate 8 (fullPacket 0)) := by
  intro meets
  have last := ((History.meets_append _ _ _ (fullPacket packetFirst :: List.replicate 7 (fullPacket 0))
    [fullPacket 0]).mp meets).2.1.1
  revert last
  decide +kernel

end Pouch
