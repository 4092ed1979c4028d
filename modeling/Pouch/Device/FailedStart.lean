import Pouch.Device.Step

set_option autoImplicit false

/-!
# Failed uplink starts

A start sets the flag of the session, starts the crypto session and its pouch, and creates the header. When
one of these fails only the flag is taken back.
-/

namespace Pouch

section Model

variable {Key : Type} (cfg : Config)

-- The whole of `pouch_uplink_start`, with no other party in between.
def pouchUplinkStart (session : SessionCall Key) (header : HeaderCall) (device : Device Key) :
    Device Key × List Event :=
  device.inTransport fun device =>
    let (device, activated) := startActivate device
    let (device, keyed) := startSession cfg session device
    let (device, numbered) := startPouch device
    let (device, created) := startHeader header device
    (device, activated ++ keyed ++ numbered ++ created)

def Event.isHeaderCreated : Event → Bool
  | .headerCreated _ _ => true
  | _ => false

-- Whether the start returned the pouch, and not NULL.
def startSucceeded (events : List Event) : Bool := events.any Event.isHeaderCreated

inductive TransportOp (Key : Type) where
  | start (session : SessionCall Key) (header : HeaderCall)
  | other (op : DeviceOp Key)

def transportStep (device : Device Key) : TransportOp Key → Device Key × List Event
  | .start session header => pouchUplinkStart cfg session header device
  | .other op => device.step cfg op

def Crypto.uplinkSession : Crypto Key → Option (Bool × Option Key)
  | .none => Option.none
  | .saead state => some (state.uplink.flags.active, state.uplink.key)

structure Device.SameUplink (before after : Device Key) : Prop where
  uplink : after.uplink = before.uplink
  session : after.crypto.uplinkSession = before.crypto.uplinkSession

def StartUndone (device : Device Key) (session : SessionCall Key) (header : HeaderCall) : Prop :=
  let (after, events) := pouchUplinkStart cfg session header device
  startSucceeded events = false → device.SameUplink after

-- `pouch_header_create` returns NULL; the reference to the certificate is in the header of SAEAD.
def HeaderCall.Fails (header : HeaderCall) : Crypto Key → Prop
  | .none => header.malloc = none ∨ header.encoded = none
  | .saead _ => header.malloc = none ∨ header.encoded = none ∨ header.certRef = false

/-- Nothing is left behind by a start that fails: one that finds a session fails at once, and one without a
session ID only takes back an active session. A start without a header has a new session by then, and has
overwritten the header. -/
def FailsCleanly (device : Device Key) (session : SessionCall Key) (header : HeaderCall) : Prop :=
  device.starting.isSome = true ∨ device.uplink.sessionActive = true ∨
    match device.crypto, session.random with
    | .none, _ => header.Fails device.crypto → device.uplink.header = none
    | .saead state, none => state.uplink.flags.active = false
    | .saead state, some value => header.Fails device.crypto →
        device.uplink.header = none ∧ state.uplink.flags.active = true ∧
          state.uplink.key = session.keys.sessionKeyGenerate ⟨.device, .random value⟩ session.algorithm
            cfg.maxBlockPayloadSizeLog

def StartsFailCleanly (reached : History (Device Key) Event) : TransportOp Key → Prop
  | .start session header => FailsCleanly cfg reached.state session header
  | .other _ => True

end Model

section Starts

variable {Key : Type} {cfg : Config} {device : Device Key}

theorem pouchHeaderCreate_isSome (header : HeaderCall) (crypto : Crypto Key) (pool : Ledger)
    (active : ∀ state, crypto = .saead state → state.uplink.flags.active = true) :
    (pouchHeaderCreate header crypto pool).1 = none ↔ header.Fails crypto := by
  unfold pouchHeaderCreate
  cases malloc : header.malloc with
  | none => cases crypto <;> simp [bufAlloc, bufHold, HeaderCall.Fails, malloc]
  | some memory =>
    cases crypto with
    | none =>
      cases encoded : header.encoded <;>
        simp [bufAlloc, bufHold, HeaderCall.Fails, malloc, encoded, Crypto.headerGet]
    | saead state =>
      cases encoded : header.encoded <;> cases certRef : header.certRef <;>
        simp [bufAlloc, bufHold, HeaderCall.Fails, malloc, encoded, certRef, Crypto.headerGet, active state rfl]

theorem startHeader_undone_iff (header : HeaderCall) (crypto : Crypto Key)
    (active : ∀ state, crypto = .saead state → state.uplink.flags.active = true) (events : List Event)
    (started : startSucceeded events = false) (inactive : device.uplink.sessionActive = false) :
    let result := startHeader header
      { device with
        crypto := crypto, uplink := { device.uplink with sessionActive := true }, starting := some .header }
    (startSucceeded (events ++ result.2) = false → device.SameUplink result.1) ↔
      (header.Fails crypto → device.uplink.header = none ∧
        crypto.uplinkSession = device.crypto.uplinkSession) := by
  have fails := pouchHeaderCreate_isSome header crypto device.pool active
  intro result
  cases created : pouchHeaderCreate header crypto device.pool with
  | mk buf pool =>
    rw [created] at fails
    cases buf with
    | some buf =>
      have succeeded : startSucceeded (events ++ result.2) = true := by
        simp [result, startHeader, created, startSucceeded, Event.isHeaderCreated]
      have fine : ¬ header.Fails crypto := by simpa using fails.not.mp
      simp [succeeded, fine]
    | none =>
      have failed : startSucceeded (events ++ result.2) = false := by
        simp only [startSucceeded] at started
        simp [result, startHeader, created, startSucceeded, Event.isHeaderCreated, started]
      have after : result.1 = startFail
          { device with
            pool := pool
            crypto := crypto
            uplink := { device.uplink with sessionActive := true, header := none }
            starting := some .header } := by
        simp [result, startHeader, created]
      simp only [failed, after, forall_true_left, fails.mp rfl]
      constructor
      · rintro ⟨uplink, session⟩
        exact ⟨(congrArg Uplink.header uplink).symm, session⟩
      · rintro ⟨noHeader, session⟩
        refine ⟨?_, session⟩
        simp only [startFail, ← noHeader, ← inactive]

theorem pouchUplinkStart_idle (session : SessionCall Key) (header : HeaderCall) (crypto : Crypto Key)
    (idle : device.starting = none) (inactive : device.uplink.sessionActive = false)
    (keyed : (device.crypto.sessionStart cfg session).1 = none)
    (numbered : (device.crypto.sessionStart cfg session).2.pouchStart = (none, crypto)) :
    pouchUplinkStart cfg session header device =
      let headed := startHeader header
        { device with
          crypto := crypto, uplink := { device.uplink with sessionActive := true }, starting := some .header }
      (headed.1, [.activated, .sessionStarted, .pouchStarted] ++ headed.2) := by
  simp only [pouchUplinkStart, Device.inTransport, idle, startActivate, inactive, startSession, startPouch]
  cases started : device.crypto.sessionStart cfg session with
  | mk status next =>
    rw [started] at keyed numbered
    simp only at keyed numbered
    subst keyed
    simp [started, numbered]

theorem startUndone_plaintext (session : SessionCall Key) (header : HeaderCall) (idle : device.starting = none)
    (inactive : device.uplink.sessionActive = false) (crypto : device.crypto = .none) :
    StartUndone cfg device session header ↔ (header.Fails device.crypto → device.uplink.header = none) := by
  have keyed : (device.crypto.sessionStart cfg session).1 = none := by rw [crypto]; rfl
  have numbered : (device.crypto.sessionStart cfg session).2.pouchStart = (none, .none) := by rw [crypto]; rfl
  have undone := startHeader_undone_iff header .none (by simp) [.activated, .sessionStarted, .pouchStarted]
    rfl inactive
  rw [StartUndone, pouchUplinkStart_idle session header .none idle inactive keyed numbered]
  simpa [crypto] using undone

theorem startUndone_noId (session : SessionCall Key) (header : HeaderCall) (idle : device.starting = none)
    (inactive : device.uplink.sessionActive = false) (state : Saead Key) (crypto : device.crypto = .saead state)
    (random : session.random = none) :
    StartUndone cfg device session header ↔ state.uplink.flags.active = false := by
  have refused : pouchUplinkStart cfg session header device =
      (startFail
        { device with
          crypto := .saead { state with uplink := { state.uplink with flags := .clear } }
          uplink := { device.uplink with sessionActive := true }
          starting := some .session },
        [.activated, .startFailed none]) := by
    simp [pouchUplinkStart, Device.inTransport, idle, startActivate, inactive, startSession, crypto,
      Crypto.sessionStart, uplinkSessionStart, random, startFail, startPouch, startHeader]
  have failed : startSucceeded [.activated, .startFailed none] = false := rfl
  simp only [StartUndone, refused, failed, forall_true_left]
  constructor
  · rintro ⟨_, same⟩
    rw [crypto] at same
    exact (congrArg Prod.fst (Option.some.inj same)).symm
  · intro notActive
    refine ⟨?_, ?_⟩
    · simp only [startFail, ← inactive]
    · rw [crypto]
      simp only [startFail, Crypto.uplinkSession, SessionFlags.clear, notActive]

theorem startUndone_saead (session : SessionCall Key) (header : HeaderCall) (idle : device.starting = none)
    (inactive : device.uplink.sessionActive = false) (state : Saead Key) (crypto : device.crypto = .saead state)
    (value : Bytes 16) (random : session.random = some value) :
    StartUndone cfg device session header ↔
      (header.Fails device.crypto → device.uplink.header = none ∧ state.uplink.flags.active = true ∧
        state.uplink.key = session.keys.sessionKeyGenerate ⟨.device, .random value⟩ session.algorithm
          cfg.maxBlockPayloadSizeLog) := by
  let started : Saead Key :=
    { state with
      uplink :=
        { id := ⟨.device, .random value⟩
          flags := ⟨true, true, false⟩
          algorithm := session.algorithm
          key := session.keys.sessionKeyGenerate ⟨.device, .random value⟩ session.algorithm
            cfg.maxBlockPayloadSizeLog
          pouch := ⟨1, 0, state.uplink.pouch.ad⟩ } }
  have keyed : (device.crypto.sessionStart cfg session).1 = none := by
    simp [crypto, Crypto.sessionStart, uplinkSessionStart, random]
  have numbered : (device.crypto.sessionStart cfg session).2.pouchStart = (none, .saead started) := by
    simp [crypto, Crypto.sessionStart, uplinkSessionStart, random, Crypto.pouchStart, uplinkPouchStart,
      sessionPouchStart, started]
  have undone := startHeader_undone_iff header (.saead started) (by rintro _ ⟨⟩; rfl)
    [.activated, .sessionStarted, .pouchStarted] rfl inactive
  have same : (Crypto.saead started).uplinkSession = device.crypto.uplinkSession ↔
      state.uplink.flags.active = true ∧
        state.uplink.key = session.keys.sessionKeyGenerate ⟨.device, .random value⟩ session.algorithm
          cfg.maxBlockPayloadSizeLog := by
    rw [crypto]
    simp only [Crypto.uplinkSession, started, Option.some.injEq, Prod.mk.injEq]
    exact and_congr eq_comm eq_comm
  rw [StartUndone, pouchUplinkStart_idle session header (.saead started) idle inactive keyed numbered]
  rw [same] at undone
  rw [crypto]
  exact undone

theorem startUndone_iff (session : SessionCall Key) (header : HeaderCall) :
    StartUndone cfg device session header ↔ FailsCleanly cfg device session header := by
  unfold FailsCleanly
  by_cases busy : device.starting.isSome = true
  next =>
    simp only [StartUndone, pouchUplinkStart, Device.inTransport, busy, if_true, true_or, iff_true]
    exact fun _ => ⟨rfl, rfl⟩
  next =>
    have idle : device.starting = none := by simpa using busy
    by_cases active : device.uplink.sessionActive = true
    next =>
      simp only [StartUndone, pouchUplinkStart, Device.inTransport, idle, startActivate, active, startSession,
        startPouch, startHeader, Option.isSome_none, Bool.false_eq_true, if_false, or_true, if_true,
        reduceCtorEq, true_or, iff_true]
      exact fun _ => ⟨rfl, rfl⟩
    next =>
      have inactive : device.uplink.sessionActive = false := by simpa using active
      simp only [busy, active, Bool.false_eq_true, false_or]
      cases crypto : device.crypto with
      | none =>
        rw [startUndone_plaintext session header idle inactive crypto, crypto]
      | saead state =>
        cases random : session.random with
        | none => exact startUndone_noId session header idle inactive state crypto random
        | some value =>
          rw [startUndone_saead session header idle inactive state crypto value random, crypto]

end Starts

/-- In every run of the library, whatever its parties do between the calls: the starts that fail change
nothing exactly if none of them fails after it has got a session or with a header in place. -/
theorem failed_starts_change_nothing_iff {Key : Type} (cfg : Config) (ops : List (TransportOp Key)) :
    (∀ done session header, done ++ [.start session header] <+: ops →
      StartUndone cfg (History.run (transportStep cfg) ⟨Device.boot Key cfg, []⟩ done).state session header) ↔
    History.Meets (transportStep cfg) (StartsFailCleanly cfg) ⟨Device.boot Key cfg, []⟩ ops := by
  simp only [History.meets_iff_prefix, startUndone_iff]
  constructor
  · intro every done op before
    cases op with
    | start session header => exact every done session header before
    | other op => trivial
  · intro every done session header before
    exact every done (.start session header) before

def keyedSession : SessionCall Unit := ⟨.gcm, some (Bytes.zero 16), fun _ _ _ => some (), fun _ => none⟩

/-- Without memory for the header, the first start leaves an active SAEAD session with a key. -/
theorem failed_header_leaves_session :
    ¬ StartUndone (defaultConfig .saead) (Device.boot Unit (defaultConfig .saead)) keyedSession
        ⟨none, true, some []⟩ := by
  intro undone
  obtain ⟨_, session⟩ := undone rfl
  have active := congrArg (Option.map Prod.fst) session
  exact absurd active (by decide)

end Pouch
