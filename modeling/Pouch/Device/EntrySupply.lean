import Pouch.Device.UplinkSupply
import Pouch.Device.WriterRefinement
import Pouch.EntryRoundTrip

set_option autoImplicit false

/-!
# Entries on their way to the transport

Where the accepted entries are as long as the application writes nothing else: in the blocks that were passed on, and
in the open block. The worker takes the blocks in order.
-/

namespace Pouch

open ByteMemory

def Event.accepted? : Event → Option (List UInt8)
  | .entryAccepted _ entry => some entry
  | _ => none

def writtenEntries (log : List Event) : List (List UInt8) := log.filterMap Event.accepted?

@[simp] theorem writtenEntries_append (first second : List Event) :
    writtenEntries (first ++ second) = writtenEntries first ++ writtenEntries second :=
  List.filterMap_append

theorem writtenEntries_other (log : List Event) (event : Event) (other : event.accepted? = none) :
    writtenEntries (log ++ [event]) = writtenEntries log := by
  simp [writtenEntries, other]

def EntryWrite.written (call : EntryWrite) : List (List UInt8) :=
  match call.path, call.data with
  | some path, some data => [entryBytes path call.contentType data]
  | _, _ => []

section Status

variable {Key : Type} (cfg : Config) (device : Device Key)

theorem writeOpen_written (path : CString) (contentType : UInt16) (data : List UInt8) (opened : Buf)
    (result : Device Key × List Event) (written : device.writeOpen cfg path contentType data opened = some result) :
    writtenEntries result.2 = [entryBytes path contentType data] := by
  unfold Device.writeOpen at written
  cases write : writeEntry cfg opened.data path contentType data with
  | none => simp [write] at written
  | some block =>
    obtain rfl : _ = result := by simpa [write] using written
    rfl

theorem writeNew_written (path : CString) (contentType : UInt16) (data : List UInt8) (malloc : Option Memory) :
    let result := device.writeNew cfg path contentType data malloc
    (result.1 = none → writtenEntries result.2.2 = [entryBytes path contentType data]) ∧
      (result.1 ≠ none → writtenEntries result.2.2 = []) := by
  simp only [Device.writeNew]
  cases blockAlloc malloc with
  | none => exact ⟨by simp [bufHold], fun _ => rfl⟩
  | some fresh =>
    simp only [bufHold]
    generalize opens : Device.writeOpen cfg path contentType data _ _ = result
    cases result with
    | none => exact ⟨by simp, fun _ => rfl⟩
    | some result => exact ⟨fun _ => writeOpen_written cfg _ path contentType data _ result opens, by simp⟩

theorem entryWrite_written (call : EntryWrite) :
    let result := device.pouchUplinkEntryWrite cfg call
    (result.1 = none → writtenEntries result.2.2 = call.written) ∧
      (result.1 ≠ none → writtenEntries result.2.2 = []) := by
  have refused (err : Errno) : ((some err : Status) = none → writtenEntries [] = call.written) ∧
      ((some err : Status) ≠ none → writtenEntries [] = []) := ⟨by simp, fun _ => rfl⟩
  unfold Device.pouchUplinkEntryWrite
  cases isPath : call.path with
  | none => exact refused .einval
  | some path =>
    cases isData : call.data with
    | none => exact refused .einval
    | some data =>
      have entry : call.written = [entryBytes path call.contentType data] := by
        simp [EntryWrite.written, isPath, isData]
      by_cases empty : data.length = 0
      next =>
        simp only [empty, if_true]
        exact refused .einval
      next =>
        simp only [empty, if_false]
        cases call.lock with
        | some err => exact refused err
        | none =>
          rw [entry]
          cases device.entryBlock with
          | none => exact writeNew_written cfg device path call.contentType data call.malloc
          | some opened =>
            cases written : device.writeOpen cfg path call.contentType data opened with
            | some result =>
              simp only [written]
              exact ⟨fun _ => writeOpen_written cfg device path call.contentType data opened result written, by simp⟩
            | none =>
              have silent : writtenEntries (device.passEntries cfg opened).2 = [] := rfl
              simp only [written, writtenEntries_append, silent, List.nil_append]
              exact writeNew_written cfg (device.passEntries cfg opened).1 path call.contentType data call.malloc

end Status

section Entries

variable {Key : Type} {cfg : Config} {device : Device Key} {log : List Event} {done : List (List WireEntry)}
  {entries : List WireEntry}

structure EntriesHeld (cfg : Config) (device : Device Key) (log : List Event) (done : List (List WireEntry))
    (entries : List WireEntry) : Prop where
  passed : List.Forall₂ (SealedEntries cfg) ((log.flatMap Event.enqueues).map Buf.data) done
  pending : PendingEntries cfg entries (device.entryBlock.map Buf.data)
  accepted : (done.flatten ++ entries).map WireEntry.encode = writtenEntries log

def DeviceOp.WritesEntries (cfg : Config) : DeviceOp Key → Prop
  | .entryWrite call => call.Valid cfg
  | .streamOpen _ _ _ _ | .streamWrite _ _ _ | .streamClose _ | .enqueue _ _ => False
  | _ => True

theorem EntriesHeld.writeOpen (kept : EntriesHeld cfg device log done entries) (opened : Buf)
    (held : device.entryBlock = some opened) (path : CString) (contentType : UInt16) (data : List UInt8)
    (payload : cfg.maxBlockPayloadSize ≤ 32768) (pathFits : path.bytes.length ≤ 255)
    (dataSmall : data.length < cfg.sizeRange / 2) (result : Device Key × List Event)
    (written : device.writeOpen cfg path contentType data opened = some result) :
    ∃ entry, EntriesHeld cfg result.1 (log ++ result.2) done (entries ++ [entry]) := by
  have pending := kept.pending
  rw [held] at pending
  unfold Device.writeOpen at written
  cases write : writeEntry cfg opened.data path contentType data with
  | none => simp [write] at written
  | some block =>
    obtain rfl : _ = result := by simpa [write] using written
    obtain ⟨entry, samePath, sameType, sameData, next⟩ := writeEntry_open cfg opened.data block entries path
      contentType data payload pathFits dataSmall pending write
    have encoded : entry.encode = entryBytes path contentType data := by
      simp [WireEntry.encode, entryBytes, samePath, sameType, sameData]
    refine ⟨entry, ?_, next, ?_⟩
    · simpa [Event.enqueues] using kept.passed
    · rw [writtenEntries_append, ← kept.accepted, ← List.append_assoc, List.map_append, ← encoded]
      rfl

theorem EntriesHeld.opened (kept : EntriesHeld cfg device log done []) (pool : Ledger) (fresh : Buf)
    (malloc : Option Memory) (allocated : blockAlloc malloc = some fresh.data) :
    EntriesHeld cfg { device with pool := pool, entryBlock := some fresh } (log ++ [.entryOpened fresh]) done [] := by
  constructor
  next => simpa [Event.enqueues] using kept.passed
  next => exact blockAlloc_open cfg malloc fresh.data allocated
  next => rw [writtenEntries_other log _ rfl, kept.accepted]

theorem EntriesHeld.writeNew (kept : EntriesHeld cfg device log done []) (path : CString) (contentType : UInt16)
    (data : List UInt8) (malloc : Option Memory) (payload : cfg.maxBlockPayloadSize ≤ 32768)
    (pathFits : path.bytes.length ≤ 255) (dataSmall : data.length < cfg.sizeRange / 2) :
    let result := device.writeNew cfg path contentType data malloc
    ∃ entries, EntriesHeld cfg result.2.1 (log ++ result.2.2) done entries := by
  simp only [Device.writeNew]
  cases allocated : blockAlloc malloc with
  | none =>
    refine ⟨[], ?_, rfl, ?_⟩
    · simpa [bufHold] using kept.passed
    · simpa [bufHold] using kept.accepted
  | some fresh =>
    have begun := kept.opened device.pool.alloc ⟨device.pool.next, .entries, fresh⟩ malloc allocated
    simp only [bufHold]
    generalize written : Device.writeOpen cfg path contentType data _ _ = result
    cases result with
    | none => exact ⟨[], begun⟩
    | some result =>
      obtain ⟨entry, next⟩ := begun.writeOpen _ rfl path contentType data payload pathFits dataSmall result written
      exact ⟨[] ++ [entry], by simpa using next⟩

theorem EntriesHeld.passEntries (kept : EntriesHeld cfg device log done entries) (opened : Buf)
    (held : device.entryBlock = some opened) :
    EntriesHeld cfg (device.passEntries cfg opened).1 (log ++ (device.passEntries cfg opened).2) (done ++ [entries])
      [] := by
  have pending := kept.pending
  rw [held] at pending
  have finished := blockFinish_sealed cfg opened.data entries pending
  constructor
  next =>
    simp only [Device.passEntries, List.flatMap_append, List.map_append]
    exact List.rel_append kept.passed (.cons finished .nil)
  next => rfl
  next =>
    rw [Device.passEntries, writtenEntries_other log _ rfl, ← kept.accepted]
    simp

theorem EntriesHeld.entryWrite (kept : EntriesHeld cfg device log done entries) (call : EntryWrite)
    (payload : cfg.maxBlockPayloadSize ≤ 32768) (valid : call.Valid cfg) :
    let result := device.pouchUplinkEntryWrite cfg call
    ∃ done entries, EntriesHeld cfg result.2.1 (log ++ result.2.2) done entries := by
  have unchanged : EntriesHeld cfg device (log ++ []) done entries := by simpa using kept
  unfold Device.pouchUplinkEntryWrite
  cases isPath : call.path with
  | none => exact ⟨done, entries, unchanged⟩
  | some path =>
    cases isData : call.data with
    | none => exact ⟨done, entries, unchanged⟩
    | some data =>
      have pathFits := valid.path path isPath
      have dataSmall := valid.data data isData
      simp only
      split_ifs with empty
      · exact ⟨done, entries, unchanged⟩
      · cases call.lock with
        | some err => exact ⟨done, entries, unchanged⟩
        | none =>
          cases held : device.entryBlock with
          | none =>
            have pending := kept.pending
            rw [held] at pending
            obtain rfl : entries = [] := pending
            exact ⟨done, kept.writeNew path call.contentType data call.malloc payload pathFits dataSmall⟩
          | some opened =>
            cases written : device.writeOpen cfg path call.contentType data opened with
            | some result =>
              obtain ⟨entry, next⟩ := kept.writeOpen opened held path call.contentType data payload pathFits dataSmall
                result written
              simp only [written]
              exact ⟨done, entries ++ [entry], next⟩
            | none =>
              have passed := kept.passEntries opened held
              obtain ⟨more, next⟩ := passed.writeNew path call.contentType data call.malloc payload pathFits dataSmall
              simp only [written]
              exact ⟨done ++ [entries], more, by simpa using next⟩

theorem EntriesHeld.silent (kept : EntriesHeld cfg device log done entries) (next : Device Key) (events : List Event)
    (same : next.entryBlock = device.entryBlock) (passes : events.flatMap Event.enqueues = [])
    (accepts : writtenEntries events = []) : EntriesHeld cfg next (log ++ events) done entries := by
  constructor
  next => simpa [passes] using kept.passed
  next => simpa [same] using kept.pending
  next => rw [writtenEntries_append, accepts, List.append_nil, kept.accepted]

theorem EntriesHeld.closeReturn (kept : EntriesHeld cfg device log done entries) (lock : Status) :
    let result := device.closeReturn cfg lock
    ∃ done entries, EntriesHeld cfg result.1 (log ++ result.2) done entries := by
  have closed : ∃ done entries, EntriesHeld cfg (device.entryBlockClose cfg lock).1
      (log ++ (device.entryBlockClose cfg lock).2) done entries := by
    have unchanged : EntriesHeld cfg device (log ++ []) done entries := by simpa using kept
    unfold Device.entryBlockClose
    cases lock with
    | some err => exact ⟨done, entries, unchanged⟩
    | none =>
      cases held : device.entryBlock with
      | none => exact ⟨done, entries, unchanged⟩
      | some opened =>
        simp only
        split_ifs with filled
        · exact ⟨done ++ [entries], [], kept.passEntries opened held⟩
        · exact ⟨done, entries, unchanged⟩
  simp only [Device.closeReturn]
  split_ifs with inside
  · obtain ⟨done, entries, next⟩ := closed
    refine ⟨done, entries, ?_⟩
    rw [← List.append_assoc]
    exact next.silent _ _ rfl rfl rfl
  · exact ⟨done, entries, by simpa using kept⟩

variable {next : Device Key} {event : Event} {party : Party}

theorem SmallStep.entries_kept (small : SmallStep device event next) (application : event.party ≠ .application) :
    next.entryBlock = device.entryBlock ∧ event.enqueues = [] ∧ event.accepted? = none := by
  cases small with
  | entryOpened | entryAccepted | entryPassed => exact absurd rfl application
  | streamOpened | openFailed | streamWrote | streamPassed | streamClosed | streamDiscarded =>
    exact absurd rfl application
  | enqueued => exact absurd rfl application
  | downlink _ pool crypto downlink on =>
    refine ⟨rfl, Event.enqueues_downlink on, ?_⟩
    rcases Event.of_downlink on with ⟨_, rfl⟩ | rfl | ⟨_, _, rfl⟩ | ⟨_, rfl⟩ <;> rfl
  | _ => exact ⟨rfl, rfl, rfl⟩

theorem CallTrace.entries_kept {result : Device Key × List Event} (call : CallTrace cfg party device result)
    (application : party ≠ .application) (close : party ≠ .close) :
    result.1.entryBlock = device.entryBlock ∧ result.2.flatMap Event.enqueues = [] ∧
      writtenEntries result.2 = [] := by
  have kept := call.trace.invariant
    (fun reached log => reached.entryBlock = device.entryBlock ∧ log.flatMap Event.enqueues = [] ∧
      writtenEntries log = []) (fun event => event.party ≠ .application) ?_ ?_ [] ⟨rfl, rfl, rfl⟩
  · simpa using kept
  · rintro before event after log small outside ⟨block, passes, accepts⟩
    obtain ⟨same, silent, notAccepted⟩ := small.entries_kept outside
    exact ⟨same.trans block, by simp [passes, silent], by rw [writtenEntries_other log event notAccepted, accepts]⟩
  · intro event member
    rcases Event.party_of_reportedBy (call.parties event member) with same | ⟨rfl, _⟩ | ⟨_, isClose⟩
    · rwa [same]
    · simp [Event.party]
    · exact absurd isClose close

theorem EntriesHeld.step (kept : EntriesHeld cfg device log done entries) (formed : device.Formed cfg)
    (payload : cfg.maxBlockPayloadSize ≤ 32768) (op : DeviceOp Key) (writes : op.WritesEntries cfg) :
    ∃ done entries, EntriesHeld cfg (device.step cfg op).1 (log ++ (device.step cfg op).2) done entries := by
  have others (application : op.party ≠ .application) (close : op.party ≠ .close) :
      ∃ done entries, EntriesHeld cfg (device.step cfg op).1 (log ++ (device.step cfg op).2) done entries := by
    obtain ⟨same, passes, accepts⟩ := (Device.step_call cfg device op formed).entries_kept application close
    exact ⟨done, entries, kept.silent _ _ same passes accepts⟩
  cases op with
  | entryWrite call => exact kept.entryWrite call payload writes
  | streamOpen | streamWrite | streamClose | enqueue => exact writes.elim
  | closeCall =>
    refine ⟨done, entries, ?_⟩
    simp only [Device.step, closeCall]
    split_ifs <;> exact kept.silent _ _ rfl rfl rfl
  | closeReturn lock => exact kept.closeReturn lock
  | _ => exact others (by simp [DeviceOp.party]) (by simp [DeviceOp.party])

end Entries

section Processing

variable {Key : Type} {cfg : Config} {device next : Device Key} {log : List Event} {event : Event}

structure Processing (device : Device Key) (log : List Event) : Prop where
  plaintext : device.crypto.isPlaintext = true
  conserved : log.flatMap Event.enqueues =
    outgoingBlocks (log.flatMap Event.transports) ++ device.uplink.queue

theorem Processing.small (processing : Processing device log) (small : SmallStep device event next) :
    Processing next (log ++ [event]) := by
  have conserved := processing.conserved
  refine ⟨small.build.trans processing.plaintext, ?_⟩
  simp only [List.flatMap_append, List.flatMap_singleton, outgoingBlocks_append, conserved, List.append_assoc]
  cases small with
  | processed block sent rest crypto pool active opened queue exchange build plain =>
    simp [Event.enqueues, Event.transports, queue, plain processing.plaintext]
  | dropped block rest crypto pool active opened queue exchange build encrypts =>
    have plaintext := processing.plaintext
    simp [encrypts] at plaintext
  | downlink _ pool crypto downlink on build =>
    simp [Event.enqueues_downlink on, Event.transports_downlink on]
  | _ => simp [Event.enqueues, Event.transports, uplinkEnqueue, Device.putStream, startFail, endSession]

theorem Processing.step (processing : Processing device log) (formed : device.Formed cfg) (op : DeviceOp Key) :
    Processing (device.step cfg op).1 (log ++ (device.step cfg op).2) :=
  ((Device.step_traced cfg).trace device op formed).invariant Processing (fun _ => True)
    (fun _ _ _ _ small _ holds => holds.small small) (fun _ _ => trivial) log processing

end Processing

end Pouch
