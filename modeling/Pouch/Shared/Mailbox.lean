import Mathlib.Data.List.Basic
import Mathlib.Data.List.Range
import Pouch.Shared.History

set_option autoImplicit false

/-!
# A bounded mailbox and its worker

The mailbox holds a limited number of messages; one that finds it full is lost. Whoever puts a message notifies the
worker in a second step. The worker takes the messages one by one and gives each to all receivers.
-/

namespace Mailbox

variable {Message Receiver : Type}

structure State (Message Receiver : Type) where
  queue : List Message
  -- The puts whose notification is still to come.
  notifying : Nat
  pending : Bool
  -- What the worker has still to deliver of the message it took; `none` if it is not running.
  worker : Option (List (Receiver × Message))

def State.empty : State Message Receiver := ⟨[], 0, false, none⟩

inductive Op (Message : Type) where
  | put (message : Message)
  | notify
  | begin
  -- One delivery, or the next message, or the end of the run.
  | turn

def Op.isPut : Op Message → Bool
  | .put _ => true
  | _ => false

inductive Event (Message Receiver : Type) where
  | accepted (message : Message)
  | lost (message : Message)
  | delivered (receiver : Receiver) (message : Message)

section Model

variable (depth : Nat) (receivers : List Receiver)

def deliveries (message : Message) : List (Receiver × Message) := receivers.map fun receiver => (receiver, message)

def turn (state : State Message Receiver) : State Message Receiver × List (Event Message Receiver) :=
  match state.worker with
  | none => (state, [])
  | some ((receiver, message) :: rest) => ({ state with worker := some rest }, [.delivered receiver message])
  | some [] =>
    match state.queue with
    | [] => ({ state with worker := none }, [])
    | message :: rest => ({ state with queue := rest, worker := some (deliveries receivers message) }, [])

def step (state : State Message Receiver) : Op Message → State Message Receiver × List (Event Message Receiver)
  | .put message =>
    let state := { state with notifying := state.notifying + 1 }
    if state.queue.length < depth then ({ state with queue := state.queue ++ [message] }, [.accepted message])
    else (state, [.lost message])
  | .notify =>
    if state.notifying = 0 then (state, [])
    else ({ state with notifying := state.notifying - 1, pending := true }, [])
  | .begin =>
    if state.pending = true ∧ state.worker = none then ({ state with pending := false, worker := some [] }, [])
    else (state, [])
  | .turn => turn receivers state

def Event.accepts : Event Message Receiver → Option Message
  | .accepted message => some message
  | _ => none

def Event.loses : Event Message Receiver → Option Message
  | .lost message => some message
  | _ => none

def Event.delivers : Event Message Receiver → Option (Receiver × Message)
  | .delivered receiver message => some (receiver, message)
  | _ => none

def accepted (log : List (Event Message Receiver)) : List Message := log.filterMap Event.accepts

def lost (log : List (Event Message Receiver)) : List Message := log.filterMap Event.loses

def Event.offers : Event Message Receiver → Option Message
  | .accepted message | .lost message => some message
  | .delivered _ _ => none

def offered (log : List (Event Message Receiver)) : List Message := log.filterMap Event.offers

def delivered (log : List (Event Message Receiver)) : List (Receiver × Message) := log.filterMap Event.delivers

def received [DecidableEq Receiver] (receiver : Receiver) (log : List (Event Message Receiver)) : List Message :=
  ((delivered log).filter fun delivery => delivery.1 = receiver).map Prod.snd

/-- Nothing will happen before the next message is put. -/
structure AtRest (state : State Message Receiver) : Prop where
  notified : state.notifying = 0
  idle : state.pending = false
  stopped : state.worker = none

end Model

section Logs

variable (first second : List (Event Message Receiver))

@[simp] theorem accepted_append : accepted (first ++ second) = accepted first ++ accepted second :=
  List.filterMap_append

@[simp] theorem lost_append : lost (first ++ second) = lost first ++ lost second := List.filterMap_append

@[simp] theorem delivered_append : delivered (first ++ second) = delivered first ++ delivered second :=
  List.filterMap_append

@[simp] theorem accepted_nil : accepted ([] : List (Event Message Receiver)) = [] := rfl

@[simp] theorem accepted_accepted (message : Message) :
    accepted [(.accepted message : Event Message Receiver)] = [message] := rfl

@[simp] theorem accepted_lost (message : Message) : accepted [(.lost message : Event Message Receiver)] = [] := rfl

@[simp] theorem accepted_delivered (receiver : Receiver) (message : Message) :
    accepted [.delivered receiver message] = [] := rfl

@[simp] theorem delivered_nil : delivered ([] : List (Event Message Receiver)) = [] := rfl

@[simp] theorem delivered_accepted (message : Message) :
    delivered [(.accepted message : Event Message Receiver)] = [] := rfl

@[simp] theorem delivered_lost (message : Message) : delivered [(.lost message : Event Message Receiver)] = [] := rfl

@[simp] theorem delivered_delivered (receiver : Receiver) (message : Message) :
    delivered [.delivered receiver message] = [(receiver, message)] := rfl

@[simp] theorem offered_append : offered (first ++ second) = offered first ++ offered second :=
  List.filterMap_append

theorem accepted_sublist (log : List (Event Message Receiver)) : (accepted log).Sublist (offered log) := by
  induction log with
  | nil => exact List.Sublist.slnil
  | cons event rest ih =>
    cases event with
    | accepted message => exact ih.cons_cons message
    | lost message => exact ih.cons message
    | delivered receiver message => exact ih

theorem accepted_eq_offered (log : List (Event Message Receiver)) (kept : lost log = []) :
    accepted log = offered log := by
  induction log with
  | nil => rfl
  | cons event rest ih =>
    cases event with
    | accepted message => exact congrArg (message :: ·) (ih kept)
    | lost message => simp [lost, Event.loses] at kept
    | delivered receiver message => exact ih kept

end Logs

section Invariant

variable {depth : Nat} {receivers : List Receiver} {state : State Message Receiver}
  {log : List (Event Message Receiver)}

/-- Every accepted message is delivered to all receivers, or it is being delivered or waits; and whatever waits
will be taken. -/
structure Sound (depth : Nat) (receivers : List Receiver) (state : State Message Receiver)
    (log : List (Event Message Receiver)) : Prop where
  bounded : state.queue.length ≤ depth
  conserved : (accepted log).flatMap (deliveries receivers) =
    delivered log ++ state.worker.getD [] ++ state.queue.flatMap (deliveries receivers)
  awaited : state.queue ≠ [] → state.pending = true ∨ state.worker.isSome = true ∨ 0 < state.notifying

theorem Sound.empty : Sound depth receivers State.empty ([] : List (Event Message Receiver)) :=
  ⟨Nat.zero_le _, rfl, fun waits => absurd rfl waits⟩

theorem Sound.put (sound : Sound depth receivers state log) (message : Message) :
    Sound depth receivers (step depth receivers state (.put message)).1
      (log ++ (step depth receivers state (.put message)).2) := by
  have conserved := sound.conserved
  simp only [step]
  split_ifs with room
  · refine ⟨?_, ?_, fun _ => .inr (.inr (Nat.succ_pos _))⟩
    · simp only [List.length_append, List.length_singleton]
      omega
    · simp [conserved]
  · refine ⟨sound.bounded, ?_, fun _ => .inr (.inr (Nat.succ_pos _))⟩
    simpa using conserved

theorem Sound.turn (sound : Sound depth receivers state log) :
    Sound depth receivers (turn receivers state).1 (log ++ (turn receivers state).2) := by
  obtain ⟨queue, notifying, pending, worker⟩ := state
  obtain ⟨bounded, conserved, awaited⟩ := sound
  simp only at bounded conserved awaited
  cases worker with
  | none => exact ⟨bounded, by simpa [Mailbox.turn] using conserved, by simpa [Mailbox.turn] using awaited⟩
  | some calls =>
    cases calls with
    | cons call rest =>
      obtain ⟨receiver, message⟩ := call
      refine ⟨bounded, ?_, fun _ => .inr (.inl rfl)⟩
      simpa [Mailbox.turn] using conserved
    | nil =>
      cases queue with
      | nil => exact ⟨Nat.zero_le _, by simpa [Mailbox.turn] using conserved, fun waits => absurd rfl waits⟩
      | cons message rest =>
        refine ⟨?_, ?_, fun _ => .inr (.inl rfl)⟩
        · simp only [List.length_cons] at bounded
          simp only [Mailbox.turn]
          omega
        · simpa [Mailbox.turn] using conserved

theorem Sound.step (sound : Sound depth receivers state log) (op : Op Message) :
    Sound depth receivers (step depth receivers state op).1 (log ++ (step depth receivers state op).2) := by
  cases op with
  | put message => exact sound.put message
  | turn => exact sound.turn
  | notify =>
    simp only [Mailbox.step]
    split_ifs with none'
    · simpa using sound
    · exact ⟨sound.bounded, by simpa using sound.conserved, fun _ => .inl rfl⟩
  | begin =>
    simp only [Mailbox.step]
    split_ifs with ready
    · refine ⟨sound.bounded, ?_, fun _ => .inr (.inl rfl)⟩
      simpa [ready.2] using sound.conserved
    · simpa using sound

theorem received_deliveries [DecidableEq Receiver] (receiver : Receiver) (distinct : receivers.Nodup)
    (member : receiver ∈ receivers) (messages : List Message) :
    ((messages.flatMap (deliveries receivers)).filter fun delivery => delivery.1 = receiver).map Prod.snd =
      messages := by
  have one (message : Message) : (deliveries receivers message).filter (fun delivery => delivery.1 = receiver) =
      [(receiver, message)] := by
    have picked : receivers.filter (fun other => other = receiver) = [receiver] := by
      rw [List.filter_eq, distinct.count, if_pos member]
      rfl
    rw [deliveries, List.filter_map]
    simp [Function.comp_def, picked]
  induction messages with
  | nil => rfl
  | cons message rest ih => simp [List.filter_append, one, ih]

theorem Sound.received [DecidableEq Receiver] (sound : Sound depth receivers state log) (receiver : Receiver)
    (distinct : receivers.Nodup) (member : receiver ∈ receivers) :
    accepted log = Mailbox.received receiver log ++
      ((state.worker.getD []).filter fun delivery => delivery.1 = receiver).map Prod.snd ++ state.queue := by
  have whole := received_deliveries receiver distinct member (accepted log)
  rw [sound.conserved] at whole
  simp only [List.filter_append, List.map_append, received_deliveries receiver distinct member] at whole
  exact whole.symm

theorem Sound.received_atRest [DecidableEq Receiver] (sound : Sound depth receivers state log) (rest : AtRest state)
    (receiver : Receiver) (distinct : receivers.Nodup) (member : receiver ∈ receivers) :
    Mailbox.received receiver log = accepted log := by
  have nothing : state.queue = [] := by
    by_contra waits
    have waiting := sound.awaited waits
    simp [rest.notified, rest.idle, rest.stopped] at waiting
  have whole := sound.received receiver distinct member
  simpa [rest.stopped, nothing] using whole.symm

theorem Sound.received_prefix [DecidableEq Receiver] (sound : Sound depth receivers state log) (receiver : Receiver)
    (distinct : receivers.Nodup) (member : receiver ∈ receivers) :
    Mailbox.received receiver log <+: accepted log := by
  rw [sound.received receiver distinct member, List.append_assoc]
  exact List.prefix_append _ _

end Invariant

section Room

variable (depth : Nat) (receivers : List Receiver)

theorem step_room (state : State Message Receiver) (op : Op Message)
    (room : op.isPut = true → state.queue.length < depth) :
    lost (step depth receivers state op).2 = [] ∧
      (step depth receivers state op).1.queue.length ≤ state.queue.length + if op.isPut then 1 else 0 := by
  cases op with
  | put message => simp [step, room rfl, lost, Event.loses, Op.isPut]
  | notify =>
    simp only [step]
    split_ifs <;> simp [lost]
  | begin =>
    simp only [step]
    split_ifs <;> simp [lost]
  | turn =>
    obtain ⟨queue, notifying, pending, worker⟩ := state
    simp only [step, turn]
    cases worker with
    | none => simp [lost]
    | some calls =>
      cases calls with
      | cons call rest => simp [lost, Event.loses]
      | nil =>
        cases queue with
        | nil => simp [lost]
        | cons message rest =>
          refine ⟨rfl, ?_⟩
          simp only [List.length_cons]
          omega

end Room

section Progress

variable (depth : Nat) (receivers : List Receiver)

def turnsLeft (receivers : List Receiver) (queue : List Message) (calls : List (Receiver × Message)) : Nat :=
  calls.length + queue.length * (receivers.length + 1) + 1

theorem worker_stops (log : List (Event Message Receiver)) (count notifying : Nat) (pending : Bool)
    (queue : List Message) (calls : List (Receiver × Message)) (enough : turnsLeft receivers queue calls = count) :
    (History.run (step depth receivers) ⟨⟨queue, notifying, pending, some calls⟩, log⟩
      (List.replicate count .turn)).state = ⟨[], notifying, pending, none⟩ := by
  induction count generalizing queue calls log with
  | zero => simp [turnsLeft] at enough
  | succ count ih =>
    rw [List.replicate_succ, History.run_cons]
    cases calls with
    | cons call rest =>
      apply ih
      simp only [turnsLeft, List.length_cons] at enough ⊢
      omega
    | nil =>
      cases queue with
      | nil =>
        have last : count = 0 := by
          simp only [turnsLeft, List.length_nil] at enough
          omega
        subst last
        rfl
      | cons message rest =>
        apply ih
        simp only [turnsLeft, deliveries, List.length_nil, List.length_cons, List.length_map, Nat.add_mul] at enough ⊢
        omega

def Op.isWorker : Op Message → Bool
  | .begin | .turn => true
  | _ => false

/-- Once all puts are notified, the worker alone brings the mailbox to rest. -/
theorem comes_to_rest (history : History (State Message Receiver) (Event Message Receiver))
    (notified : history.state.notifying = 0) :
    ∃ ops : List (Op Message), (∀ op ∈ ops, op.isWorker = true) ∧
      AtRest (History.run (step depth receivers) history ops).state := by
  -- A worker that runs is let to its end; then a pending one is let run.
  have ended (reached : History (State Message Receiver) (Event Message Receiver))
      (silent : reached.state.notifying = 0) (running : reached.state.worker.isSome = true) :
      ∃ count, (History.run (step depth receivers) reached (List.replicate count .turn)).state =
        ⟨[], 0, reached.state.pending, none⟩ := by
    obtain ⟨⟨queue, notifying, pending, worker⟩, log⟩ := reached
    obtain ⟨calls, rfl⟩ := Option.isSome_iff_exists.mp running
    obtain rfl : notifying = 0 := silent
    exact ⟨_, worker_stops depth receivers log _ 0 pending queue calls rfl⟩
  have finished (reached : History (State Message Receiver) (Event Message Receiver))
      (silent : reached.state.notifying = 0) (stopped : reached.state.worker = none) :
      ∃ ops : List (Op Message), (∀ op ∈ ops, op.isWorker = true) ∧
        AtRest (History.run (step depth receivers) reached ops).state := by
    by_cases pending : reached.state.pending = true
    · have began : (reached.record (step depth receivers) .begin).state =
          { reached.state with pending := false, worker := some [] } := by
        simp [History.record, step, pending, stopped]
      obtain ⟨count, rest⟩ := ended (reached.record (step depth receivers) .begin) (by rw [began, silent])
        (by rw [began]; rfl)
      refine ⟨.begin :: List.replicate count .turn, by simp [Op.isWorker], ?_⟩
      rw [History.run_cons, rest, began]
      exact ⟨rfl, rfl, rfl⟩
    · exact ⟨[], by simp, silent, by simpa using pending, stopped⟩
  cases worker : history.state.worker with
  | none => exact finished history notified worker
  | some calls =>
    obtain ⟨count, stopped⟩ := ended history notified (by rw [worker]; rfl)
    obtain ⟨ops, steps, rest⟩ := finished (History.run (step depth receivers) history (List.replicate count .turn))
      (by rw [stopped]) (by rw [stopped])
    refine ⟨List.replicate count .turn ++ ops, ?_, ?_⟩
    · intro op member
      rcases List.mem_append.mp member with first | second
      · rw [(List.mem_replicate.mp first).2]
        rfl
      · exact steps op second
    · rw [History.run_append]
      exact rest

end Progress

end Mailbox
