import Pouch.Device.Traces

set_option autoImplicit false

namespace Pouch

open Ledger

/-- The steps of the downlink pipeline: a block in a buffer of its own is passed to
`block_downlink_push`, or a work queue gets to run one of the two handlers. The crypto layer may be
in any state when a block comes to be decrypted. -/
inductive PipelineOp (Key : Type) where
  | push (data : PouchBuf)
  | decrypt (crypto : Crypto Key) (call : BlockCall Key)
  | consume

inductive PipelineEvent where
  | pushed (block : Buf)
  -- `crypto_decrypt_block` was called, and what it returned. `none` is NULL.
  | decrypted (block result : Option Buf)
  -- The block was given to `pouch_downlink_block_push`.
  | consumed (block : Option Buf)

def Event.pipeline : Event → Option PipelineEvent
  | .decrypted block result => some (.decrypted block result)
  | .consumed block => some (.consumed block)
  | _ => none

section Model

variable {Key : Type} (cfg : Config)

def pipelineStep (device : Device Key) : PipelineOp Key → Device Key × List PipelineEvent
  | .push data =>
    let block : Buf := ⟨device.pool.next, .internal, data⟩
    ({ device with pool := device.pool.alloc, downlink := device.downlink.blockDownlinkPush block },
      [.pushed block])
  | .decrypt crypto call =>
    let (next, events) := ({ device with crypto := crypto }).decryptBlocks cfg call
    (next, events.filterMap Event.pipeline)
  | .consume =>
    let (next, events) := device.consumeBlocks
    (next, events.filterMap Event.pipeline)

end Model

def PipelineEvent.pushes : PipelineEvent → List Buf
  | .pushed block => [block]
  | _ => []

def PipelineEvent.decryption : PipelineEvent → List (Buf × Option Buf)
  | .decrypted (some block) result => [(block, result)]
  | _ => []

def PipelineEvent.consumes : PipelineEvent → List Buf
  | .consumed block => block.toList
  | _ => []

def pushedBlocks (log : List PipelineEvent) : List Buf := log.flatMap PipelineEvent.pushes

def decryptions (log : List PipelineEvent) : List (Buf × Option Buf) := log.flatMap PipelineEvent.decryption

def consumedBlocks (log : List PipelineEvent) : List Buf := log.flatMap PipelineEvent.consumes

variable {Key : Type} {cfg : Config} {device : Device Key} {log : List PipelineEvent}

structure Pipelined (device : Device Key) (log : List PipelineEvent) : Prop where
  pushed : pushedBlocks log = (decryptions log).map Prod.fst ++ device.downlink.decryptQueue
  results : (decryptions log).filterMap Prod.snd = consumedBlocks log ++ device.downlink.consumeQueue
  decrypt : device.downlink.decryptWork = true → device.downlink.decryptQueue ≠ []
  consume : device.downlink.consumeWork = true → device.downlink.consumeQueue ≠ []
  notNull : ∀ result, .decrypted none result ∉ log

structure PipelineOwned (device : Device Key) (log : List PipelineEvent) : Prop where
  balanced : device.pool.Balanced device.downlink.held
  numbered : ∀ block ∈ pushedBlocks log, block.id < device.pool.next
  distinct : ((pushedBlocks log).map Buf.id).Nodup
  failed : ∀ block, (block, none) ∈ decryptions log → block.id ∈ device.pool.freed
  replaced : ∀ block result, (block, some result) ∈ decryptions log →
    block.id ∈ device.pool.freed ∨ result = block
  freed : ∀ block ∈ consumedBlocks log, block.id ∈ device.pool.freed

section Logs

variable (log : List PipelineEvent) (event : PipelineEvent)

@[simp] theorem pushedBlocks_snoc : pushedBlocks (log ++ [event]) = pushedBlocks log ++ event.pushes := by
  simp [pushedBlocks]

@[simp] theorem decryptions_snoc : decryptions (log ++ [event]) = decryptions log ++ event.decryption := by
  simp [decryptions]

@[simp] theorem consumedBlocks_snoc : consumedBlocks (log ++ [event]) = consumedBlocks log ++ event.consumes := by
  simp [consumedBlocks]

end Logs

section Order

variable (cfg) in
theorem decryptStep_cases (pipelined : Pipelined device log) (crypto : Crypto Key) (call : BlockCall Key) :
    pipelineStep cfg device (.decrypt crypto call) = ({ device with crypto := crypto }, []) ∨
    ∃ block rest, device.downlink.decryptQueue = block :: rest ∧
      pipelineStep cfg device (.decrypt crypto call) =
        ({ device with
            pool := (crypto.decryptBlock cfg call device.pool block).2.2
            crypto := (crypto.decryptBlock cfg call device.pool block).2.1
            downlink := device.downlink.decryptBlocks (crypto.decryptBlock cfg call device.pool block).1 },
          [.decrypted (some block) (crypto.decryptBlock cfg call device.pool block).1]) := by
  simp only [pipelineStep, Device.decryptBlocks]
  split_ifs with pending
  · right
    cases queue : device.downlink.decryptQueue with
    | nil => exact absurd queue (pipelined.decrypt pending)
    | cons block rest => exact ⟨block, rest, rfl, rfl⟩
  · exact .inl rfl

variable (cfg) in
theorem consumeStep_cases (pipelined : Pipelined device log) :
    pipelineStep cfg device .consume = (device, []) ∨
    ∃ block rest, device.downlink.consumeQueue = block :: rest ∧
      pipelineStep cfg device .consume =
        ({ device with pool := device.pool.free block.id, downlink := device.downlink.consumeBlocks },
          [.consumed (some block)]) := by
  simp only [pipelineStep, Device.consumeBlocks]
  split_ifs with pending
  · right
    cases queue : device.downlink.consumeQueue with
    | nil => exact absurd queue (pipelined.consume pending)
    | cons block rest => exact ⟨block, rest, rfl, rfl⟩
  · exact .inl rfl

theorem Pipelined.push (pipelined : Pipelined device log) (data : PouchBuf) :
    Pipelined (pipelineStep cfg device (.push data)).1
      (log ++ (pipelineStep cfg device (.push data)).2) := by
  have before := pipelined.pushed
  have results := pipelined.results
  constructor
  next =>
    simp [pipelineStep, before, PipelineEvent.pushes, PipelineEvent.decryption,
      DownlinkState.blockDownlinkPush]
  next =>
    simp [pipelineStep, results, PipelineEvent.decryption, PipelineEvent.consumes,
      DownlinkState.blockDownlinkPush]
  next => simp [pipelineStep, DownlinkState.blockDownlinkPush]
  next => exact pipelined.consume
  next => simpa [pipelineStep] using pipelined.notNull

theorem Pipelined.decrypted (pipelined : Pipelined device log) (block : Buf) (rest : List Buf)
    (queue : device.downlink.decryptQueue = block :: rest) (result : Option Buf) (next : Device Key)
    (downlink : next.downlink = device.downlink.decryptBlocks result) :
    Pipelined next (log ++ [.decrypted (some block) result]) := by
  have before := pipelined.pushed
  have results := pipelined.results
  constructor
  next =>
    have left : next.downlink.decryptQueue = rest := by
      rw [downlink]
      cases result <;> simp [DownlinkState.decryptBlocks, queue]
    simp [before, left, queue, PipelineEvent.pushes, PipelineEvent.decryption]
  next =>
    cases result with
    | none => simp [downlink, results, DownlinkState.decryptBlocks, PipelineEvent.decryption, PipelineEvent.consumes]
    | some plain =>
      simp [downlink, results, DownlinkState.decryptBlocks, PipelineEvent.decryption, PipelineEvent.consumes]
  next => cases result <;> simp [downlink, DownlinkState.decryptBlocks]
  next =>
    cases result with
    | none => simpa [downlink, DownlinkState.decryptBlocks] using pipelined.consume
    | some plain => simp [downlink, DownlinkState.decryptBlocks]
  next => simpa using pipelined.notNull

theorem Pipelined.consumed (pipelined : Pipelined device log) (block : Buf) (rest : List Buf)
    (queue : device.downlink.consumeQueue = block :: rest) (next : Device Key)
    (downlink : next.downlink = device.downlink.consumeBlocks) :
    Pipelined next (log ++ [.consumed (some block)]) := by
  have before := pipelined.pushed
  have results := pipelined.results
  constructor
  next => simp [before, downlink, DownlinkState.consumeBlocks, PipelineEvent.pushes, PipelineEvent.decryption]
  next =>
    simp [results, downlink, queue, DownlinkState.consumeBlocks, PipelineEvent.decryption, PipelineEvent.consumes]
  next => simpa [downlink, DownlinkState.consumeBlocks] using pipelined.decrypt
  next => simp [downlink, DownlinkState.consumeBlocks]
  next => simpa using pipelined.notNull

theorem Pipelined.step (pipelined : Pipelined device log) (op : PipelineOp Key) :
    Pipelined (pipelineStep cfg device op).1 (log ++ (pipelineStep cfg device op).2) := by
  cases op with
  | push data => exact pipelined.push data
  | decrypt crypto call =>
    rcases decryptStep_cases cfg pipelined crypto call with idle | ⟨block, rest, queue, ran⟩
    next =>
      rw [idle, List.append_nil]
      exact ⟨pipelined.pushed, pipelined.results, pipelined.decrypt, pipelined.consume, pipelined.notNull⟩
    next =>
      rw [ran]
      exact pipelined.decrypted block rest queue _ _ rfl
  | consume =>
    rcases consumeStep_cases cfg pipelined with idle | ⟨block, rest, queue, ran⟩
    next =>
      rw [idle, List.append_nil]
      exact pipelined
    next =>
      rw [ran]
      exact pipelined.consumed block rest queue _ rfl

end Order

section Buffers

theorem bufProduce_freed (pool : Ledger) (malloc : Option ByteMemory.Memory) (produced : Option PouchBuf) :
    pool.freed ≤ (bufProduce pool malloc produced).2.freed := by
  cases malloc with
  | none => exact le_refl _
  | some memory =>
    cases produced with
    | none => exact Multiset.le_cons_self _ _
    | some data => exact le_refl _

theorem decryptBlock_freed (call : BlockCall Key) (pool : Ledger) (block : Buf) (crypto : Crypto Key) :
    pool.freed ≤ (crypto.decryptBlock cfg call pool block).2.2.freed ∧
      (block.id ∈ (crypto.decryptBlock cfg call pool block).2.2.freed ∨
        (crypto.decryptBlock cfg call pool block).1 = some block) := by
  cases crypto with
  | none => exact ⟨le_refl _, .inr rfl⟩
  | saead state =>
    have produced := bufProduce_freed pool call.malloc
      (downlinkBlockDecrypt cfg call.malloc call.psa state block.data).1
    simp only [Crypto.decryptBlock, Ledger.free]
    exact ⟨produced.trans (Multiset.le_cons_self _ _), .inl (Multiset.mem_cons_self _ _)⟩

theorem downlink_exchange {next : Device Key} {events : List Event}
    (trace : Trace (PartyStep .downlink) device events next)
    (kept : ∀ event ∈ events, event.overwritten = none) :
    Exchange device.pool device.downlink.held next.pool next.downlink.held := by
  induction trace with
  | nil => exact Exchange.refl _ _
  | @cons first second third event rest head _ ih =>
    have tail := ih fun other member => kept other (List.mem_cons_of_mem event member)
    obtain ⟨small, reported⟩ := head
    cases small with
    | downlink _ pool crypto downlink on build exchange =>
      rw [kept event List.mem_cons_self] at exchange
      exact Exchange.trans (by simpa using exchange) tail
    | _ => simp [Event.reportedBy, Event.party] at reported

theorem PipelineOwned.push (owned : PipelineOwned device log) (data : PouchBuf) :
    PipelineOwned (pipelineStep cfg device (.push data)).1
      (log ++ (pipelineStep cfg device (.push data)).2) := by
  have fresh := (exchange_alloc device.pool).frame device.downlink.held
  constructor
  next =>
    have balanced := fresh.balanced 0 (by simpa using owned.balanced)
    simp only [pipelineStep, DownlinkState.held, DownlinkState.blockDownlinkPush, idsOf_append, idsOf_cons,
      idsOf_nil] at balanced ⊢
    convert balanced using 1
    abel
  next =>
    intro block member
    simp only [pipelineStep, pushedBlocks_snoc, PipelineEvent.pushes, List.mem_append, List.mem_singleton,
      Ledger.alloc] at member ⊢
    rcases member with earlier | rfl
    next => exact Nat.lt_succ_of_lt (owned.numbered block earlier)
    next => exact Nat.lt_succ_self _
  next =>
    simp only [pipelineStep, pushedBlocks_snoc, PipelineEvent.pushes, List.map_append, List.map_cons, List.map_nil]
    rw [List.nodup_append]
    refine ⟨owned.distinct, by simp, ?_⟩
    simp only [List.mem_map, List.mem_singleton]
    rintro _ ⟨block, earlier, rfl⟩ _ rfl
    exact Nat.ne_of_lt (owned.numbered block earlier)
  next => simpa [pipelineStep, PipelineEvent.decryption, Ledger.alloc] using owned.failed
  next => simpa [pipelineStep, PipelineEvent.decryption, Ledger.alloc] using owned.replaced
  next => simpa [pipelineStep, PipelineEvent.consumes, Ledger.alloc] using owned.freed

theorem PipelineOwned.handled (owned : PipelineOwned device log) (next : Device Key) (event : PipelineEvent)
    (silent : event.pushes = []) (exchange : Exchange device.pool device.downlink.held next.pool next.downlink.held)
    (freed : device.pool.freed ≤ next.pool.freed)
    (failed : ∀ block, (block, none) ∈ event.decryption → block.id ∈ next.pool.freed)
    (replaced : ∀ block result, (block, some result) ∈ event.decryption →
      block.id ∈ next.pool.freed ∨ result = block)
    (consumed : ∀ block ∈ event.consumes, block.id ∈ next.pool.freed) :
    PipelineOwned next (log ++ [event]) := by
  have still : ∀ number, number ∈ device.pool.freed → number ∈ next.pool.freed :=
    fun _ member => Multiset.mem_of_le freed member
  constructor
  next => simpa using exchange.balanced 0 (by simpa using owned.balanced)
  next =>
    intro block member
    simp only [pushedBlocks_snoc, silent, List.append_nil] at member
    exact Nat.lt_of_lt_of_le (owned.numbered block member) exchange.grows
  next => simpa [silent] using owned.distinct
  next =>
    intro block member
    rw [decryptions_snoc, List.mem_append] at member
    exact member.elim (fun earlier => still _ (owned.failed block earlier)) (failed block)
  next =>
    intro block result member
    rw [decryptions_snoc, List.mem_append] at member
    rcases member with earlier | here
    next => exact (owned.replaced block result earlier).imp_left (still _)
    next => exact replaced block result here
  next =>
    intro block member
    rw [consumedBlocks_snoc, List.mem_append] at member
    exact member.elim (fun earlier => still _ (owned.freed block earlier)) (consumed block)

theorem decryptBlocks_kept (call : BlockCall Key) (device : Device Key) :
    ∀ event ∈ (device.decryptBlocks cfg call).2, event.overwritten = none := by
  simp only [Device.decryptBlocks]
  split_ifs
  · cases device.downlink.decryptQueue <;> simp [Event.overwritten]
  · simp

theorem consumeBlocks_kept (device : Device Key) :
    ∀ event ∈ device.consumeBlocks.2, event.overwritten = none := by
  simp only [Device.consumeBlocks]
  split_ifs
  · cases device.downlink.consumeQueue <;> simp [Event.overwritten]
  · simp

theorem PipelineOwned.step (owned : PipelineOwned device log) (pipelined : Pipelined device log)
    (op : PipelineOp Key) :
    PipelineOwned (pipelineStep cfg device op).1 (log ++ (pipelineStep cfg device op).2) := by
  cases op with
  | push data => exact owned.push data
  | decrypt crypto call =>
    have exchange := downlink_exchange (Device.decryptBlocks_trace cfg { device with crypto := crypto } call)
      (decryptBlocks_kept call _)
    rcases decryptStep_cases cfg pipelined crypto call with idle | ⟨block, rest, queue, ran⟩
    next =>
      rw [idle, List.append_nil]
      exact ⟨owned.balanced, owned.numbered, owned.distinct, owned.failed, owned.replaced, owned.freed⟩
    next =>
      have freed := @decryptBlock_freed Key cfg call device.pool block crypto
      have next := congrArg Prod.fst ran
      simp only [pipelineStep] at next
      rw [next] at exchange
      rw [ran]
      refine owned.handled _ _ rfl exchange freed.1 ?_ ?_ (by simp [PipelineEvent.consumes])
      · intro other member
        simp only [PipelineEvent.decryption, List.mem_singleton, Prod.mk.injEq] at member
        obtain ⟨rfl, none'⟩ := member
        exact freed.2.resolve_right (by simp [← none'])
      · intro other result member
        simp only [PipelineEvent.decryption, List.mem_singleton, Prod.mk.injEq] at member
        obtain ⟨rfl, some'⟩ := member
        exact freed.2.imp_right fun same => Option.some.inj (some'.trans same)
  | consume =>
    have exchange : Exchange device.pool device.downlink.held (pipelineStep cfg device .consume).1.pool
        (pipelineStep cfg device .consume).1.downlink.held :=
      downlink_exchange (Device.consumeBlocks_trace device) (consumeBlocks_kept device)
    rcases consumeStep_cases cfg pipelined with idle | ⟨block, rest, queue, ran⟩
    next =>
      rw [idle, List.append_nil]
      exact owned
    next =>
      rw [ran] at exchange ⊢
      refine owned.handled _ _ rfl exchange (Multiset.le_cons_self _ _) (by simp [PipelineEvent.decryption])
        (by simp [PipelineEvent.decryption]) ?_
      simp [PipelineEvent.consumes, Ledger.free]

end Buffers

structure BlocksInOrder (device : Device Key) (log : List PipelineEvent)
    (finished pending : List (Buf × Option Buf)) : Prop where
  calls : decryptions log = finished ++ pending
  notNull : ∀ result, .decrypted none result ∉ log
  pushed : pushedBlocks log =
    finished.map Prod.fst ++ pending.map Prod.fst ++ device.downlink.decryptQueue
  distinct : ((pushedBlocks log).map Buf.id).Nodup
  consumed : consumedBlocks log = finished.filterMap Prod.snd
  inOrder : ((finished.filter fun call => call.2.isSome).map Prod.fst).Sublist (pushedBlocks log)
  consumeQueue : device.downlink.consumeQueue = pending.filterMap Prod.snd
  failedFreed : ∀ block, (block, none) ∈ finished ++ pending → block.id ∈ device.pool.freed
  consumedFreed : ∀ block result, (block, some result) ∈ finished →
    block.id ∈ device.pool.freed ∧ result.id ∈ device.pool.freed
  live : ∀ block ∈ device.downlink.decryptQueue ++ device.downlink.consumeQueue,
    block.id ∉ device.pool.freed

/-- In whatever order blocks are pushed and the handlers run, the blocks that are consumed are a
subsequence of those pushed, every block is in one place only, and `crypto_decrypt_block` is never
called with NULL. -/
theorem downlink_pipeline_in_order (cfg : Config) (ops : List (PipelineOp Key)) :
    let reached := History.run (pipelineStep cfg) ⟨.boot Key cfg, []⟩ ops
    ∃ finished pending, BlocksInOrder reached.state reached.log finished pending := by
  intro reached
  have both := History.run_invariant (pipelineStep cfg) (fun _ _ => True)
    (fun history => Pipelined history.state history.log ∧ PipelineOwned history.state history.log)
    ⟨.boot Key cfg, []⟩ ops ?_ (History.meets_of_forall _ _ _ _ fun _ _ _ => trivial)
    (fun history op _ holds => ⟨holds.1.step op, holds.2.step holds.1 op⟩)
  · obtain ⟨pipelined, owned⟩ := both
    obtain ⟨finished, pending, calls, consumed, queue⟩ := List.filterMap_eq_append_iff.mp pipelined.results
    have pushed := pipelined.pushed
    rw [calls, List.map_append] at pushed
    refine ⟨finished, pending, calls, pipelined.notNull, pushed, owned.distinct, consumed.symm, ?_, queue.symm,
      ?_, ?_, ?_⟩
    · rw [pushed, List.append_assoc]
      exact (List.filter_sublist.map Prod.fst).trans (List.sublist_append_left _ _)
    · rw [← calls]
      exact owned.failed
    · intro block result member
      have isFreed : result.id ∈ reached.state.pool.freed := by
        apply owned.freed
        rw [← consumed, List.mem_filterMap]
        exact ⟨(block, some result), member, rfl⟩
      have tried : (block, some result) ∈ decryptions reached.log := by
        rw [calls]
        exact List.mem_append_left pending member
      rcases owned.replaced block result tried with replaced | rfl
      · exact ⟨replaced, isFreed⟩
      · exact ⟨isFreed, isFreed⟩
    · intro block member isFreed
      have disjoint := (Multiset.nodup_add.mp owned.balanced.nodup).2.2
      refine Multiset.disjoint_left.mp disjoint ?_ isFreed
      simp only [DownlinkState.held, idsOf, Multiset.mem_add, Multiset.mem_coe, List.mem_map]
      rcases List.mem_append.mp member with waiting | ready
      · exact .inl (.inr ⟨block, waiting, rfl⟩)
      · exact .inr ⟨block, ready, rfl⟩
  · refine ⟨⟨rfl, rfl, ?_, ?_, by simp⟩, ⟨Balanced.empty, ?_, List.nodup_nil, ?_, ?_, ?_⟩⟩
    · rintro ⟨⟩
    · rintro ⟨⟩
    · rintro block ⟨⟩
    · rintro block ⟨⟩
    · rintro block result ⟨⟩
    · rintro block ⟨⟩

end Pouch
