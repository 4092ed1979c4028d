import Pouch.BleGatt.Packetizer
import Mathlib.Data.List.Range
import Mathlib.Data.Nat.Find

set_option autoImplicit false

/-!
# Packets and the data they carry

A source hands out its data piece by piece, as much as there is room for. Collecting the packets up to
the last one and decoding them gives the data back.
-/

namespace Pouch

section Contract

variable {Arg : Type}

/-- What a callback is to do when `rest` is what it still has to hand out. The last piece, and no other,
comes with NO_MORE_DATA. -/
structure HandsPiece (holds : Arg → List UInt8 → Prop) (filled : Filled Arg) (room : Nat)
    (rest : List UInt8) : Prop where
  fits : filled.piece.length ≤ room
  noError : filled.result ≠ .error
  last : filled.result = .noMoreData → filled.piece = rest
  more : filled.result ≠ .noMoreData → ∃ next, rest = filled.piece ++ next ∧ holds filled.userArg next

-- `holds` relates what is behind the user argument to what is still to be handed out.
def CallbackHandsOut (func : FillCb Arg) (userArg : Arg) (data : List UInt8) : Prop :=
  ∃ holds : Arg → List UInt8 → Prop, holds userArg data ∧
    ∀ arg rest room, holds arg rest → 0 < room → HandsPiece holds (func arg room) room rest

def PacketSource.HandsOut : PacketSource Arg → List UInt8 → Prop
  | .buffer src, data => src = data
  | .callback func userArg, data => CallbackHandsOut func userArg data

inductive CallbackEnds (func : FillCb Arg) : Arg → Prop
  | intro (userArg : Arg)
    (next : ∀ room, 0 < room → (func userArg room).result ≠ .noMoreData →
      CallbackEnds func (func userArg room).userArg) : CallbackEnds func userArg

def PacketSource.Ends : PacketSource Arg → Prop
  | .buffer _ => True
  | .callback func userArg => CallbackEnds func userArg

end Contract

section Collect

variable {Arg : Type}

-- The packets up to NO_MORE_DATA, which may not be reached with the given sizes. After an error the
-- packetizer is asked again.
def collectPackets (packetizer : Packetizer Arg) : List Nat → Option (List (List UInt8))
  | [] => none
  | dstLen :: sizes =>
    let got := packetizerGet packetizer dstLen
    match got.result with
    | .error => collectPackets got.packetizer sizes
    | .noMoreData => some [got.packet]
    | _ => (collectPackets got.packetizer sizes).map (got.packet :: ·)

def getPackets (packetizer : Packetizer Arg) : List Nat → List (PacketizerResult × List UInt8)
  | [] => []
  | dstLen :: sizes =>
    let got := packetizerGet packetizer dstLen
    (got.result, got.packet) :: getPackets got.packetizer sizes

/-- The packets decode to payloads that make up the data. Only the last is marked as last; the first is
marked as such if the packetizer was fresh, and no other. -/
def CarriesData (fresh : Bool) (packets : List (List UInt8)) (data : List UInt8) : Prop :=
  ∃ (parts : List Packet) (others : Nat),
    packets.map (fun packet => packetizerDecode (some packet)) = parts.map .ok ∧
    (parts.map (·.payload)).flatten = data ∧
    parts.map (·.isFirst) = fresh :: List.replicate others false ∧
    parts.map (·.isLast) = List.replicate others false ++ [true]

end Collect

section Steps

variable {Arg : Type}

theorem packetizerGet_small (packetizer : Packetizer Arg) (dstLen : Nat) (small : dstLen ≤ 1) :
    packetizerGet packetizer dstLen = ⟨.error, [], { packetizer with error := some .enomem }⟩ := by
  simp [packetizerGet, small]

inductive GetsPiece (packetizer : Packetizer Arg) (data : List UInt8) (got : Packetized Arg) : Prop
  | last (result : got.result = .noMoreData) (packet : got.packet = packetFlags packetizer.isFirst true :: data)
  | more (piece rest : List UInt8) (split : data = piece ++ rest)
    (result : got.result = .moreData ∨ got.result = .emptyPayload)
    (packet : got.packet = packetFlags packetizer.isFirst false :: piece)
    (handsOut : got.packetizer.source.HandsOut rest) (notFirst : got.packetizer.isFirst = false)

theorem packetizerGet_gets (packetizer : Packetizer Arg) (data : List UInt8) (dstLen : Nat)
    (usable : 1 < dstLen) (handsOut : packetizer.source.HandsOut data) :
    GetsPiece packetizer data (packetizerGet packetizer dstLen) := by
  have large : ¬ dstLen ≤ 1 := by omega
  obtain ⟨source, isFirst, error⟩ := packetizer
  cases source with
  | buffer src =>
    have same : src = data := handsOut
    subst same
    simp only [packetizerGet, large, if_false]
    by_cases last : src.length ≤ dstLen - 1
    next => exact .last (by simp [last]) (by simp [last])
    next =>
      apply GetsPiece.more (src.take (dstLen - 1)) (src.drop (dstLen - 1)) (List.take_append_drop ..).symm
      · simp [last]
      · simp [last]
      · simp [last, PacketSource.HandsOut]
      · rfl
  | callback func userArg =>
    obtain ⟨holds, held, contract⟩ := handsOut
    have piece := contract userArg data (dstLen - 1) held (by omega)
    simp only [packetizerGet, large, if_false, piece.noError]
    by_cases last : (func userArg (dstLen - 1)).result = .noMoreData
    next => exact .last (by simp [last]) (by simp [last, piece.last last])
    next =>
      obtain ⟨rest, split, still⟩ := piece.more last
      apply GetsPiece.more (func userArg (dstLen - 1)).piece rest split
      · simp only [last, decide_false, Bool.false_eq_true, if_false]
        split_ifs <;> simp
      · simp [last]
      · exact ⟨holds, still, contract⟩
      · rfl

theorem collectPackets_carries (packetizer : Packetizer Arg) (data : List UInt8) (sizes : List Nat)
    (packets : List (List UInt8)) (handsOut : packetizer.source.HandsOut data)
    (collected : collectPackets packetizer sizes = some packets) :
    CarriesData packetizer.isFirst packets data := by
  induction sizes generalizing packetizer data packets with
  | nil => simp [collectPackets] at collected
  | cons dstLen sizes ih =>
    by_cases small : dstLen ≤ 1
    next =>
      simp only [collectPackets, packetizerGet_small _ _ small] at collected
      exact ih { packetizer with error := some .enomem } data packets handsOut collected
    next =>
      rcases packetizerGet_gets packetizer data dstLen (by omega) handsOut with
        ⟨result, packet⟩ | ⟨piece, rest, split, result, packet, still, notFirst⟩
      · simp only [collectPackets, result, Option.some.injEq] at collected
        subst collected
        exact ⟨[⟨packetizer.isFirst, true, data⟩], 0, by simp [packet, packetizerDecode_flags]⟩
      · have later : ∃ others, collectPackets (packetizerGet packetizer dstLen).packetizer sizes = some others ∧
            (packetizerGet packetizer dstLen).packet :: others = packets := by
          rcases result with more | empty
          · simpa [collectPackets, more] using collected
          · simpa [collectPackets, empty] using collected
        obtain ⟨others, collectedOthers, rfl⟩ := later
        obtain ⟨parts, count, decoded, whole, firsts, lasts⟩ := ih _ _ _ still collectedOthers
        rw [notFirst] at firsts
        refine ⟨⟨packetizer.isFirst, false, piece⟩ :: parts, count + 1, ?_, ?_, ?_, ?_⟩
        · simp [packet, packetizerDecode_flags, decoded]
        · simp [whole, split]
        · simp [firsts, List.replicate_succ]
        · simp [lasts, List.replicate_succ]

end Steps

section Termination

variable {Arg : Type}

inductive SourceEnds : PacketSource Arg → Prop
  | intro (source : PacketSource Arg)
    (next : ∀ isFirst error dstLen, 1 < dstLen →
      (packetizerGet ⟨source, isFirst, error⟩ dstLen).result ≠ .noMoreData →
      SourceEnds (packetizerGet ⟨source, isFirst, error⟩ dstLen).packetizer.source) : SourceEnds source

theorem sourceEnds_buffer (src : List UInt8) : SourceEnds (.buffer src : PacketSource Arg) := by
  induction length : src.length using Nat.strong_induction_on generalizing src with
  | _ count ih =>
    constructor
    intro isFirst error dstLen usable notLast
    have large : ¬ dstLen ≤ 1 := by omega
    simp only [packetizerGet, large, if_false] at notLast ⊢
    by_cases last : src.length ≤ dstLen - 1
    next => simp [last] at notLast
    next =>
      simp only [last, decide_false, Bool.false_eq_true, if_false]
      exact ih (src.drop (dstLen - 1)).length (by simp only [List.length_drop]; omega) _ rfl

theorem sourceEnds_callback (func : FillCb Arg) (userArg : Arg) (ends : CallbackEnds func userArg) :
    SourceEnds (.callback func userArg) := by
  induction ends with
  | intro userArg _ ih =>
    constructor
    intro isFirst error dstLen usable notLast
    have large : ¬ dstLen ≤ 1 := by omega
    have callback : (func userArg (dstLen - 1)).result ≠ .noMoreData := by
      intro last
      simp [packetizerGet, large, last] at notLast
    have source : (packetizerGet ⟨.callback func userArg, isFirst, error⟩ dstLen).packetizer.source =
        .callback func (func userArg (dstLen - 1)).userArg := by
      simp only [packetizerGet, large, if_false]
      split <;> rfl
    rw [source]
    exact ih (dstLen - 1) (by omega) callback

theorem PacketSource.Ends.sourceEnds {source : PacketSource Arg} (ends : source.Ends) : SourceEnds source := by
  cases source with
  | buffer src => exact sourceEnds_buffer src
  | callback func userArg => exact sourceEnds_callback func userArg ends

theorem collectPackets_skip (packetizer : Packetizer Arg) (skipped : List Nat)
    (small : ∀ dstLen ∈ skipped, dstLen ≤ 1) :
    ∃ error, ∀ sizes, collectPackets packetizer (skipped ++ sizes) =
      collectPackets { packetizer with error := error } sizes := by
  induction skipped generalizing packetizer with
  | nil => exact ⟨packetizer.error, fun _ => rfl⟩
  | cons dstLen skipped ih =>
    simp only [List.mem_cons, forall_eq_or_imp] at small
    obtain ⟨error, others⟩ := ih { packetizer with error := some .enomem } small.2
    refine ⟨error, ?_⟩
    intro sizes
    simp only [List.cons_append, collectPackets, packetizerGet_small _ _ small.1]
    exact others sizes

theorem collectPackets_ends (packetizer : Packetizer Arg) (ends : SourceEnds packetizer.source)
    (sizes : Nat → Nat) (usable : ∀ from', ∃ index, from' ≤ index ∧ 1 < sizes index) :
    ∃ count, (collectPackets packetizer ((List.range count).map sizes)).isSome = true := by
  generalize supply : packetizer.source = source at ends
  induction ends generalizing packetizer sizes with
  | intro source next ih =>
    have some' : ∃ index, 1 < sizes index := (usable 0).imp fun _ both => both.2
    let first := Nat.find some'
    have small : ∀ dstLen ∈ (List.range first).map sizes, dstLen ≤ 1 := by
      simp only [List.mem_map, List.mem_range]
      rintro dstLen ⟨index, before, rfl⟩
      exact Nat.not_lt.mp (Nat.find_min some' before)
    have split (count : Nat) : (List.range (first + (count + 1))).map sizes =
        (List.range first).map sizes ++
          sizes first :: (List.range count).map fun index => sizes (first + 1 + index) := by
      rw [List.range_add, List.map_append, List.range_succ_eq_map]
      simp [Nat.add_assoc, Nat.add_comm 1]
    obtain ⟨error, skip⟩ := collectPackets_skip packetizer _ small
    subst supply
    let asked : Packetizer Arg := { packetizer with error := error }
    by_cases last : (packetizerGet asked (sizes first)).result = .noMoreData
    next =>
      refine ⟨first + (0 + 1), ?_⟩
      rw [split, skip]
      simp only [collectPackets]
      simp [asked, last]
    next =>
      have later (from' : Nat) : ∃ index, from' ≤ index ∧ 1 < sizes (first + 1 + index) := by
        obtain ⟨index, after, large⟩ := usable (first + 1 + from')
        refine ⟨index - (first + 1), by omega, ?_⟩
        rwa [Nat.add_sub_cancel' (by omega)]
      obtain ⟨count, collected⟩ := ih packetizer.isFirst error (sizes first) (Nat.find_spec some') last
        (packetizerGet asked (sizes first)).packetizer (fun index => sizes (first + 1 + index)) later rfl
      refine ⟨first + (count + 1), ?_⟩
      rw [split, skip]
      simp only [collectPackets]
      split
      · exact collected
      · rfl
      · simpa using collected

end Termination

section DeviceCertificate

theorem packetizerGet_deviceCert (cert : List UInt8) (isFirst : Bool) (error : Option PacketizerError)
    (dstLen : Nat) :
    let filled := packetizerGet ⟨.callback deviceCertFillCb cert, isFirst, error⟩ dstLen
    let copied := packetizerGet (⟨.buffer cert, isFirst, error⟩ : Packetizer (List UInt8)) dstLen
    filled.result = copied.result ∧ filled.packet = copied.packet ∧
      ∃ rest nextFirst nextError, filled.packetizer = ⟨.callback deviceCertFillCb rest, nextFirst, nextError⟩ ∧
        copied.packetizer = ⟨.buffer rest, nextFirst, nextError⟩ := by
  intro filled copied
  by_cases small : dstLen ≤ 1
  next =>
    simp [filled, copied, packetizerGet_small _ _ small]
  next =>
    by_cases last : cert.length ≤ dstLen - 1
    next =>
      simp only [filled, copied, packetizerGet, small, if_false, deviceCertFillCb]
      simp [last]
    next =>
      have room : dstLen - 1 ≤ cert.length := by omega
      have nonempty : dstLen - 1 ≠ 0 := by omega
      simp only [filled, copied, packetizerGet, small, if_false, deviceCertFillCb]
      simp [last, room, nonempty, Nat.sub_eq_zero_iff_le]

theorem getPackets_deviceCert (cert : List UInt8) (isFirst : Bool) (error : Option PacketizerError)
    (sizes : List Nat) :
    getPackets ⟨.callback deviceCertFillCb cert, isFirst, error⟩ sizes =
      getPackets (⟨.buffer cert, isFirst, error⟩ : Packetizer (List UInt8)) sizes := by
  induction sizes generalizing cert isFirst error with
  | nil => rfl
  | cons dstLen sizes ih =>
    obtain ⟨result, packet, rest, nextFirst, nextError, filled, copied⟩ :=
      packetizerGet_deviceCert cert isFirst error dstLen
    simp only [getPackets, result, packet, filled, copied, ih]

end DeviceCertificate

/-- A source that hands out the data gives it packet by packet: whatever the sizes, the packets up to
the last carry the data; a source that ends comes to its last packet if usable sizes keep coming; a size
without room for a payload only leaves an error behind. The callback for the device certificate gives the
packets that the certificate gives as a buffer. -/
theorem packetizer_round_trip {Arg : Type} (source : PacketSource Arg) (data : List UInt8) (malloc : Bool)
    (packetizer : Packetizer Arg) (handsOut : source.HandsOut data)
    (started : packetizerStart malloc source = some packetizer) :
    (∀ sizes packets, collectPackets packetizer sizes = some packets → CarriesData true packets data) ∧
    (source.Ends → ∀ sizes : Nat → Nat, (∀ from', ∃ index, from' ≤ index ∧ 1 < sizes index) →
      ∃ count, (collectPackets packetizer ((List.range count).map sizes)).isSome = true) ∧
    (∀ (reached : Packetizer Arg) (dstLen : Nat), dstLen ≤ 1 →
      packetizerGet reached dstLen = ⟨.error, [], { reached with error := some .enomem }⟩) ∧
    ∀ (cert : List UInt8) (filled copied : Packetizer (List UInt8)) (sizes : List Nat),
      packetizerStartCallback malloc deviceCertFillCb cert = some filled →
      packetizerStartBuffer malloc cert = some copied →
      getPackets filled sizes = getPackets copied sizes := by
  have allocated : malloc = true := by
    by_contra failed
    simp [packetizerStart, failed] at started
  subst allocated
  have fresh : packetizer = ⟨source, true, none⟩ := by
    simpa [packetizerStart] using started.symm
  subst fresh
  refine ⟨?_, ?_, packetizerGet_small, ?_⟩
  · intro sizes packets collected
    exact collectPackets_carries ⟨source, true, none⟩ data sizes packets handsOut collected
  · intro ends sizes usable
    exact collectPackets_ends ⟨source, true, none⟩ ends.sourceEnds sizes usable
  · intro cert filled copied sizes callback buffer
    simp only [packetizerStartCallback, packetizerStartBuffer, packetizerStart, if_true,
      Option.some.injEq] at callback buffer
    subst callback buffer
    exact getPackets_deviceCert cert true none sizes

-- A callback with an empty piece before every other one.
def pausingFillCb : FillCb (Bool × List UInt8) := fun arg room =>
  if arg.1 then
    ⟨if arg.2.length ≤ room then .noMoreData else .moreData, arg.2.take room, (false, arg.2.drop room)⟩
  else
    ⟨.moreData, [], (true, arg.2)⟩

theorem pausingFillCb_handsOut (data : List UInt8) :
    PacketSource.HandsOut (.callback pausingFillCb (false, data)) data := by
  refine ⟨fun arg rest => arg.2 = rest, rfl, ?_⟩
  rintro ⟨paused, rest⟩ _ room rfl _
  cases paused with
  | false => exact ⟨Nat.zero_le _, by simp [pausingFillCb], by simp [pausingFillCb], fun _ => ⟨rest, rfl, rfl⟩⟩
  | true =>
    have fits : (rest.take room).length ≤ room := List.length_take_le room rest
    by_cases all : rest.length ≤ room
    next => refine ⟨fits, ?_, ?_, ?_⟩ <;> simp [pausingFillCb, all, List.take_of_length_le]
    next => refine ⟨fits, ?_, ?_, ?_⟩ <;> simp [pausingFillCb, all]

theorem paused_data_round_trips : CarriesData true [[1], [0, 7, 8], [0], [2, 9]] [7, 8, 9] :=
  (packetizer_round_trip (.callback pausingFillCb (false, [7, 8, 9])) [7, 8, 9] true _
    (pausingFillCb_handsOut _) rfl).1 [1, 3, 3, 3, 4] _ rfl

end Pouch
