import Mathlib.Data.FinEnum
import Pouch.BlockDecoding
import Pouch.Stream

set_option autoImplicit false

namespace Pouch

open ByteMemory

structure StreamSpec where
  id : UInt8
  masked : id &&& blockIdMask = id
  nonzero : id ≠ 0
  path : CString
  pathFits : path.bytes.length ≤ 255
  contentType : UInt16

def idByte (id : UInt8) (first last : Bool) : UInt8 :=
  (id ||| if first then firstDataMask else 0) ||| if last then lastDataMask else 0

theorem idByte_flags : ∀ (id : UInt8) (first last : Bool), id &&& blockIdMask = id →
    idByte id first last &&& blockIdMask = id ∧
      (idByte id first last &&& firstDataMask != 0) = first ∧
      (idByte id first last &&& lastDataMask != 0) = last := by
  decide +kernel

theorem newStreamId_valid (counter : Nat) :
    (newStreamId counter).1 &&& blockIdMask = (newStreamId counter).1 ∧ (newStreamId counter).1 ≠ 0 := by
  have masked : ∀ byte : UInt8, byte &&& blockIdMask &&& blockIdMask = byte &&& blockIdMask := by
    decide +kernel
  have next : ∀ byte : UInt8, byte &&& blockIdMask = 0 → (byte + 1) &&& blockIdMask ≠ 0 := by
    decide +kernel
  have counted : UInt8.ofNat (counter + 1) = UInt8.ofNat counter + 1 := UInt8.ofNat_add counter 1
  unfold newStreamId
  by_cases zero : UInt8.ofNat counter &&& blockIdMask = 0
  · simp only [zero, if_true]
    exact ⟨masked _, by rw [counted]; exact next _ zero⟩
  · simp only [zero, if_false]
    exact ⟨masked _, zero⟩

namespace StreamSpec

variable (spec : StreamSpec)

def header : List UInt8 :=
  putBe16 spec.contentType.toNat ++ UInt8.ofNat spec.path.bytes.length :: spec.path.bytes

theorem idByte_isStream (first last : Bool) :
    idByte spec.id first last &&& blockIdMask ≠ blockIdEntry := by
  rw [(idByte_flags spec.id first last spec.masked).1]
  exact spec.nonzero

def segment (first last : Bool) (piece : List UInt8) : WireBlock :=
  if isFirst : first = true then
    .streamStart (idByte spec.id first last) (spec.idByte_isStream first last)
      (by
        have flag := (idByte_flags spec.id first last spec.masked).2.1
        rw [isFirst] at flag ⊢
        simpa using flag)
      spec.path.bytes spec.contentType.toNat piece (by have := spec.pathFits; omega)
      spec.contentType.toNat_lt
  else
    .streamData (idByte spec.id first last) (spec.idByte_isStream first last)
      (by
        have flag := (idByte_flags spec.id first last spec.masked).2.1
        rw [Bool.eq_false_iff.mpr isFirst] at flag ⊢
        simpa using flag)
      piece

theorem segment_payload (first last : Bool) (piece : List UInt8) :
    (spec.segment first last piece).payload =
      idByte spec.id first last :: ((if first then spec.header else []) ++ piece) := by
  cases first <;> simp [segment, WireBlock.payload, WireBlock.id, WireBlock.body, header]

theorem segment_calls (first last : Bool) (piece : List UInt8) :
    (spec.segment first last piece).calls =
      (if first then [.start spec.id.toNat spec.path.bytes spec.contentType.toNat] else []) ++
        [.data spec.id.toNat piece last] := by
  have flags := idByte_flags spec.id first last spec.masked
  cases first <;>
    simp only [segment, WireBlock.calls, flags.1, flags.2.2, cString_of_noNul _ spec.path.noNul,
      Bool.false_eq_true, dite_true, dite_false, if_true, if_false] <;> rfl

def openSegments (pieces : List (List UInt8)) : List WireBlock :=
  pieces.mapIdx fun index piece => spec.segment (index = 0) false piece

def closedSegments (pieces : List (List UInt8)) : List WireBlock :=
  pieces.mapIdx fun index piece => spec.segment (index = 0) (index + 1 = pieces.length) piece

theorem closedSegments_concat (pieces : List (List UInt8)) (last : List UInt8) :
    spec.closedSegments (pieces ++ [last]) =
      spec.openSegments pieces ++ [spec.segment pieces.isEmpty true last] := by
  have empty : decide (pieces.length = 0) = pieces.isEmpty := by
    cases pieces <;> simp
  simp only [closedSegments, openSegments, List.mapIdx_concat, List.length_append,
    List.length_cons, List.length_nil, Nat.zero_add, empty]
  congr 1
  rw [List.mapIdx_eq_mapIdx_iff]
  intro index within
  have inside : ¬ index = pieces.length := by omega
  simp [inside]

theorem closedSegments_calls (pieces : List (List UInt8)) (nonempty : pieces ≠ []) :
    (spec.closedSegments pieces).flatMap WireBlock.calls =
      .start spec.id.toNat spec.path.bytes spec.contentType.toNat ::
        pieces.mapIdx fun index piece =>
          .data spec.id.toNat piece (index + 1 = pieces.length) := by
  cases pieces with
  | nil => exact absurd rfl nonempty
  | cons first rest =>
    have later (tail : List (List UInt8)) (last : Nat → Bool) :
        (tail.mapIdx fun index piece => spec.segment false (last index) piece).flatMap
            WireBlock.calls =
          tail.mapIdx fun index piece => HandlerCall.data spec.id.toNat piece (last index) := by
      induction tail generalizing last with
      | nil => rfl
      | cons piece tail ih =>
        simp only [List.mapIdx_cons, List.flatMap_cons, segment_calls, ih]
        simp
    simp only [closedSegments, List.mapIdx_cons, List.flatMap_cons, segment_calls]
    have tail := later rest fun index => decide (index + 1 + 1 = (first :: rest).length)
    simpa using tail

theorem openSegments_concat (pieces : List (List UInt8)) (last : List UInt8) :
    spec.openSegments (pieces ++ [last]) =
      spec.openSegments pieces ++ [spec.segment pieces.isEmpty false last] := by
  have empty : decide (pieces.length = 0) = pieces.isEmpty := by
    cases pieces <;> simp
  simp only [openSegments, List.mapIdx_concat, empty]

end StreamSpec

structure Carries (cfg : Config) (buf : PouchBuf) (block : WireBlock) : Prop where
  encodes : Encodes buf block
  within : buf.bytes ≤ cfg.maxPlaintextBlockSize

structure OpenSegment (cfg : Config) (spec : StreamSpec) (first : Bool) (piece : List UInt8)
    (buf : PouchBuf) : Prop where
  contents : buf.contents = 0 :: 0 :: (spec.id ||| if first then firstDataMask else 0) ::
    ((if first then spec.header else []) ++ piece)
  within : buf.bytes ≤ cfg.maxPlaintextBlockSize

section Segments

variable {cfg : Config} {spec : StreamSpec} {first : Bool} {piece : List UInt8} {buf : PouchBuf}

theorem blockAllocStream_open (cfg : Config) (malloc : Option Memory)
    (allocated : blockAllocStream malloc spec.id false = some buf) :
    OpenSegment cfg spec false [] buf ∧ blockSpaceGet cfg buf = cfg.maxBlockPayloadSize := by
  have contents := blockAllocStream_some malloc spec.id false buf allocated
  have bytes := blockAllocStream_bytes malloc spec.id false buf allocated
  have within : buf.bytes ≤ cfg.maxPlaintextBlockSize := by
    have room := cfg.maxPlaintextBlockSize_ge
    omega
  refine ⟨⟨by simpa using contents, within⟩, ?_⟩
  rw [blockSpaceGet_of_le cfg buf within, bytes]
  simp [Config.maxPlaintextBlockSize, Config.blockHeaderSize]

theorem OpenSegment.write (opened : OpenSegment cfg spec first piece buf) (data : List UInt8)
    (fits : data.length ≤ blockSpaceGet cfg buf) :
    OpenSegment cfg spec first (piece ++ data) (bufWrite buf data) := by
  have within := opened.within
  rw [blockSpaceGet_of_le cfg buf within] at fits
  refine ⟨by simp [opened.contents], ?_⟩
  simp only [bufWrite_bytes]
  omega

theorem OpenSegment.finish (payload : cfg.maxBlockPayloadSize ≤ 32768)
    (opened : OpenSegment cfg spec first piece buf) (last : Bool) :
    Carries cfg (blockFinishStream cfg buf spec.id last) (spec.segment first last piece) := by
  have range := cfg.sizeRange_ge
  have within := opened.within
  have plaintext : cfg.maxPlaintextBlockSize = 3 + cfg.maxBlockPayloadSize := rfl
  have finished := finish_contents cfg buf spec.id (if last then lastDataMask else 0) _ _ _ _
    (by omega) opened.contents
  have encoded : (blockFinishStream cfg buf spec.id last).contents =
      (spec.segment first last piece).encode := by
    rw [blockFinishStream, finished, WireBlock.encode, spec.segment_payload]
    rfl
  have length := congrArg List.length opened.contents
  simp only [PouchBuf.contents_length, List.length_cons] at length
  refine ⟨⟨encoded, ?_⟩, opened.within⟩
  rw [spec.segment_payload, List.length_cons]
  omega

end Segments

structure StreamPieces (cfg : Config) (spec : StreamSpec) (buf : PouchBuf)
    (done : List (List UInt8)) (piece : List UInt8) : Prop where
  opened : OpenSegment cfg spec done.isEmpty piece buf
  middle : ∀ data ∈ done.tail, data ≠ []
  current : done ≠ [] → piece ≠ []

theorem StreamPieces.write {cfg : Config} {spec : StreamSpec} {buf : PouchBuf}
    {done : List (List UInt8)} {piece : List UInt8} (pieces : StreamPieces cfg spec buf done piece)
    (data : List UInt8) (fits : data.length ≤ blockSpaceGet cfg buf) :
    StreamPieces cfg spec (bufWrite buf data) done (piece ++ data) :=
  ⟨pieces.opened.write data fits, pieces.middle, fun more => by simp [pieces.current more]⟩

theorem StreamPieces.tail_nonempty {cfg : Config} {spec : StreamSpec} {buf : PouchBuf}
    {done : List (List UInt8)} {piece : List UInt8} (pieces : StreamPieces cfg spec buf done piece) :
    ∀ other ∈ (done ++ [piece]).tail, other ≠ [] := by
  intro other member
  cases done with
  | nil => simp at member
  | cons first rest =>
    simp only [List.cons_append, List.tail_cons, List.mem_append, List.mem_singleton] at member
    rcases member with old | rfl
    · exact pieces.middle other (by simpa using old)
    · exact pieces.current (by simp)

theorem StreamPieces.next {cfg : Config} {spec : StreamSpec} {buf fresh : PouchBuf}
    {done : List (List UInt8)} {piece : List UInt8} (pieces : StreamPieces cfg spec buf done piece)
    (malloc : Option Memory) (allocated : blockAllocStream malloc spec.id false = some fresh)
    (data : List UInt8) (nonempty : data ≠ []) (fits : data.length ≤ blockSpaceGet cfg fresh) :
    StreamPieces cfg spec (bufWrite fresh data) (done ++ [piece]) data := by
  obtain ⟨freshOpen, _⟩ := blockAllocStream_open cfg malloc allocated
  have written := freshOpen.write data fits
  have later : (done ++ [piece]).isEmpty = false := by cases done <;> rfl
  exact ⟨by rw [later]; simpa using written, pieces.tail_nonempty, fun _ => nonempty⟩

theorem streamWriteLoop_pieces (cfg : Config) (spec : StreamSpec)
    (payload : cfg.maxBlockPayloadSize ≤ 32768) (fuel : Nat) (malloc : Nat → Option Memory)
    (buf : PouchBuf) (data : List UInt8) (blocks : List PouchBuf) (done : List (List UInt8))
    (piece : List UInt8) (pieces : StreamPieces cfg spec buf done piece)
    (carried : List.Forall₂ (Carries cfg) blocks (spec.openSegments done)) :
    let loop := streamWriteLoop cfg spec.id fuel malloc buf data
    ∃ done' piece', StreamPieces cfg spec loop.buf done' piece' ∧
      List.Forall₂ (Carries cfg) (blocks ++ loop.enqueued) (spec.openSegments done') ∧
      done'.flatten ++ piece' ++ loop.unwritten = done.flatten ++ piece ++ data := by
  induction fuel generalizing malloc buf data blocks done piece with
  | zero => exact ⟨done, piece, pieces, by simpa [streamWriteLoop] using carried, rfl⟩
  | succ fuel ih =>
    simp only [streamWriteLoop]
    by_cases finished : data.length = 0
    · simp only [finished, if_true]
      exact ⟨done, piece, pieces, by simpa using carried, rfl⟩
    simp only [finished, if_false]
    by_cases full : blockSpaceGet cfg buf = 0
    · simp only [full, if_true]
      cases allocated : blockAllocStream (malloc 0) spec.id false with
      | none => exact ⟨done, piece, pieces, by simpa using carried, rfl⟩
      | some fresh =>
        have space := (blockAllocStream_open cfg (malloc 0) allocated).2
        have positive := cfg.maxBlockPayloadSize_pos
        let writeLen := min (blockSpaceGet cfg fresh) data.length
        have nonempty : data.take writeLen ≠ [] := by
          have taken : (data.take writeLen).length ≠ 0 := by
            simp only [List.length_take, writeLen, space]
            omega
          exact fun empty => taken (by rw [empty]; rfl)
        have nextPieces := pieces.next (malloc 0) allocated (data.take writeLen) nonempty
          (by simp only [List.length_take, writeLen]; omega)
        have nextCarried : List.Forall₂ (Carries cfg)
            (blocks ++ [blockFinishStream cfg buf spec.id false]) (spec.openSegments (done ++ [piece])) := by
          rw [spec.openSegments_concat]
          exact List.rel_append carried (.cons (pieces.opened.finish payload false) .nil)
        obtain ⟨done', piece', later, laterCarried, conserved⟩ :=
          ih (fun index => malloc (index + 1)) _ (data.drop writeLen) _ _ _ nextPieces nextCarried
        refine ⟨done', piece', later, by simpa [writeLen] using laterCarried, ?_⟩
        rw [conserved]
        simp
    · simp only [full, if_false]
      let writeLen := min (blockSpaceGet cfg buf) data.length
      have nextPieces := pieces.write (data.take writeLen)
        (by simp only [List.length_take, writeLen]; omega)
      obtain ⟨done', piece', later, laterCarried, conserved⟩ :=
        ih malloc _ (data.drop writeLen) _ _ _ nextPieces carried
      refine ⟨done', piece', later, laterCarried, ?_⟩
      rw [conserved]
      simp

structure StreamProgress (cfg : Config) (spec : StreamSpec) (stream : PouchStream)
    (blocks : List PouchBuf) (accepted : List UInt8) : Prop where
  id : stream.id = spec.id
  count : stream.bytes = accepted.length % cfg.sizeRange
  pieces : ∃ done piece, StreamPieces cfg spec stream.buf done piece ∧
    List.Forall₂ (Carries cfg) blocks (spec.openSegments done) ∧ done.flatten ++ piece = accepted

theorem writeStreamHeader_open (cfg : Config) (spec : StreamSpec) (malloc : Option Memory)
    (block : PouchBuf) (room : 3 + spec.path.bytes.length ≤ cfg.maxBlockPayloadSize)
    (allocated : blockAllocStream malloc spec.id true = some block) :
    StreamPieces cfg spec (writeStreamHeader block spec.contentType spec.path) [] [] := by
  have contents := blockAllocStream_some malloc spec.id true block allocated
  have written : (writeStreamHeader block spec.contentType spec.path).contents =
      block.contents ++ spec.header := by
    simp [writeStreamHeader, StreamSpec.header]
  refine ⟨⟨by simp [written, contents], ?_⟩, by simp, fun more => absurd rfl more⟩
  have length := congrArg List.length written
  simp only [PouchBuf.contents_length, contents, StreamSpec.header, List.length_append,
    List.length_cons, List.length_nil, putBe16_length] at length
  simp only [length, Config.maxPlaintextBlockSize, Config.blockHeaderSize]
  omega

theorem streamWriteLoop_unwritten (cfg : Config) (id : UInt8) (fuel : Nat)
    (malloc : Nat → Option Memory) (buf : PouchBuf) (data : List UInt8) :
    (streamWriteLoop cfg id fuel malloc buf data).unwritten <:+ data := by
  induction fuel generalizing malloc buf data with
  | zero => exact List.suffix_refl _
  | succ fuel ih =>
    simp only [streamWriteLoop]
    split_ifs
    · exact List.suffix_refl _
    · cases blockAllocStream (malloc 0) id false with
      | none => exact List.suffix_refl _
      | some fresh => exact (ih _ _ _).trans (List.drop_suffix _ _)
    · exact (ih _ _ _).trans (List.drop_suffix _ _)

theorem streamWrite_progress (cfg : Config) (spec : StreamSpec)
    (payload : cfg.maxBlockPayloadSize ≤ 32768) (uplinkSessionId : Nat)
    (malloc : Nat → Option Memory) (stream : PouchStream) (data : List UInt8)
    (blocks : List PouchBuf) (accepted : List UInt8)
    (progress : StreamProgress cfg spec stream blocks accepted) :
    let result := pouchStreamWrite cfg uplinkSessionId malloc stream data
    StreamProgress cfg spec result.stream (blocks ++ result.enqueued)
      (accepted ++ data.take result.written) := by
  obtain ⟨sameId, count, done, piece, pieces, carried, conserved⟩ := progress
  simp only [pouchStreamWrite]
  by_cases valid : pouchStreamIsValid stream uplinkSessionId = true
  · simp only [valid, if_true, sameId]
    obtain ⟨done', piece', later, laterCarried, balance⟩ := streamWriteLoop_pieces cfg spec payload
      data.length malloc stream.buf data blocks done piece pieces carried
    obtain ⟨taken, split⟩ := streamWriteLoop_unwritten cfg spec.id data.length malloc stream.buf data
    generalize streamWriteLoop cfg spec.id data.length malloc stream.buf data = loop at *
    have length := congrArg List.length split
    simp only [List.length_append] at length
    have prefixTaken : data.take (data.length - loop.unwritten.length) = taken := by
      rw [← split]
      simp
    have same : done'.flatten ++ piece' = accepted ++ taken := by
      rw [conserved, ← split, ← List.append_assoc] at balance
      exact List.append_cancel_right balance
    refine ⟨rfl, ?_, done', piece', later, laterCarried, by rw [prefixTaken, same]⟩
    rw [prefixTaken]
    have counted : data.length - loop.unwritten.length = taken.length := by omega
    simp only [count, List.length_append, counted, Nat.mod_add_mod]
  · simp only [valid, Bool.false_eq_true, if_false, List.append_nil, List.take_zero]
    exact ⟨sameId, count, done, piece, pieces, carried, conserved⟩

end Pouch
