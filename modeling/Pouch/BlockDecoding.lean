import Mathlib.Data.List.Forall2
import Pouch.WireFormat

set_option autoImplicit false

namespace Pouch

open ByteMemory

variable {cfg : Config} {view : Bufview} {buf : PouchBuf} {rest : List UInt8}

theorem downlinkEntryPush_encoded (entry : WireEntry) (fits : buf.bytes < cfg.sizeRange)
    (at' : view.At buf (entry.encode ++ rest)) :
    (downlinkEntryPush cfg view).2.At buf rest ∧
      (∀ event ∈ (downlinkEntryPush cfg view).1, event.Safe buf) ∧
      handlerCalls buf (downlinkEntryPush cfg view).1 = entry.calls := by
  simp only [WireEntry.encode, List.append_assoc, List.cons_append] at at'
  obtain ⟨dataLen, lengthAt⟩ := at'.readBe16_put _ fits
  obtain ⟨contentType, typeAt⟩ := lengthAt.readBe16_put _ fits
  obtain ⟨pathLen, pathLenAt⟩ := typeAt.readByte_cons _ fits
  obtain ⟨path, pathAt⟩ := pathLenAt.read_append _ fits
  obtain ⟨data, dataAt⟩ := pathAt.read_append _ fits
  rw [Nat.mod_eq_of_lt entry.dataFits] at dataLen
  rw [Nat.mod_eq_of_lt entry.contentTypeFits] at contentType
  have pathLenNat : (UInt8.ofNat entry.path.length).toNat = entry.path.length := by
    rw [UInt8.toNat_ofNat', Nat.mod_eq_of_lt entry.pathFits]
  have pathBytes := pathLenAt.slice_bytes entry.path.length (by simp)
  have dataBytes := pathAt.slice_bytes entry.data.length (by simp)
  simp only [List.take_left] at pathBytes dataBytes
  simp only [downlinkEntryPush, pathLen, pathLenNat, dataLen, contentType, path, data]
  refine ⟨dataAt, ?_, ?_⟩
  · intro event member
    simp only [List.mem_cons, List.not_mem_nil, or_false] at member
    rcases member with rfl | rfl | rfl | rfl | rfl | rfl | rfl
    · exact lengthAt.offset_le
    · exact typeAt.offset_le
    · exact pathLenAt.offset_le
    · exact pathAt.offset_le
    · exact dataAt.offset_le
    · exact pathLenAt.slice_inside entry.path.length (by simp)
    · exact pathAt.slice_inside entry.data.length (by simp)
  · simp [pathBytes, dataBytes, WireEntry.calls]

theorem entriesPush_encoded (entries : List WireEntry) (fits : buf.bytes < cfg.sizeRange)
    (at' : view.At buf (entries.flatMap WireEntry.encode)) :
    ∃ events, (∀ fuel, entries.length < fuel →
        pouchDownlinkEntriesPush cfg fuel view = some events) ∧
      (∀ event ∈ events, event.Safe buf) ∧
      handlerCalls buf events = entries.flatMap WireEntry.calls := by
  induction entries generalizing view with
  | nil =>
    refine ⟨[], ?_, by simp, rfl⟩
    intro fuel enough
    cases fuel with
    | zero => simp at enough
    | succ fuel => simp [pouchDownlinkEntriesPush, at'.available fits]
  | cons entry entries ih =>
    rw [List.flatMap_cons] at at'
    obtain ⟨nextAt, firstSafe, firstCalls⟩ := downlinkEntryPush_encoded entry fits at'
    obtain ⟨later, laterRun, laterSafe, laterCalls⟩ := ih nextAt
    refine ⟨(downlinkEntryPush cfg view).1 ++ later, ?_, ?_, ?_⟩
    · intro fuel enough
      cases fuel with
      | zero => simp at enough
      | succ fuel =>
        have nonempty : pouchBufviewAvailable cfg view ≠ 0 := by
          rw [at'.available fits]
          simp [WireEntry.encode]
        have run := laterRun fuel (by simpa using enough)
        simp [pouchDownlinkEntriesPush, nonempty, run]
    · intro event member
      rcases List.mem_append.mp member with first | second
      · exact firstSafe event first
      · exact laterSafe event second
    · rw [handlerCalls_append, firstCalls, laterCalls, List.flatMap_cons]

theorem downlinkStreamHeader_encoded (streamId : Nat) (path : List UInt8) (contentType : Nat)
    (pathFits : path.length < 256) (contentTypeFits : contentType < 65536)
    (fits : buf.bytes < cfg.sizeRange)
    (at' : view.At buf (putBe16 contentType ++ UInt8.ofNat path.length :: (path ++ rest))) :
    (downlinkStreamHeader cfg view streamId).2.At buf rest ∧
      (∀ event ∈ (downlinkStreamHeader cfg view streamId).1, event.Safe buf) ∧
      handlerCalls buf (downlinkStreamHeader cfg view streamId).1 =
        [.start streamId (cString path) contentType] := by
  obtain ⟨typeRead, typeAt⟩ := at'.readBe16_put _ fits
  obtain ⟨pathLen, pathLenAt⟩ := typeAt.readByte_cons _ fits
  obtain ⟨pointer, pathAt⟩ := pathLenAt.read_append _ fits
  rw [Nat.mod_eq_of_lt contentTypeFits] at typeRead
  have pathLenNat : (UInt8.ofNat path.length).toNat = path.length := by
    rw [UInt8.toNat_ofNat', Nat.mod_eq_of_lt pathFits]
  have pathBytes := pathLenAt.slice_bytes path.length (by simp)
  simp only [List.take_left] at pathBytes
  simp only [downlinkStreamHeader, pathLen, pathLenNat, typeRead, pointer]
  refine ⟨pathAt, ?_, ?_⟩
  · intro event member
    simp only [List.mem_cons, List.not_mem_nil, or_false] at member
    rcases member with rfl | rfl | rfl | rfl
    · exact typeAt.offset_le
    · exact pathLenAt.offset_le
    · exact pathAt.offset_le
    · exact pathLenAt.slice_inside path.length (by simp)
  · simp [pathBytes]

theorem streamData_encoded (streamId : Nat) (isLast : Bool) (small : rest.length < 65536)
    (fits : buf.bytes < cfg.sizeRange) (at' : view.At buf rest) :
    (∀ event ∈ pouchDownlinkStreamPush cfg view streamId false isLast, event.Safe buf) ∧
      handlerCalls buf (pouchDownlinkStreamPush cfg view streamId false isLast) =
        [.data streamId rest isLast] := by
  have length : pouchBufviewAvailable cfg view % 65536 = rest.length := by
    rw [at'.available fits, Nat.mod_eq_of_lt small]
  have read := at'.read fits rest.length (Nat.le_refl _)
  have dataBytes := at'.slice_bytes rest.length (Nat.le_refl _)
  rw [List.take_length] at dataBytes
  simp only [pouchDownlinkStreamPush, length, read, Bool.false_eq_true, if_false, List.nil_append]
  constructor
  · intro event member
    simp only [List.mem_cons, List.not_mem_nil, or_false] at member
    rcases member with rfl | rfl
    · exact (at'.advance fits rest.length (Nat.le_refl _)).offset_le
    · exact at'.slice_inside rest.length (Nat.le_refl _)
  · simp [dataBytes]

theorem streamStart_encoded (streamId : Nat) (isLast : Bool) (path : List UInt8)
    (contentType : Nat) (pathFits : path.length < 256) (contentTypeFits : contentType < 65536)
    (small : rest.length < 65536) (fits : buf.bytes < cfg.sizeRange)
    (at' : view.At buf (putBe16 contentType ++ UInt8.ofNat path.length :: (path ++ rest))) :
    (∀ event ∈ pouchDownlinkStreamPush cfg view streamId true isLast, event.Safe buf) ∧
      handlerCalls buf (pouchDownlinkStreamPush cfg view streamId true isLast) =
        [.start streamId (cString path) contentType, .data streamId rest isLast] := by
  obtain ⟨dataAt, headSafe, headCalls⟩ :=
    downlinkStreamHeader_encoded streamId path contentType pathFits contentTypeFits fits at'
  obtain ⟨dataSafe, dataCalls⟩ := streamData_encoded streamId isLast small fits dataAt
  have split : pouchDownlinkStreamPush cfg view streamId true isLast =
      (downlinkStreamHeader cfg view streamId).1 ++
        pouchDownlinkStreamPush cfg (downlinkStreamHeader cfg view streamId).2 streamId false isLast := by
    simp [pouchDownlinkStreamPush]
  rw [split]
  constructor
  · intro event member
    rcases List.mem_append.mp member with inHead | inData
    · exact headSafe event inHead
    · exact dataSafe event inData
  · simp [headCalls, dataCalls]

theorem decodeId_isStream (size : Nat) (id : UInt8) :
    (decodeId size id).isStream = true ↔ id &&& blockIdMask ≠ blockIdEntry := by
  simp [decodeId]

theorem decodeId_isFirst (size : Nat) (id : UInt8) :
    (decodeId size id).isFirst = true ↔ id &&& firstDataMask ≠ 0 := by
  simp [decodeId]

theorem blockDecodeHdr_framed (high low id : UInt8) (fits : buf.bytes < cfg.sizeRange)
    (framed : buf.contents = high :: low :: id :: rest) :
    (pouchBufviewReadBe16 cfg (pouchBufviewInit buf)).2.offset ≤ buf.bytes ∧
      (blockDecodeHdr cfg (pouchBufviewInit buf)).1 = decodeId (getBe16 high low) id ∧
      (blockDecodeHdr cfg (pouchBufviewInit buf)).2.At buf rest := by
  have start := Bufview.At.start buf
  rw [framed] at start
  have sizeAt := start.advance fits 2 (by simp)
  simp only [List.drop_succ_cons, List.drop_zero] at sizeAt
  have idAt := sizeAt.advance fits 1 (by simp)
  simp only [List.drop_succ_cons, List.drop_zero] at idAt
  have size := start.readBe16 cfg
  have byte := sizeAt.readByte cfg
  simp only [blockDecodeHdr, size, byte]
  exact ⟨sizeAt.offset_le, trivial, idAt⟩

theorem entries_length_le (entries : List WireEntry) :
    entries.length ≤ (entries.flatMap WireEntry.encode).length := by
  induction entries with
  | nil => simp
  | cons entry entries ih =>
    simp only [List.flatMap_cons, List.length_append, List.length_cons, WireEntry.encode]
    omega

theorem blockPush_encoded (cfg : Config) (block : WireBlock) (small : block.payload.length < 65536)
    (encoded : buf.contents = block.encode) :
    ∃ events, (∀ fuel, buf.bytes < fuel → pouchDownlinkBlockPush cfg fuel buf = some events) ∧
      (∀ event ∈ events, event.Safe buf) ∧ handlerCalls buf events = block.calls := by
  have bytes : buf.bytes = block.body.length + 3 := by
    have length := congrArg List.length encoded
    simp only [WireBlock.encode, WireBlock.payload, List.length_append, putBe16_length,
      List.length_cons, PouchBuf.contents_length] at length
    omega
  have fits : buf.bytes < cfg.sizeRange := by
    have range := cfg.sizeRange_ge
    simp only [WireBlock.payload, List.length_cons] at small
    omega
  obtain ⟨sizeLe, header, bodyAt⟩ := blockDecodeHdr_framed _ _ block.id fits encoded
  -- The two header reads are safe; what is left depends on the kind of the block.
  have wrap (later : List DownlinkEvent) (laterSafe : ∀ event ∈ later, event.Safe buf) :
      ∀ event ∈ [DownlinkEvent.view (pouchBufviewReadBe16 cfg (pouchBufviewInit buf)).2.offset,
        .view (blockDecodeHdr cfg (pouchBufviewInit buf)).2.offset] ++ later, event.Safe buf := by
    intro event member
    simp only [List.cons_append, List.nil_append, List.mem_cons] at member
    rcases member with rfl | rfl | inLater
    · exact sizeLe
    · exact bodyAt.offset_le
    · exact laterSafe event inLater
  cases block with
  | entries id isEntry items =>
    have kind (size : Nat) : (decodeId size id).isStream = false :=
      Bool.eq_false_iff.mpr fun stream => (decodeId_isStream size id).mp stream isEntry
    obtain ⟨later, run, laterSafe, laterCalls⟩ := entriesPush_encoded items fits bodyAt
    refine ⟨_, ?_, wrap later laterSafe, by simpa [WireBlock.calls] using laterCalls⟩
    intro fuel enough
    have count := entries_length_le items
    have enoughFuel : items.length < fuel := by
      simp only [WireBlock.body] at bytes
      omega
    simp only [pouchDownlinkBlockPush, header, WireBlock.id, kind, run fuel enoughFuel]
    rfl
  | streamStart id isStream isFirst path contentType data pathFits contentTypeFits =>
    have kind (size : Nat) := (decodeId_isStream size id).mpr isStream
    have first (size : Nat) := (decodeId_isFirst size id).mpr isFirst
    have dataSmall : data.length < 65536 := by
      simp only [WireBlock.payload, WireBlock.body, List.length_cons, List.length_append] at small
      omega
    obtain ⟨dataSafe, dataCalls⟩ := streamStart_encoded (id &&& blockIdMask).toNat
      (id &&& lastDataMask != 0) path contentType pathFits contentTypeFits dataSmall fits bodyAt
    refine ⟨_, ?_, wrap _ dataSafe, dataCalls⟩
    intro fuel _
    simp only [pouchDownlinkBlockPush, header, WireBlock.id, kind, first, if_true]
    rfl
  | streamData id isStream notFirst data =>
    have kind (size : Nat) := (decodeId_isStream size id).mpr isStream
    have first (size : Nat) : (decodeId size id).isFirst = false :=
      Bool.eq_false_iff.mpr fun isFirst => (decodeId_isFirst size id).mp isFirst notFirst
    have dataSmall : data.length < 65536 := by
      simp only [WireBlock.payload, WireBlock.body, List.length_cons] at small
      omega
    obtain ⟨dataSafe, dataCalls⟩ := streamData_encoded (id &&& blockIdMask).toNat
      (id &&& lastDataMask != 0) dataSmall fits bodyAt
    refine ⟨_, ?_, wrap _ dataSafe, dataCalls⟩
    intro fuel _
    simp only [pouchDownlinkBlockPush, header, WireBlock.id, kind, first, if_true]
    rfl

theorem forall_mem_of_forall₂ {α β : Type} {related : α → β → Prop} {holds : α → Prop}
    {left : List α} {right : List β} (pairs : List.Forall₂ related left right)
    (each : ∀ a b, related a b → holds a) : ∀ a ∈ left, holds a := by
  induction pairs with
  | nil => simp
  | cons first _ ih =>
    intro a member
    rcases List.mem_cons.mp member with rfl | later
    · exact each _ _ first
    · exact ih a later

structure Encodes (buf : PouchBuf) (block : WireBlock) : Prop where
  contents : buf.contents = block.encode
  small : block.payload.length < 65536

theorem Encodes.bytes {block : WireBlock} (encodes : Encodes buf block) :
    buf.bytes = block.payload.length + 2 := by
  have length := congrArg List.length encodes.contents
  simp only [WireBlock.encode, List.length_append, putBe16_length, PouchBuf.contents_length] at length
  omega

theorem Encodes.sizeField {block : WireBlock} (encodes : Encodes buf block) :
    sizeField buf = some (buf.bytes - 2) := by
  rw [encodes.bytes]
  simp only [Pouch.sizeField, encodes.contents, WireBlock.encode, putBe16, List.cons_append]
  rw [getBe16_put, Nat.mod_eq_of_lt encodes.small, Nat.add_sub_cancel]

theorem handleBlocks_encoded (bufs : List PouchBuf) (blocks : List WireBlock) (fuel : Nat)
    (encodes : List.Forall₂ Encodes bufs blocks) (enough : ∀ buf ∈ bufs, buf.bytes < fuel) :
    handleBlocks cfg fuel bufs = some (blocks.flatMap WireBlock.calls) := by
  induction encodes with
  | nil => rfl
  | cons first _ ih =>
    obtain ⟨events, run, _, calls⟩ := blockPush_encoded cfg _ first.small first.contents
    have later := ih (fun buf member => enough buf (by simp [member]))
    simp [handleBlocks, run fuel (enough _ (by simp)), later, calls]

theorem be16_front (fits : buf.bytes + 2 < cfg.sizeRange) (at' : view.At buf rest)
    (safe : (pouchBufviewReadBe16 cfg view).2.offset ≤ buf.bytes) :
    ∃ value tail, value < 65536 ∧ rest = putBe16 value ++ tail ∧
      (pouchBufviewReadBe16 cfg view).1 = value ∧
      (pouchBufviewReadBe16 cfg view).2.At buf tail := by
  have enough := at'.advance_within 2 fits safe
  match rest, enough with
  | high :: low :: tail, _ =>
    have within : buf.bytes < cfg.sizeRange := by omega
    have next := at'.advance within 2 (by simp)
    refine ⟨getBe16 high low, tail, getBe16_lt high low, ?_, ?_, next⟩
    · simp [putBe16_get]
    · rw [at'.readBe16]

theorem byte_front (fits : buf.bytes + 2 < cfg.sizeRange) (at' : view.At buf rest)
    (safe : (pouchBufviewReadByte cfg view).2.offset ≤ buf.bytes) :
    ∃ byte tail, rest = byte :: tail ∧ (pouchBufviewReadByte cfg view).1 = byte ∧
      (pouchBufviewReadByte cfg view).2.At buf tail := by
  have enough := at'.advance_within 1 (by omega) safe
  match rest, enough with
  | byte :: tail, _ =>
    refine ⟨byte, tail, rfl, ?_, at'.advance (by omega) 1 (by simp)⟩
    rw [at'.readByte]

theorem slice_front (count : Nat) (fits : buf.bytes < cfg.sizeRange) (at' : view.At buf rest)
    (safe : (⟨(pouchBufviewRead cfg view count).1, count⟩ : Slice).Inside buf) :
    ∃ first tail, rest = first ++ tail ∧ first.length = count ∧
      (pouchBufviewRead cfg view count).2.At buf tail := by
  obtain ⟨position, notNull, _⟩ := safe
  have enough := at'.read_within count fits position notNull
  refine ⟨rest.take count, rest.drop count, (List.take_append_drop count rest).symm, by simp [enough], ?_⟩
  rw [at'.read fits count enough]
  exact at'.advance fits count enough

theorem downlinkEntryPush_safe (fits : buf.bytes + 2 < cfg.sizeRange) (at' : view.At buf rest)
    (safe : ∀ event ∈ (downlinkEntryPush cfg view).1, event.Safe buf) :
    ∃ (entry : WireEntry) (tail : List UInt8), rest = entry.encode ++ tail ∧
      (downlinkEntryPush cfg view).2.At buf tail := by
  simp only [downlinkEntryPush, List.forall_mem_cons, DownlinkEvent.Safe] at safe
  obtain ⟨lengthSafe, typeSafe, pathLenSafe, _, _, pathSafe, dataSafe, _⟩ := safe
  obtain ⟨dataLen, rest1, dataFits, split1, lengthRead, lengthAt⟩ :=
    be16_front fits at' lengthSafe
  obtain ⟨contentType, rest2, typeFits, split2, typeRead, typeAt⟩ :=
    be16_front fits lengthAt typeSafe
  obtain ⟨pathLen, rest3, split3, pathLenRead, pathLenAt⟩ := byte_front fits typeAt pathLenSafe
  obtain ⟨path, rest4, split4, pathLength, pathAt⟩ :=
    slice_front _ (by omega) pathLenAt pathSafe
  obtain ⟨data, rest5, split5, dataLength, dataAt⟩ := slice_front _ (by omega) pathAt dataSafe
  rw [lengthRead] at dataLength
  rw [pathLenRead] at pathLength
  have pathByte : UInt8.ofNat path.length = pathLen := by
    rw [pathLength]
    exact UInt8.ofNat_toNat
  refine ⟨⟨path, contentType, data, ?_, typeFits, by omega⟩, rest5, ?_, dataAt⟩
  · have byte := pathLen.toNat_lt
    omega
  · simp [WireEntry.encode, split1, split2, split3, split4, split5, dataLength, pathByte]

theorem entriesPush_safe (fuel : Nat) (events : List DownlinkEvent)
    (fits : buf.bytes + 2 < cfg.sizeRange) (at' : view.At buf rest)
    (run : pouchDownlinkEntriesPush cfg fuel view = some events)
    (safe : ∀ event ∈ events, event.Safe buf) :
    ∃ entries : List WireEntry, rest = entries.flatMap WireEntry.encode := by
  induction fuel generalizing view rest events with
  | zero => simp [pouchDownlinkEntriesPush] at run
  | succ fuel ih =>
    simp only [pouchDownlinkEntriesPush] at run
    by_cases empty : pouchBufviewAvailable cfg view = 0
    · rw [at'.available (by omega)] at empty
      exact ⟨[], by simpa using empty⟩
    · rw [if_neg empty] at run
      obtain ⟨later, laterRun, rfl⟩ := Option.map_eq_some_iff.mp run
      obtain ⟨entry, tail, split, tailAt⟩ := downlinkEntryPush_safe fits at'
        (fun event member => safe event (List.mem_append_left _ member))
      obtain ⟨entries, encoded⟩ := ih later tailAt laterRun
        (fun event member => safe event (List.mem_append_right _ member))
      exact ⟨entry :: entries, by rw [split, encoded, List.flatMap_cons]⟩

theorem streamHeader_safe (streamId : Nat) (fits : buf.bytes + 2 < cfg.sizeRange)
    (at' : view.At buf rest)
    (safe : ∀ event ∈ (downlinkStreamHeader cfg view streamId).1, event.Safe buf) :
    ∃ (path : List UInt8) (contentType : Nat) (tail : List UInt8), path.length < 256 ∧
      contentType < 65536 ∧
      rest = putBe16 contentType ++ UInt8.ofNat path.length :: (path ++ tail) := by
  simp only [downlinkStreamHeader, List.forall_mem_cons, DownlinkEvent.Safe] at safe
  obtain ⟨typeSafe, pathLenSafe, _, pathSafe, _⟩ := safe
  obtain ⟨contentType, rest1, typeFits, split1, typeRead, typeAt⟩ :=
    be16_front fits at' typeSafe
  obtain ⟨pathLen, rest2, split2, pathLenRead, pathLenAt⟩ := byte_front fits typeAt pathLenSafe
  obtain ⟨path, tail, split3, pathLength, _⟩ := slice_front _ (by omega) pathLenAt pathSafe
  rw [pathLenRead] at pathLength
  have pathByte : UInt8.ofNat path.length = pathLen := by
    rw [pathLength]
    exact UInt8.ofNat_toNat
  refine ⟨path, contentType, tail, ?_, typeFits, ?_⟩
  · have byte := pathLen.toNat_lt
    omega
  · rw [split1, split2, split3, pathByte]

theorem blockPush_safe (high low : UInt8) (payload : List UInt8)
    (framed : buf.contents = high :: low :: payload) (size : getBe16 high low = payload.length)
    (handled : HandledSafely cfg buf) : ∃ block : WireBlock, payload = block.payload := by
  obtain ⟨fuel, events, run, safe⟩ := handled
  have bytes : buf.bytes = payload.length + 2 := by
    have length := congrArg List.length framed
    simpa using length
  have fits : buf.bytes + 2 < cfg.sizeRange := by
    have range := cfg.sizeRange_ge
    have small := getBe16_lt high low
    omega
  have start := Bufview.At.start buf
  rw [framed] at start
  have within : buf.bytes < cfg.sizeRange := by omega
  have sizeAt := start.advance within 2 (by simp)
  simp only [pouchDownlinkBlockPush] at run
  obtain ⟨later, laterRun, rfl⟩ := Option.map_eq_some_iff.mp run
  simp only [List.cons_append, List.nil_append, List.forall_mem_cons, DownlinkEvent.Safe] at safe
  obtain ⟨_, idSafe, laterSafe⟩ := safe
  obtain ⟨id, body, split, _, _⟩ := byte_front fits sizeAt idSafe
  rw [List.drop_succ_cons, List.drop_succ_cons, List.drop_zero] at split
  obtain ⟨_, header, bodyAt⟩ :=
    blockDecodeHdr_framed high low id within (framed.trans (by rw [split]))
  rw [header] at laterRun
  by_cases isStream : id &&& blockIdMask = blockIdEntry
  · have kind : (decodeId (getBe16 high low) id).isStream = false :=
      Bool.eq_false_iff.mpr fun stream => (decodeId_isStream _ id).mp stream isStream
    rw [kind] at laterRun
    obtain ⟨entries, encoded⟩ := entriesPush_safe fuel later fits bodyAt laterRun laterSafe
    exact ⟨.entries id isStream entries, by rw [split, encoded]; rfl⟩
  · by_cases isFirst : id &&& firstDataMask = 0
    · exact ⟨.streamData id isStream isFirst body, split⟩
    · have kind := (decodeId_isStream (getBe16 high low) id).mpr isStream
      have first := (decodeId_isFirst (getBe16 high low) id).mpr isFirst
      rw [kind, first] at laterRun
      simp only [if_true, Option.some.injEq, pouchDownlinkStreamPush] at laterRun
      obtain ⟨path, contentType, data, pathFits, typeFits, encoded⟩ := streamHeader_safe _ fits bodyAt
        (fun event member => laterSafe event (by
          rw [← laterRun]
          exact List.mem_append_left _ member))
      exact ⟨.streamStart id isStream isFirst path contentType data pathFits typeFits, by
        rw [split, encoded]; rfl⟩

/-- The readers of `entry.c` handle a block safely exactly when it is well formed: they check
nothing themselves. -/
theorem block_handled_safely_iff (cfg : Config) (buf : PouchBuf) (high low : UInt8)
    (payload : List UInt8) (framed : buf.contents = high :: low :: payload)
    (size : getBe16 high low = payload.length) :
    HandledSafely cfg buf ↔ ∃ block : WireBlock, payload = block.payload := by
  constructor
  · exact blockPush_safe high low payload framed size
  · rintro ⟨block, rfl⟩
    have field : putBe16 block.payload.length = [high, low] := by
      rw [← size, putBe16_get]
    have encoded : buf.contents = block.encode := by
      rw [framed, WireBlock.encode, field]
      rfl
    have small : block.payload.length < 65536 := size ▸ getBe16_lt high low
    obtain ⟨events, run, safe, _⟩ := blockPush_encoded cfg block small encoded
    exact ⟨buf.bytes + 1, events, run _ (Nat.lt_succ_self _), safe⟩

-- One entry with the path "a" and two bytes of data.
theorem entry_block_handled :
    HandledSafely (defaultConfig .none) (PouchBuf.ofList [0, 9, 0xc0, 0, 2, 0, 42, 1, 0x61, 7, 8]) :=
  (block_handled_safely_iff _ _ 0 9 [0xc0, 0, 2, 0, 42, 1, 0x61, 7, 8] (PouchBuf.ofList_contents _) (by decide)).mpr
    ⟨.entries 0xc0 (by decide) [⟨[0x61], 42, [7, 8], by decide, by decide, by decide⟩], rfl⟩

-- An entry block that ends in the middle of a data length.
theorem truncated_entry_not_handled :
    ¬ HandledSafely (defaultConfig .none) (PouchBuf.ofList [0, 2, 0xc0, 5]) := by
  intro handled
  obtain ⟨block, same⟩ := blockPush_safe 0 2 [0xc0, 5]
    (PouchBuf.ofList_contents _) (by decide) handled
  cases block with
  | entries id isEntry items =>
    have length := congrArg List.length same
    cases items with
    | nil => simp [WireBlock.payload, WireBlock.body] at length
    | cons entry rest =>
      simp only [WireBlock.payload, WireBlock.body, List.flatMap_cons, WireEntry.encode,
        List.length_cons, List.length_append, List.length_nil, putBe16_length] at length
      omega
  | streamStart id isStream isFirst path contentType data pathFits contentTypeFits =>
    obtain rfl : 0xc0 = id := (List.cons.inj same).1
    exact isStream (by decide)
  | streamData id isStream notFirst data =>
    obtain rfl : 0xc0 = id := (List.cons.inj same).1
    exact isStream (by decide)

end Pouch
