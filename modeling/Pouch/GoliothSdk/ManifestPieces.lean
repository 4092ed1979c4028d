import Pouch.GoliothSdk.Manifest
import Pouch.GoliothSdk.MapDecoding
import Pouch.GoliothSdk.Pieces

set_option autoImplicit false

namespace Pouch

open ByteMemory

def manifestKeySequenceNumber : Nat := 1
def manifestKeyHash : Nat := 2

def numberMapDocument (pairs : List (Nat × List UInt8)) : List UInt8 :=
  Cbor.encodeHead 5 pairs.length ++ pairs.flatMap fun pair => Cbor.encodeHead 0 pair.1 ++ pair.2

/-- A manifest: a map with a sequence number, a hash, a list of components and anything else. -/
def ManifestDocument (document : List UInt8) : Prop :=
  ∃ pairs, document = numberMapDocument pairs ∧ (∀ pair ∈ pairs, pair.1 < 2 ^ 32 ∧ Cbor.WellFormed pair.2) ∧
    (∃ number, (manifestKeySequenceNumber, number) ∈ pairs) ∧ (∃ hash, (manifestKeyHash, hash) ∈ pairs) ∧
    ∃ count components, (manifestKeyComponents, Cbor.encodeHead 4 count ++ components) ∈ pairs

section Manifest

variable (cfg : OtaConfig) (registry : List RegisteredComponent) {zcbor : Zcbor}
  (hex2bin : List UInt8 → Option (Bytes 32)) {call : DataCall} {item rest : List UInt8} {key count : Nat}

def ManifestIdle (zcbor : Zcbor) (call : DataCall) (payload : List UInt8) (count : Nat) : Prop :=
  ∀ part more, part ++ more = payload → more ≠ [] → ∀ (fuel : Nat) (zsd : ZcborState) (effects : ManifestEffects),
    zsd.At call.memory part count → manifestLoop cfg registry zcbor hex2bin call fuel zsd effects = effects

theorem manifestKey_decode (lawful : zcbor.Lawful) (small : key < 2 ^ 32) (zsd : ZcborState)
    (at' : zsd.At call.memory (Cbor.encodeHead 0 key ++ rest) (count + 1)) :
    ∃ next, zcborListOrMapEnd call.memory zsd = false ∧ zcbor.uint32Decode call.memory zsd = some (key, next) ∧
      next.At call.memory rest count ∧ next.backups = zsd.backups := by
  obtain ⟨_, next, decoded, rfl, behind, _, same⟩ := (lawful.uint32 key small).whole call.memory zsd rest count at'
  exact ⟨next, by rw [at'.listOrMapEnd]; simp, decoded, behind, same⟩

theorem manifestLoop_skip (lawful : zcbor.Lawful) (small : key < 2 ^ 32) (other : key ≠ manifestKeyComponents)
    (canonical : Cbor.Canonical item) (fuel : Nat) (zsd : ZcborState) (effects : ManifestEffects)
    (at' : zsd.At call.memory (Cbor.encodeHead 0 key ++ (item ++ rest)) (count + 2)) :
    ∃ next, manifestLoop cfg registry zcbor hex2bin call (fuel + 1) zsd effects =
        manifestLoop cfg registry zcbor hex2bin call fuel next effects ∧
      next.At call.memory rest count ∧ next.backups = zsd.backups := by
  obtain ⟨inside, notEnd, decoded, atValue, same⟩ := manifestKey_decode lawful small zsd at'
  obtain ⟨_, next, skipped, _, behind, _, same'⟩ :=
    (lawful.anySkip item canonical).whole call.memory inside rest count atValue
  simp only [Option.map_eq_some_iff, Prod.mk.injEq, true_and, exists_eq_right] at skipped
  refine ⟨next, ?_, behind, by omega⟩
  simp [manifestLoop, notEnd, decoded, other, skipped]

theorem manifestLoop_components (lawful : zcbor.Lawful) (fuel : Nat) (zsd : ZcborState) (effects : ManifestEffects)
    (backups : 0 < zsd.backups)
    (at' : zsd.At call.memory (Cbor.encodeHead 0 manifestKeyComponents ++ ([0x80] ++ rest)) (count + 2)) :
    manifestLoop cfg registry zcbor hex2bin call (fuel + 1) zsd effects =
      goliothOtaManifestComplete registry effects := by
  obtain ⟨inside, notEnd, decoded, atValue, same⟩ := manifestKey_decode lawful (by decide) zsd at'
  obtain ⟨list, entered, atEnd, _⟩ :=
    lawful.listStart.enters call.memory inside rest 0 count (by decide) atValue (by omega)
  have ended : zcborListOrMapEnd call.memory list = true := by rw [atEnd.listOrMapEnd]; rfl
  have last (effects : ManifestEffects) : manifestLoop cfg registry zcbor hex2bin call fuel list effects = effects := by
    cases fuel with
    | zero => rfl
    | succ fuel => simp [manifestLoop, ended]
  simp [manifestLoop, notEnd, decoded, entered, componentsLoop, ended, last]

theorem manifestLoop_cutKey (lawful : zcbor.Lawful) (small : key < 2 ^ 32) {part more : List UInt8}
    (split : part ++ more = Cbor.encodeHead 0 key) (missing : more ≠ []) (fuel : Nat) (zsd : ZcborState)
    (effects : ManifestEffects) (at' : zsd.At call.memory part count) :
    manifestLoop cfg registry zcbor hex2bin call fuel zsd effects = effects := by
  have failed := (lawful.uint32 key small).cut call.memory zsd part more count split missing at'
  cases fuel with
  | zero => rfl
  | succ fuel =>
    simp only [manifestLoop, failed]
    split_ifs <;> rfl

theorem manifestIdle_pair (lawful : zcbor.Lawful) (small : key < 2 ^ 32) (other : key ≠ manifestKeyComponents)
    (canonical : Cbor.Canonical item) (idle : ManifestIdle cfg registry hex2bin zcbor call rest count) :
    ManifestIdle cfg registry hex2bin zcbor call (Cbor.encodeHead 0 key ++ (item ++ rest)) (count + 2) := by
  intro part more split missing fuel zsd effects at'
  rcases beginning_cases split missing with ⟨others, inKey, missing'⟩ | ⟨value, rfl, inValue⟩
  · exact manifestLoop_cutKey cfg registry hex2bin lawful small inKey missing' fuel zsd effects at'
  · cases fuel with
    | zero => rfl
    | succ fuel =>
      rcases beginning_cases inValue missing with ⟨others, inItem, missing'⟩ | ⟨behind, rfl, inRest⟩
      · obtain ⟨inside, notEnd, decoded, atValue, _⟩ := manifestKey_decode lawful small zsd at'
        have failed := (lawful.anySkip item canonical).cut call.memory inside value others _ inItem missing' atValue
        rw [Option.map_eq_none_iff] at failed
        simp [manifestLoop, notEnd, decoded, other, failed]
      · obtain ⟨next, loop, atRest, _⟩ :=
          manifestLoop_skip cfg registry hex2bin lawful small other canonical fuel zsd effects at'
        rw [loop]
        exact idle behind more inRest missing fuel next effects atRest

theorem manifestIdle_components (lawful : zcbor.Lawful) :
    ManifestIdle cfg registry hex2bin zcbor call (Cbor.encodeHead 0 manifestKeyComponents ++ [0x80]) (count + 1) := by
  intro part more split missing fuel zsd effects at'
  rcases beginning_cases split missing with ⟨others, inKey, missing'⟩ | ⟨value, rfl, inValue⟩
  · exact manifestLoop_cutKey cfg registry hex2bin lawful (by decide) inKey missing' fuel zsd effects at'
  · cases fuel with
    | zero => rfl
    | succ fuel =>
      obtain rfl := cut_byte rfl inValue missing
      obtain ⟨inside, notEnd, decoded, atValue, _⟩ := manifestKey_decode lawful (by decide) zsd at'
      have failed := lawful.listStart.other call.memory inside [] count atValue (by simp)
      simp [manifestLoop, notEnd, decoded, failed]

theorem otaReceiveManifest_map (lawful : zcbor.Lawful) (effects : ManifestEffects) (items : Nat) (few : items < 2 ^ 16)
    (bytes : call.bytes = Cbor.encodeHead 5 items ++ rest) :
    ∃ zsd, otaReceiveManifest cfg registry zcbor hex2bin call effects =
        manifestLoop cfg registry zcbor hex2bin call (call.len + 1) zsd effects ∧
      zsd.At call.memory rest (2 * items) ∧ 0 < zsd.backups := by
  obtain ⟨zsd, entered, inside, backups⟩ := lawful.startMap 2 items few bytes
  exact ⟨zsd, by simp only [otaReceiveManifest, entered], inside, by omega⟩

theorem otaReceiveManifest_noMap (lawful : zcbor.Lawful) (effects : ManifestEffects)
    (noMap : ∀ first ∈ call.bytes.head?, first.toNat / 32 ≠ 5) :
    otaReceiveManifest cfg registry zcbor hex2bin call effects = effects := by
  simp only [otaReceiveManifest, lawful.startOther 3 noMap]

theorem otaReceiveManifest_cut (lawful : zcbor.Lawful) (effects : ManifestEffects) (items : Nat) (few : items < 24)
    {more : List UInt8} (idle : ManifestIdle cfg registry hex2bin zcbor call rest (2 * items))
    (split : call.bytes ++ more = Cbor.encodeHead 5 items ++ rest) (missing : more ≠ []) :
    otaReceiveManifest cfg registry zcbor hex2bin call effects = effects := by
  rcases beginning_cases split missing with ⟨others, inHead, missing'⟩ | ⟨behind, bytes, inRest⟩
  · have nothing := cut_byte (Cbor.encodeHead_length_small 5 items few) inHead missing'
    exact otaReceiveManifest_noMap cfg registry hex2bin lawful effects (by simp [nothing])
  · obtain ⟨zsd, receive, inside, _⟩ :=
      otaReceiveManifest_map cfg registry hex2bin lawful effects items (by omega) bytes
    rw [receive]
    exact idle behind more inRest missing _ zsd effects inside

-- No components, behind a sequence number with tags and an empty hash.
def sampleManifest (tags : Nat) : List (Nat × List UInt8) :=
  [(manifestKeySequenceNumber, List.replicate tags 0xc6 ++ [0]), (manifestKeyHash, [0x40]),
    (manifestKeyComponents, [0x80])]

theorem emptyHash : Cbor.Canonical [0x40] := by decide

theorem sampleManifest_document (tags : Nat) : ManifestDocument (numberMapDocument (sampleManifest tags)) := by
  refine ⟨sampleManifest tags, rfl, ?_, ⟨List.replicate tags 0xc6 ++ [0], by simp [sampleManifest]⟩,
    ⟨[0x40], by simp [sampleManifest]⟩, 0, [], by simp [sampleManifest, Cbor.encodeHead]⟩
  intro pair member
  simp only [sampleManifest, List.mem_cons, List.not_mem_nil, or_false] at member
  obtain rfl | rfl | rfl := member
  · exact ⟨show manifestKeySequenceNumber < 2 ^ 32 by decide, (Cbor.canonical_tags tags).wellFormed⟩
  · exact ⟨by decide, rfl⟩
  · exact ⟨by decide, rfl⟩

theorem numberMapDocument_sample (tags : Nat) :
    numberMapDocument (sampleManifest tags) = Cbor.encodeHead 5 3 ++
      (Cbor.encodeHead 0 manifestKeySequenceNumber ++ (List.replicate tags 0xc6 ++ [0] ++
        (Cbor.encodeHead 0 manifestKeyHash ++ ([0x40] ++
          (Cbor.encodeHead 0 manifestKeyComponents ++ [0x80]))))) := by
  simp [numberMapDocument, sampleManifest]

theorem sampleManifest_length (tags : Nat) : (numberMapDocument (sampleManifest tags)).length = tags + 7 := by
  simp only [numberMapDocument_sample, List.length_append, List.length_replicate, List.length_cons, List.length_nil,
    Cbor.encodeHead_length_small 5 3 (by decide),
    Cbor.encodeHead_length_small 0 manifestKeySequenceNumber (by decide),
    Cbor.encodeHead_length_small 0 manifestKeyHash (by decide),
    Cbor.encodeHead_length_small 0 manifestKeyComponents (by decide)]
  omega

theorem sampleManifest_noMap (tags : Nat) :
    ∀ byte ∈ (numberMapDocument (sampleManifest tags)).drop 1, byte.toNat / 32 ≠ 5 := by
  have document : numberMapDocument (sampleManifest tags) =
      [0xa3, 0x01] ++ List.replicate tags 0xc6 ++ [0x00, 0x02, 0x40, 0x03, 0x80] := by
    rw [numberMapDocument_sample]
    simp [Cbor.encodeHead, manifestKeySequenceNumber, manifestKeyHash, manifestKeyComponents]
  have others : ∀ byte ∈ [0x01, 0x00, 0x02, 0x40, 0x03, 0x80], UInt8.toNat byte / 32 ≠ 5 := by
    decide +kernel
  intro byte member
  simp only [document, List.cons_append, List.nil_append, List.drop_succ_cons, List.drop_zero, List.mem_cons,
    List.mem_append, List.mem_replicate] at member others
  obtain rfl | ⟨_, rfl⟩ | member := member
  · decide
  · decide
  · exact others byte (.inr member)

theorem sampleManifest_whole (lawful : zcbor.Lawful) (tags : Nat) (effects : ManifestEffects)
    (bytes : call.bytes = numberMapDocument (sampleManifest tags)) :
    otaReceiveManifest cfg registry zcbor hex2bin call effects = goliothOtaManifestComplete registry effects := by
  have length := call.bytes_length
  rw [bytes, sampleManifest_length] at length
  rw [numberMapDocument_sample] at bytes
  obtain ⟨first, receive, atNumber, _⟩ := otaReceiveManifest_map cfg registry hex2bin lawful effects 3 (by decide) bytes
  obtain ⟨second, loop, atHash, same⟩ := manifestLoop_skip cfg registry hex2bin lawful (by decide) (by decide)
    (Cbor.canonical_tags tags) (tags + 7) first effects atNumber
  obtain ⟨third, loop', atComponents, same'⟩ := manifestLoop_skip cfg registry hex2bin lawful (by decide) (by decide)
    emptyHash (tags + 6) second effects atHash
  have components := manifestLoop_components cfg registry hex2bin lawful (tags + 5) third effects (by omega)
    atComponents
  rw [receive, ← length, loop, loop', components]

theorem sampleManifest_cut (lawful : zcbor.Lawful) (tags : Nat) (effects : ManifestEffects) {more : List UInt8}
    (split : call.bytes ++ more = numberMapDocument (sampleManifest tags)) (missing : more ≠ []) :
    otaReceiveManifest cfg registry zcbor hex2bin call effects = effects := by
  rw [numberMapDocument_sample] at split
  apply otaReceiveManifest_cut cfg registry hex2bin lawful effects 3 (by decide) _ split missing
  apply manifestIdle_pair cfg registry hex2bin lawful (by decide) (by decide) (Cbor.canonical_tags tags)
  apply manifestIdle_pair cfg registry hex2bin lawful (by decide) (by decide) emptyHash
  exact manifestIdle_components cfg registry hex2bin lawful

/-- Every manifest of this size has the same effect in these pieces as in one entry. -/
def ManifestIndependent (zcbor : Zcbor) (sizes : List Nat) : Prop :=
  ∀ entry : DataCall, entry.len = totalSize sizes → ManifestDocument entry.bytes → ∀ effects,
    (cutAt entry 0 sizes).foldl
        (fun effects call => otaReceiveManifest cfg registry zcbor hex2bin call effects) effects =
      otaReceiveManifest cfg registry zcbor hex2bin entry effects

theorem manifest_divided (lawful : zcbor.Lawful) (sizes : List Nat) (long : 7 ≤ totalSize sizes)
    (divided : ¬ Undivided sizes) : ¬ ManifestIndependent cfg registry hex2bin zcbor sizes := by
  have length := sampleManifest_length (totalSize sizes - 7)
  rw [Nat.sub_add_cancel long] at length
  have lost := divided_differs
    (fun effects call => otaReceiveManifest cfg registry zcbor hex2bin call effects)
    (numberMapDocument (sampleManifest (totalSize sizes - 7))) ⟨Ota.boot cfg registry, []⟩
    ?_ ?_ ?_ sizes length.symm divided
  · obtain ⟨entry, len, bytes, different⟩ := lost
    intro independent
    exact different (independent entry len (bytes ▸ sampleManifest_document _) _)
  · intro call bytes same
    rw [sampleManifest_whole cfg registry hex2bin lawful _ _ bytes] at same
    have notices := congrArg (fun effects => effects.notices.length) same
    simp [goliothOtaManifestComplete] at notices
  · intro call more split missing
    exact sampleManifest_cut cfg registry hex2bin lawful _ _ split missing
  · intro call behind
    apply otaReceiveManifest_noMap cfg registry hex2bin lawful
    intro first member
    exact sampleManifest_noMap _ first (behind first (List.mem_of_mem_head? member))

theorem componentsLoop_anyLast (call : DataCall) (isLast : Bool) (fuel : Nat) (unset : Nat → Unset)
    (zsd : ZcborState) (effects : ManifestEffects) :
    componentsLoop cfg registry zcbor hex2bin { call with isLast := isLast } fuel unset zsd effects =
      componentsLoop cfg registry zcbor hex2bin call fuel unset zsd effects := by
  induction fuel generalizing unset zsd effects with
  | zero => rfl
  | succ fuel ih =>
    simp only [componentsLoop, ih]
    rfl

theorem manifestLoop_anyLast (call : DataCall) (isLast : Bool) (fuel : Nat) (zsd : ZcborState)
    (effects : ManifestEffects) :
    manifestLoop cfg registry zcbor hex2bin { call with isLast := isLast } fuel zsd effects =
      manifestLoop cfg registry zcbor hex2bin call fuel zsd effects := by
  induction fuel generalizing zsd effects with
  | zero => rfl
  | succ fuel ih => simp only [manifestLoop, ih, componentsLoop_anyLast]

theorem manifest_undivided (lawful : zcbor.Lawful) (sizes : List Nat) (undivided : Undivided sizes) :
    ManifestIndependent cfg registry hex2bin zcbor sizes := by
  intro entry len _ effects
  apply fold_undivided effects _ _ sizes len.symm undivided
  · intro effects call empty
    apply otaReceiveManifest_noMap cfg registry hex2bin lawful
    simp [List.length_eq_zero_iff.mp (call.bytes_length.trans empty)]
  · intro effects call isLast
    simp only [otaReceiveManifest, manifestLoop_anyLast]

theorem ManifestDocument.length_le {document : List UInt8} (manifest : ManifestDocument document) :
    7 ≤ document.length := by
  obtain ⟨pairs, rfl, formed, ⟨number, hasNumber⟩, ⟨hash, hasHash⟩, items, components, hasComponents⟩ := manifest
  have first := (formed _ hasNumber).2.length_pos
  have second := (formed _ hasHash).2.length_pos
  have third := (formed _ hasComponents).2.length_pos
  have all := length_flatMap_subset (fun pair => Cbor.encodeHead 0 pair.1 ++ pair.2)
    [(manifestKeySequenceNumber, number), (manifestKeyHash, hash),
      (manifestKeyComponents, Cbor.encodeHead 4 items ++ components)] pairs
    (by simp [manifestKeySequenceNumber, manifestKeyHash, manifestKeyComponents])
    (by simp [hasNumber, hasHash, hasComponents])
  have head := Cbor.encodeHead_length_pos 5 pairs.length
  have key (key : Nat) := Cbor.encodeHead_length_pos 0 key
  have number' := key manifestKeySequenceNumber
  have hash' := key manifestKeyHash
  have components' := key manifestKeyComponents
  simp only [List.flatMap_cons, List.flatMap_nil, List.append_nil, List.length_append] at all first second third
  rw [numberMapDocument, List.length_append]
  omega

theorem manifest_independent (lawful : zcbor.Lawful) (sizes : List Nat) :
    ManifestIndependent cfg registry hex2bin zcbor sizes ↔ Undivided sizes ∨ totalSize sizes < 7 := by
  constructor
  · intro independent
    by_contra neither
    rw [not_or, Nat.not_lt] at neither
    exact manifest_divided cfg registry hex2bin lawful sizes neither.2 neither.1 independent
  · rintro (undivided | short)
    · exact manifest_undivided cfg registry hex2bin lawful sizes undivided
    · intro entry len manifest
      have long := manifest.length_le
      rw [entry.bytes_length] at long
      omega

end Manifest

end Pouch
