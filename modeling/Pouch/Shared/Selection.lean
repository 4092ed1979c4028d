import Mathlib.Data.List.Nodup
import Mathlib.Data.List.Perm.Subperm

set_option autoImplicit false

/-!
# Entries of a list under two conditions
-/

namespace Selection

variable {Key Entry : Type} {narrow wide : Entry → Bool}

theorem find?_narrow {entries : List Entry} {entry : Entry}
    (imp : ∀ other ∈ entries, narrow other = true → wide other = true) (found : entries.find? wide = some entry)
    (meets : narrow entry = true) : entries.find? narrow = some entry := by
  obtain ⟨_, before, behind, rfl, others⟩ := List.find?_eq_some_iff_append.mp found
  refine List.find?_eq_some_iff_append.mpr ⟨meets, before, behind, rfl, ?_⟩
  intro other member
  have isOther := others other member
  cases isNarrow : narrow other with
  | false => rfl
  | true => simp [imp other (List.mem_append_left _ member) isNarrow] at isOther

/-- A search with a wider condition finds the same if and only if whatever only meets this one is behind an entry that
meets the narrower one. -/
theorem find?_eq_iff {entries : List Entry} (imp : ∀ entry ∈ entries, narrow entry = true → wide entry = true) :
    entries.find? wide = entries.find? narrow ↔ ∀ (index : Nat) (entry : Entry), entries[index]? = some entry →
      wide entry = true ∧ narrow entry = false →
        ∃ earlier < index, ∃ other, entries[earlier]? = some other ∧ narrow other = true := by
  constructor
  · rintro same index entry found ⟨isWide, notNarrow⟩
    cases first : entries.find? wide with
    | none => exact absurd isWide (List.find?_eq_none.mp first entry (List.mem_of_getElem? found))
    | some other =>
      have isNarrow := List.find?_some (same.symm.trans first)
      obtain ⟨_, earlier, inside, there, before⟩ := List.find?_eq_some_iff_getElem.mp first
      have number : entries[earlier]? = some other := by rw [List.getElem?_eq_getElem inside, there]
      refine ⟨earlier, ?_, other, number, isNarrow⟩
      -- What only meets the wider condition is not in front of what was found, and is not that either.
      rcases Nat.lt_trichotomy earlier index with less | rfl | more
      · exact less
      · obtain rfl : entry = other := Option.some.inj (found.symm.trans number)
        simp [isNarrow] at notNarrow
      · obtain ⟨_, isEntry⟩ := List.getElem?_eq_some_iff.mp found
        simpa [isEntry, isWide] using before index more
  · intro behind
    cases first : entries.find? wide with
    | none =>
      symm
      apply List.find?_eq_none.mpr
      intro entry member isNarrow
      exact List.find?_eq_none.mp first entry member (imp entry member isNarrow)
    | some entry =>
      obtain ⟨isWide, index, inside, there, before⟩ := List.find?_eq_some_iff_getElem.mp first
      symm
      apply find?_narrow imp first
      by_contra notNarrow
      have number : entries[index]? = some entry := by rw [List.getElem?_eq_getElem inside, there]
      obtain ⟨earlier, less, other, found, isNarrow⟩ := behind index entry number ⟨isWide, by simpa using notNarrow⟩
      obtain ⟨_, isOther⟩ := List.getElem?_eq_some_iff.mp found
      simpa [isOther, imp other (List.mem_of_getElem? found) isNarrow] using before earlier less

-- A search that also gives the number of what it finds.
theorem find?_zipIdx_eq_none (wanted : Entry → Bool) {entries : List Entry} :
    (entries.zipIdx.find? fun entry => wanted entry.1) = none ↔ ∀ entry ∈ entries, wanted entry = false := by
  rw [List.find?_eq_none]
  constructor
  · intro absent entry member
    obtain ⟨index, number⟩ := List.mem_iff_getElem?.mp member
    have inside : (entry, index) ∈ entries.zipIdx := List.mk_mem_zipIdx_iff_getElem?.mpr number
    simpa using absent _ inside
  · rintro absent ⟨entry, index⟩ inside
    simpa using absent entry (List.fst_mem_of_mem_zipIdx inside)

theorem imp_of_countP_eq (entries : List Entry) (imp : ∀ entry ∈ entries, narrow entry = true → wide entry = true)
    (same : entries.countP narrow = entries.countP wide) :
    ∀ entry ∈ entries, wide entry = true → narrow entry = true := by
  induction entries with
  | nil => simp
  | cons entry entries ih =>
    have inside := fun other member => imp other (List.mem_cons_of_mem _ member)
    have le := List.countP_mono_left inside
    have head := imp entry (List.mem_cons_self ..)
    simp only [List.countP_cons] at same
    intro other member isWide
    rcases List.mem_cons.mp member with rfl | member
    · cases isNarrow : narrow other with
      | true => rfl
      | false =>
        simp only [isNarrow, isWide, if_true, Bool.false_eq_true, if_false] at same
        omega
    · apply ih inside _ other member isWide
      cases isNarrow : narrow entry with
      | true =>
        rw [isNarrow, head isNarrow] at same
        omega
      | false =>
        rw [isNarrow] at same
        simp only [Bool.false_eq_true, if_false] at same
        omega

/-- As many entries as there are keys have all of these in a good way if and only if all of them are good, and no two
have the same key. -/
theorem covers_iff {keys : List Key} {entries : List Entry} (keyOf : Entry → Key) (Good : Entry → Prop)
    (distinct : keys.Nodup) (length : entries.length = keys.length) (known : ∀ entry ∈ entries, keyOf entry ∈ keys) :
    (∀ key ∈ keys, ∃ entry ∈ entries, keyOf entry = key ∧ Good entry) ↔
      (∀ entry ∈ entries, Good entry) ∧ (entries.map keyOf).Nodup := by
  classical
  constructor
  · intro covered
    have inside : keys ⊆ (entries.filter Good).map keyOf := by
      intro key member
      obtain ⟨entry, isThere, rfl, good⟩ := covered key member
      exact List.mem_map_of_mem (List.mem_filter.mpr ⟨isThere, decide_eq_true good⟩)
    have few := List.length_filter_le (fun entry => decide (Good entry)) entries
    have enough := (List.subperm_of_subset distinct inside).length_le
    rw [List.length_map] at enough
    have all : entries.filter (fun entry => decide (Good entry)) = entries :=
      List.filter_eq_self.mpr (List.length_filter_eq_length_iff.mp (by omega))
    rw [all] at inside
    have perm := (List.subperm_of_subset distinct inside).perm_of_length_le (by simp [length])
    exact ⟨fun entry member => of_decide_eq_true (List.filter_eq_self.mp all entry member), perm.nodup_iff.mp distinct⟩
  · rintro ⟨good, different⟩ key member
    have inside : entries.map keyOf ⊆ keys := by
      intro key member
      obtain ⟨entry, isThere, rfl⟩ := List.mem_map.mp member
      exact known entry isThere
    have perm := (List.subperm_of_subset different inside).perm_of_length_le (by simp [length])
    obtain ⟨entry, isThere, same⟩ := List.mem_map.mp (perm.mem_iff.mpr member)
    exact ⟨entry, isThere, same, good entry isThere⟩

end Selection
