import Pouch.Shared.Cbor

set_option autoImplicit false

namespace Cbor

/-- A reader of the item at the start of the bytes. It takes bytes, and those behind the item do not matter. -/
structure Reader (Value : Type) where
  read : List UInt8 → Option (Value × List UInt8)
  takes : ∀ {raw rest : List UInt8} {value : Value}, read raw = some (value, rest) → rest.length < raw.length
  extend : ∀ {raw rest : List UInt8} {value : Value}, read raw = some (value, rest) →
    ∀ more, read (raw ++ more) = some (value, rest ++ more)

namespace Reader

variable {Value : Type}

theorem whole (reader : Reader Value) {item : List UInt8} {value : Value}
    (reads : reader.read item = some (value, [])) (rest : List UInt8) :
    reader.read (item ++ rest) = some (value, rest) := reader.extend reads rest

theorem cut (reader : Reader Value) {part more : List UInt8} {value : Value}
    (reads : reader.read (part ++ more) = some (value, [])) (missing : more ≠ []) : reader.read part = none := by
  cases read : reader.read part with
  | none => rfl
  | some found =>
    have extended := reader.extend read more
    rw [reads, Option.some.injEq, Prod.mk.injEq] at extended
    exact absurd (List.append_eq_nil_iff.mp extended.2.symm).2 missing

def ofHead (value : Nat → Nat → Option Value) : Reader Value where
  read raw :=
    match readHead raw with
    | none => none
    | some (major, argument, rest) => (value major argument).map (·, rest)
  takes := by
    intro raw rest read reads
    cases head : readHead raw with
    | none => simp [head] at reads
    | some found =>
      obtain ⟨major, argument, behind⟩ := found
      simp only [head, Option.map_eq_some_iff, Prod.mk.injEq] at reads
      obtain ⟨_, _, _, rfl⟩ := reads
      exact readHead_takes head
  extend := by
    intro raw rest read reads more
    cases head : readHead raw with
    | none => simp [head] at reads
    | some found =>
      obtain ⟨major, argument, behind⟩ := found
      simp only [head, Option.map_eq_some_iff, Prod.mk.injEq] at reads
      obtain ⟨_, decoded, rfl, rfl⟩ := reads
      simp only [readHead_extend head more, decoded, Option.map_some]

def ofByte (value : UInt8 → Option Value) : Reader Value where
  read
    | [] => none
    | first :: rest => (value first).map (·, rest)
  takes := by
    intro raw rest read reads
    cases raw with
    | nil => simp at reads
    | cons first raw =>
      simp only [Option.map_eq_some_iff, Prod.mk.injEq] at reads
      obtain ⟨_, _, _, rfl⟩ := reads
      exact Nat.lt_succ_self _
  extend := by
    intro raw rest read reads more
    cases raw with
    | nil => simp at reads
    | cons first raw =>
      simp only [Option.map_eq_some_iff, Prod.mk.injEq] at reads
      obtain ⟨_, decoded, rfl, rfl⟩ := reads
      simp only [List.cons_append, decoded, Option.map_some]

-- The length of the head of a text, and that of the text.
def text : Reader (Nat × Nat) where
  read raw :=
    match readHead raw with
    | none => none
    | some (major, length, rest) =>
      if major = 3 then (readBytes length rest).map fun read => ((raw.length - rest.length, length), read.2) else none
  takes := by
    intro raw rest read reads
    cases head : readHead raw with
    | none => simp [head] at reads
    | some found =>
      obtain ⟨major, length, behind⟩ := found
      simp only [head] at reads
      split_ifs at reads
      simp only [Option.map_eq_some_iff, Prod.exists, Prod.mk.injEq] at reads
      obtain ⟨bytes, last, enough, _, rfl⟩ := reads
      have behind' := readHead_takes head
      have last' := readBytes_takes enough
      omega
  extend := by
    intro raw rest read reads more
    cases head : readHead raw with
    | none => simp [head] at reads
    | some found =>
      obtain ⟨major, length, behind⟩ := found
      simp only [head, readHead_extend head more] at reads ⊢
      split_ifs at reads ⊢
      simp only [Option.map_eq_some_iff, Prod.exists, Prod.mk.injEq] at reads ⊢
      obtain ⟨bytes, last, enough, rfl, rfl⟩ := reads
      refine ⟨bytes, last ++ more, readBytes_extend enough more, ?_, rfl⟩
      rw [List.length_append, List.length_append, Nat.add_sub_add_right]

def anything : Reader Unit where
  read raw := (skip raw).map ((), ·)
  takes := by
    intro raw rest read reads
    simp only [Option.map_eq_some_iff, Prod.mk.injEq, true_and, exists_eq_right] at reads
    exact skipDepth_takes raw.length reads
  extend := by
    intro raw rest read reads more
    simp only [Option.map_eq_some_iff, Prod.mk.injEq, true_and, exists_eq_right] at reads ⊢
    have extended := skipDepth_imp id raw.length more.length (skipDepth_extend raw.length reads more)
    rwa [← List.length_append] at extended

end Reader

end Cbor
