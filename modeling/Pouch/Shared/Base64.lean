import Mathlib.Tactic.SplitIfs

set_option autoImplicit false

/-!
# Base64

The standard alphabet with padding (RFC 4648). No two inputs have one encoding.
-/

namespace Base64

def digit (value : Nat) : UInt8 :=
  if value < 26 then UInt8.ofNat (0x41 + value)
  else if value < 52 then UInt8.ofNat (0x61 + (value - 26))
  else if value < 62 then UInt8.ofNat (0x30 + (value - 52))
  else if value = 62 then 0x2b
  else 0x2f

def pad : UInt8 := 0x3d

-- Three bytes are four digits of six bits.
def encode : List UInt8 → List UInt8
  | [] => []
  | [first] => [digit (first.toNat / 4), digit (first.toNat % 4 * 16), pad, pad]
  | [first, second] =>
    [digit (first.toNat / 4), digit (first.toNat % 4 * 16 + second.toNat / 16), digit (second.toNat % 16 * 4), pad]
  | first :: second :: third :: rest =>
    digit (first.toNat / 4) :: digit (first.toNat % 4 * 16 + second.toNat / 16) ::
      digit (second.toNat % 16 * 4 + third.toNat / 64) :: digit (third.toNat % 64) :: encode rest

theorem encode_length (bytes : List UInt8) : (encode bytes).length = 4 * ((bytes.length + 2) / 3) := by
  induction bytes using encode.induct with
  | case1 => rfl
  | case2 first => simp [encode]
  | case3 first second => simp [encode]
  | case4 first second third rest ih =>
    simp only [encode, List.length_cons, ih]
    omega

theorem digit_toNat (value : Nat) (small : value < 64) :
    (digit value).toNat = if value < 26 then 0x41 + value
      else if value < 52 then 0x61 + (value - 26)
      else if value < 62 then 0x30 + (value - 52)
      else if value = 62 then 0x2b
      else 0x2f := by
  unfold digit
  split_ifs <;> simp only [UInt8.toNat_ofNat', UInt8.reduceToNat] <;> omega

theorem digit_inj {left right : Nat} (leftSmall : left < 64) (rightSmall : right < 64) :
    digit left = digit right ↔ left = right := by
  constructor
  · intro same
    have values := congrArg UInt8.toNat same
    rw [digit_toNat left leftSmall, digit_toNat right rightSmall] at values
    split_ifs at values <;> omega
  · exact congrArg digit

theorem digit_ne_pad {value : Nat} (small : value < 64) : digit value ≠ pad := by
  intro same
  have values := congrArg UInt8.toNat same
  rw [digit_toNat value small] at values
  simp only [pad, UInt8.reduceToNat] at values
  split_ifs at values <;> omega

theorem encode_injective : Function.Injective encode := by
  intro left right same
  have small (byte : UInt8) := byte.toNat_lt
  induction left using encode.induct generalizing right with
  | case1 =>
    have lengths := congrArg List.length same
    rw [encode_length, encode_length, List.length_nil] at lengths
    exact (List.length_eq_zero_iff.mp (by omega)).symm
  | case2 first =>
    have bound := small first
    rcases right with _ | ⟨first', _ | ⟨second', _ | ⟨third', rest'⟩⟩⟩
    · simp [encode] at same
    · have bound' := small first'
      simp only [encode, List.cons.injEq, and_true] at same
      rw [digit_inj (by omega) (by omega), digit_inj (by omega) (by omega)] at same
      rw [UInt8.toNat_inj.mp (show first.toNat = first'.toNat by omega)]
    · have bound' := small second'
      simp only [encode, List.cons.injEq] at same
      exact absurd same.2.2.1.symm (digit_ne_pad (by omega))
    · have bound' := small second'
      have bound'' := small third'
      simp only [encode, List.cons.injEq] at same
      exact absurd same.2.2.1.symm (digit_ne_pad (by omega))
  | case3 first second =>
    have bound := small first
    have bound₂ := small second
    rcases right with _ | ⟨first', _ | ⟨second', _ | ⟨third', rest'⟩⟩⟩
    · simp [encode] at same
    · simp only [encode, List.cons.injEq] at same
      exact absurd same.2.2.1 (digit_ne_pad (by omega))
    · have bound' := small first'
      have bound₂' := small second'
      simp only [encode, List.cons.injEq, and_true] at same
      rw [digit_inj (by omega) (by omega), digit_inj (by omega) (by omega), digit_inj (by omega) (by omega)] at same
      rw [UInt8.toNat_inj.mp (show first.toNat = first'.toNat by omega),
        UInt8.toNat_inj.mp (show second.toNat = second'.toNat by omega)]
    · have bound' := small third'
      simp only [encode, List.cons.injEq] at same
      exact absurd same.2.2.2.1.symm (digit_ne_pad (by omega))
  | case4 first second third rest ih =>
    have bound := small first
    have bound₂ := small second
    have bound₃ := small third
    rcases right with _ | ⟨first', _ | ⟨second', _ | ⟨third', rest'⟩⟩⟩
    · simp [encode] at same
    · simp only [encode, List.cons.injEq] at same
      exact absurd same.2.2.1 (digit_ne_pad (by omega))
    · simp only [encode, List.cons.injEq] at same
      exact absurd same.2.2.2.1 (digit_ne_pad (by omega))
    · have bound' := small first'
      have bound₂' := small second'
      have bound₃' := small third'
      simp only [encode, List.cons.injEq] at same
      obtain ⟨one, two, three, four, others⟩ := same
      rw [digit_inj (by omega) (by omega)] at one two three four
      rw [UInt8.toNat_inj.mp (show first.toNat = first'.toNat by omega),
        UInt8.toNat_inj.mp (show second.toNat = second'.toNat by omega),
        UInt8.toNat_inj.mp (show third.toNat = third'.toNat by omega), ih others]

end Base64
