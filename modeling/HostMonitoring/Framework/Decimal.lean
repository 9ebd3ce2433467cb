import Mathlib.Data.List.Induction

namespace HostMonitoring.Framework.Decimal

/-- Decimal digits without a needless zero in front. -/
def Canonical (cs : List Char) : Prop :=
  cs ≠ [] ∧ (∀ c ∈ cs, c.isDigit) ∧ (1 < cs.length → cs.head? ≠ some '0')

def value (cs : List Char) : Nat := Nat.ofDigitChars 10 cs 0

theorem value_concat (cs : List Char) (c : Char) :
    value (cs ++ [c]) = 10 * value cs + (c.toNat - '0'.toNat) := by
  rw [value, Nat.ofDigitChars_append, Nat.ofDigitChars_cons, Nat.ofDigitChars_nil]
  rfl

theorem eq_digitChar (c : Char) (h : c.isDigit) : ∃ d < 10, c = Nat.digitChar d := by
  simp only [Char.isDigit, Bool.and_eq_true, decide_eq_true_eq, ge_iff_le,
    UInt32.le_iff_toNat_le] at h
  have low : 48 ≤ c.toNat := h.1
  have high : c.toNat ≤ 57 := h.2
  have finite : ∀ d < 10, Nat.digitChar d = Char.ofNat (48 + d) := by decide
  refine ⟨c.toNat - 48, by omega, ?_⟩
  rw [finite _ (by omega), Nat.add_sub_cancel' low, Char.ofNat_toNat]

theorem digit_value (d : Nat) (h : d < 10) : (Nat.digitChar d).toNat - '0'.toNat = d :=
  Nat.toNat_digitChar_sub_48_of_lt_ten h

theorem head_append (cs ds : List Char) (ne : cs ≠ []) : (cs ++ ds).head? = cs.head? := by
  cases cs with
  | nil => exact absurd rfl ne
  | cons c cs => rfl

/-- A number whose first digit is not zero is not zero. -/
theorem value_pos (cs : List Char) (ne : cs ≠ []) (digits : ∀ c ∈ cs, c.isDigit)
    (head : cs.head? ≠ some '0') : 0 < value cs := by
  induction cs using List.reverseRecOn with
  | nil => exact absurd rfl ne
  | append_singleton cs c ih =>
    rw [value_concat]
    by_cases hcs : cs = []
    · obtain ⟨d, hd, rfl⟩ := eq_digitChar c (digits c (by simp))
      rw [digit_value d hd]
      have notZero : d ≠ 0 := by
        rintro rfl
        simp [hcs] at head
      omega
    · have front : cs.head? ≠ some '0' := by rwa [head_append cs _ hcs] at head
      have pos := ih hcs (fun x hx => digits x (List.mem_append_left _ hx)) front
      omega

/-- Canonical digits are those their number is printed with. -/
theorem toDigits_value (cs : List Char) (h : Canonical cs) : Nat.toDigits 10 (value cs) = cs := by
  induction cs using List.reverseRecOn with
  | nil => exact absurd rfl h.1
  | append_singleton cs c ih =>
    obtain ⟨_, digits, head⟩ := h
    obtain ⟨d, hd, rfl⟩ := eq_digitChar c (digits c (by simp))
    rw [value_concat, digit_value d hd]
    by_cases hcs : cs = []
    · have zero : value ([] : List Char) = 0 := rfl
      rw [hcs, zero, Nat.mul_zero, Nat.zero_add, Nat.toDigits_of_lt_base hd, List.nil_append]
    · have long : 1 < (cs ++ [Nat.digitChar d]).length := by
        have pos := List.length_pos_iff.mpr hcs
        simp only [List.length_append, List.length_singleton]
        omega
      have front : cs.head? ≠ some '0' := by
        have first := head long
        rwa [head_append cs _ hcs] at first
      have digits' : ∀ c ∈ cs, c.isDigit := fun x hx => digits x (List.mem_append_left _ hx)
      have pos := value_pos cs hcs digits' front
      have quotient : (10 * value cs + d) / 10 = value cs := by omega
      have remainder : (10 * value cs + d) % 10 = d := by omega
      rw [Nat.toDigits_of_base_le (by decide) (by omega), quotient, remainder,
        ih ⟨hcs, digits', fun _ => front⟩]

theorem head_toDigits (n : Nat) (h : 0 < n) : (Nat.toDigits 10 n).head? ≠ some '0' := by
  induction n using Nat.strongRecOn with
  | ind n ih =>
    by_cases small : n < 10
    · have finite : ∀ d < 10, 0 < d → [Nat.digitChar d].head? ≠ some '0' := by decide
      rw [Nat.toDigits_of_lt_base small]
      exact finite n small h
    · have rest : Nat.toDigits 10 (n / 10) ≠ [] :=
        List.ne_nil_of_length_pos Nat.length_toDigits_pos
      rw [Nat.toDigits_of_base_le (by decide) (by omega), head_append _ _ rest]
      exact ih (n / 10) (by omega) (by omega)

theorem canonical_toDigits (n : Nat) : Canonical (Nat.toDigits 10 n) := by
  refine ⟨List.ne_nil_of_length_pos Nat.length_toDigits_pos, ?_, ?_⟩
  · exact fun c hc => Nat.isDigit_of_mem_toDigits (by decide) (by decide) hc
  · intro long
    apply head_toDigits
    have small : ¬n < 10 := by
      intro small
      rw [Nat.toDigits_of_lt_base small] at long
      simp at long
    omega

theorem value_toDigits (n : Nat) : value (Nat.toDigits 10 n) = n := Nat.ofDigitChars_ten_toDigits

/-- The canonical digits are the printed numbers. -/
theorem canonical_iff (cs : List Char) (n : Nat) :
    Canonical cs ∧ value cs = n ↔ cs = Nat.toDigits 10 n := by
  constructor
  · rintro ⟨canonical, rfl⟩
    exact (toDigits_value cs canonical).symm
  · rintro rfl
    exact ⟨canonical_toDigits n, value_toDigits n⟩

end HostMonitoring.Framework.Decimal
