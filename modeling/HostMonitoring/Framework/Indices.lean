import Mathlib.Data.List.Basic

namespace HostMonitoring.Framework

variable {α : Type}

def holdsAt (xs : List α) (p : α → Bool) (i : Nat) : Bool := xs[i]?.any p

/-- The first index from `start` on that holds `p`, or the end. -/
def nextIndex (xs : List α) (start : Nat) (p : α → Bool) : Nat :=
  start + (xs.drop start).findIdx p

/-- `xs[start:stop]`. -/
def slice (xs : List α) (start stop : Nat) : List α := (xs.take stop).drop start

theorem holdsAt_eq_true (xs : List α) (p : α → Bool) (i : Nat) :
    holdsAt xs p i = true ↔ ∃ x, xs[i]? = some x ∧ p x = true := by
  rw [holdsAt, Option.any_eq_true]

theorem holdsAt_lt {xs : List α} {p : α → Bool} {i : Nat} (h : holdsAt xs p i = true) :
    i < xs.length := by
  obtain ⟨x, found, _⟩ := (holdsAt_eq_true xs p i).mp h
  exact (List.getElem?_eq_some_iff.mp found).1

theorem holdsAt_drop (xs : List α) (p : α → Bool) (n i : Nat) :
    holdsAt (xs.drop n) p i = holdsAt xs p (n + i) := by
  rw [holdsAt, List.getElem?_drop, holdsAt]

theorem getElem?_slice (xs : List α) (start stop i : Nat) :
    (slice xs start stop)[i]? = if start + i < stop then xs[start + i]? else none := by
  rw [slice, List.getElem?_drop, List.getElem?_take]

theorem holdsAt_slice (xs : List α) (p : α → Bool) (start stop i : Nat) :
    holdsAt (slice xs start stop) p i = true ↔
      start + i < stop ∧ holdsAt xs p (start + i) = true := by
  rw [holdsAt, getElem?_slice]
  by_cases inside : start + i < stop
  · simp [inside, holdsAt]
  · simp [inside]

theorem mem_slice (xs : List α) (start stop : Nat) (x : α) :
    x ∈ slice xs start stop ↔ ∃ i, start ≤ i ∧ i < stop ∧ xs[i]? = some x := by
  rw [List.mem_iff_getElem?]
  constructor
  · rintro ⟨i, h⟩
    rw [getElem?_slice] at h
    split at h
    · exact ⟨start + i, Nat.le_add_right _ _, ‹_›, h⟩
    · cases h
  · rintro ⟨i, first, last, h⟩
    refine ⟨i - start, ?_⟩
    rw [getElem?_slice, Nat.add_sub_cancel' first, if_pos last, h]

theorem findIdx_lt_iff (xs : List α) (p : α → Bool) (i : Nat) :
    i < xs.findIdx p ↔ i < xs.length ∧ ∀ j ≤ i, holdsAt xs p j = false := by
  induction xs generalizing i with
  | nil => simp
  | cons x xs ih =>
    rw [List.findIdx_cons]
    cases px : p x with
    | true =>
      simp only [cond_true, Nat.not_lt_zero, false_iff, not_and, not_forall]
      intro _
      exact ⟨0, Nat.zero_le i, by simp [holdsAt, px]⟩
    | false =>
      cases i with
      | zero => simp [holdsAt, px]
      | succ i =>
        simp only [cond_false, Nat.succ_lt_succ_iff, ih, List.length_cons]
        refine and_congr_right fun _ => ?_
        constructor
        · intro h j hj
          cases j with
          | zero => simp [holdsAt, px]
          | succ j => simpa [holdsAt] using h j (by omega)
        · intro h j hj
          simpa [holdsAt] using h (j + 1) (by omega)

theorem lt_nextIndex_iff (xs : List α) (p : α → Bool) (start i : Nat) (h : start ≤ i) :
    i < nextIndex xs start p ↔
      i < xs.length ∧ ∀ j, start ≤ j → j ≤ i → holdsAt xs p j = false := by
  have shifted : i < nextIndex xs start p ↔ i - start < (xs.drop start).findIdx p := by
    rw [nextIndex]
    omega
  rw [shifted, findIdx_lt_iff, List.length_drop]
  constructor
  · rintro ⟨inside, none⟩
    refine ⟨by omega, fun j first last => ?_⟩
    have here := none (j - start) (by omega)
    rwa [holdsAt_drop, Nat.add_sub_cancel' first] at here
  · rintro ⟨inside, none⟩
    refine ⟨by omega, fun j hj => ?_⟩
    rw [holdsAt_drop]
    exact none (start + j) (by omega) (by omega)

/-- A filter that keeps one element keeps that of one index. -/
theorem sole_index (xs : List α) (p : α → Bool) (h : (xs.filter p).length = 1) :
    ∃ i, ∀ j, holdsAt xs p j = true ↔ j = i := by
  obtain ⟨x, sole⟩ := List.length_eq_one_iff.mp h
  obtain ⟨before, after, rfl, none, px, none'⟩ := List.filter_eq_cons_iff.mp sole
  rw [List.filter_eq_nil_iff] at none'
  refine ⟨before.length, fun j => ?_⟩
  rw [holdsAt_eq_true]
  constructor
  · rintro ⟨y, found, py⟩
    obtain earlier | rfl | later := Nat.lt_trichotomy j before.length
    · rw [List.getElem?_append_left earlier] at found
      exact absurd py (none y (List.mem_of_getElem? found))
    · rfl
    · rw [List.getElem?_append_right (Nat.le_of_lt later), List.getElem?_cons, if_neg (by omega)] at found
      exact absurd py (none' y (List.mem_of_getElem? found))
  · rintro rfl
    exact ⟨x, by simp, px⟩

theorem findIdx_of_sole (xs : List α) (p : α → Bool) (i : Nat)
    (sole : ∀ j, holdsAt xs p j = true ↔ j = i) : xs.findIdx p = i := by
  have here := (sole i).mpr rfl
  apply Nat.le_antisymm
  · by_contra later
    have none := ((findIdx_lt_iff xs p i).mp (Nat.lt_of_not_le later)).2 i (Nat.le_refl i)
    rw [here] at none
    cases none
  · cases i with
    | zero => exact Nat.zero_le _
    | succ i =>
      have inside := holdsAt_lt here
      refine (findIdx_lt_iff xs p i).mpr ⟨by omega, fun j hj => ?_⟩
      rw [Bool.eq_false_iff]
      intro held
      have same := (sole j).mp held
      omega

end HostMonitoring.Framework
