import Mathlib.Tactic.SplitIfs

namespace HostMonitoring.Framework

/-- Items that wait for the first of two steps, and items that passed it and wait
for the second. -/
structure Pipeline where
  waiting : Nat
  passed : Nat

namespace Pipeline

/-- The two steps and a third one that concerns neither queue take turns; each
takes at most a batch. -/
def turn (batch k : Nat) (p : Pipeline) : Pipeline :=
  if k % 3 = 0 then ⟨p.waiting - batch, p.passed + min batch p.waiting⟩
  else if k % 3 = 1 then ⟨p.waiting, p.passed - batch⟩
  else p

def after (batch : Nat) (p : Pipeline) : Nat → Pipeline
  | 0 => p
  | k + 1 => (after batch p k).turn batch k

@[simp] theorem after_zero (batch : Nat) (p : Pipeline) : p.after batch 0 = p := rfl

theorem after_succ (batch : Nat) (p : Pipeline) (k : Nat) :
    p.after batch (k + 1) = (p.after batch k).turn batch k := rfl

/-- Three turns are one batch through each step. -/
theorem after_round (batch : Nat) (p : Pipeline) (q : Nat) :
    p.after batch (3 * (q + 1)) =
      ⟨(p.after batch (3 * q)).waiting - batch,
        (p.after batch (3 * q)).passed + min batch (p.after batch (3 * q)).waiting - batch⟩ := by
  have first : 3 * q % 3 = 0 := by omega
  have second : (3 * q + 1) % 3 = 1 := by omega
  have third : (3 * q + 2) % 3 = 2 := by omega
  have turns : 3 * (q + 1) = 3 * q + 1 + 1 + 1 := by omega
  rw [turns, after_succ, after_succ, after_succ]
  simp [turn, first, second, third]

theorem waiting_after_rounds (batch : Nat) (p : Pipeline) (q : Nat) :
    (p.after batch (3 * q)).waiting = p.waiting - batch * q := by
  induction q with
  | zero => simp
  | succ q ih =>
    rw [after_round, ih, Nat.mul_succ]
    dsimp only
    omega

/-- The second step takes at least what the first one brings. -/
theorem passed_after_rounds_le (batch : Nat) (p : Pipeline) (q : Nat) :
    (p.after batch (3 * q)).passed ≤ p.passed := by
  induction q with
  | zero => exact Nat.le_refl _
  | succ q ih =>
    rw [after_round]
    dsimp only
    omega

/-- While the first step fills its batches, the second only takes what came. -/
theorem passed_after_full_rounds (batch : Nat) (p : Pipeline) (q : Nat)
    (full : batch * q ≤ p.waiting) : (p.after batch (3 * q)).passed = p.passed := by
  induction q with
  | zero => rfl
  | succ q ih =>
    rw [Nat.mul_succ] at full
    have before := ih (by omega)
    have rest := waiting_after_rounds batch p q
    rw [after_round, before, rest]
    dsimp only
    omega

theorem passed_le_of_balanced (batch n : Nat) (p : Pipeline) (h : n % 3 ≠ 1) :
    (p.after batch n).passed ≤ p.passed := by
  have rounds := passed_after_rounds_le batch p (n / 3)
  obtain exact_ | extra : n = 3 * (n / 3) ∨ n = 3 * (n / 3) + 1 + 1 := by omega
  · rw [exact_]
    exact rounds
  · have first : 3 * (n / 3) % 3 = 0 := by omega
    have second : (3 * (n / 3) + 1) % 3 = 1 := by omega
    rw [extra, after_succ, after_succ]
    simp only [turn, first, second, if_true, if_false, Nat.one_ne_zero]
    omega

/-- A last turn of the first step leaves its batch behind. -/
theorem after_unbalanced (batch n : Nat) (p : Pipeline) (h : n % 3 = 1) :
    (p.after batch n).waiting = p.waiting - batch * (n / 3) - batch ∧
    (p.after batch n).passed = (p.after batch (3 * (n / 3))).passed +
      min batch (p.waiting - batch * (n / 3)) := by
  have first : 3 * (n / 3) % 3 = 0 := by omega
  have turns : 3 * (n / 3) + 1 = n := by omega
  have rest := waiting_after_rounds batch p (n / 3)
  have last : p.after batch n = ⟨p.waiting - batch * (n / 3) - batch,
      (p.after batch (3 * (n / 3))).passed + min batch (p.waiting - batch * (n / 3))⟩ := by
    rw [← rest, ← turns, after_succ, turns]
    simp only [turn, first, if_true]
  rw [last]
  exact ⟨rfl, rfl⟩

/-- While the first step fills its batches, it leaves one more than the second took. -/
theorem after_unbalanced_full (batch n : Nat) (p : Pipeline) (h : n % 3 = 1)
    (full : batch * (n / 3 + 1) ≤ p.waiting) :
    p.after batch n = ⟨p.waiting - batch * (n / 3 + 1), p.passed + batch⟩ := by
  obtain ⟨waiting, passed⟩ := after_unbalanced batch n p h
  rw [Nat.mul_succ] at full ⊢
  rw [passed_after_full_rounds batch p (n / 3) (by omega)] at passed
  rw [Nat.sub_add_eq, ← waiting]
  have one : min batch (p.waiting - batch * (n / 3)) = batch := by omega
  rw [one] at passed
  rw [← passed]

/-- Turns in a row leave no more behind the first step than there was, unless the
last one is its own and has something left to take. -/
theorem passed_le_iff (batch n : Nat) (p : Pipeline) (positive : 0 < batch) :
    (p.after batch n).passed ≤ p.passed ↔ n % 3 ≠ 1 ∨ p.waiting ≤ batch * (n / 3) := by
  by_cases balanced : n % 3 ≠ 1
  · exact iff_of_true (passed_le_of_balanced batch n p balanced) (Or.inl balanced)
  · have last := (after_unbalanced batch n p (Decidable.not_not.mp balanced)).2
    rw [last]
    by_cases rest : p.waiting ≤ batch * (n / 3)
    · have rounds := passed_after_rounds_le batch p (n / 3)
      exact iff_of_true (by omega) (Or.inr rest)
    · have rounds := passed_after_full_rounds batch p (n / 3) (by omega)
      refine iff_of_false ?_ (by omega)
      rw [rounds]
      omega

/-- The turns from number `k` on. -/
def resume (batch : Nat) (p : Pipeline) (k : Nat) : Nat → Pipeline
  | 0 => p
  | n + 1 => (p.turn batch k).resume batch (k + 1) n

theorem after_add (batch : Nat) (p : Pipeline) (k n : Nat) :
    (p.after batch k).resume batch k n = p.after batch (k + n) := by
  induction n generalizing k with
  | zero => rfl
  | succ n ih =>
    have next := ih (k + 1)
    rw [after_succ] at next
    rw [resume, next, Nat.add_right_comm k 1 n, Nat.add_assoc]

/-- Two empty queues stay empty. -/
theorem resume_empty (batch k n : Nat) : (⟨0, 0⟩ : Pipeline).resume batch k n = ⟨0, 0⟩ := by
  induction n generalizing k with
  | zero => rfl
  | succ n ih =>
    have still : (⟨0, 0⟩ : Pipeline).turn batch k = ⟨0, 0⟩ := by simp [turn]
    rw [resume, still, ih]

end Pipeline
end HostMonitoring.Framework
