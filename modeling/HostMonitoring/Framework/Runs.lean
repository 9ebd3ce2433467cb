import Mathlib.Data.List.Infix

namespace HostMonitoring.Framework

/-- Of two different entries of one list either the one or the other comes first. -/
theorem before_or_after {α : Type} (xs ys zs ws : List α) (x y : α)
    (h : xs ++ x :: ys = zs ++ y :: ws) (hne : x ≠ y) :
    (∃ mid, ys = mid ++ y :: ws) ∨ ∃ mid, ws = mid ++ x :: ys := by
  obtain ⟨rest, hz, hx⟩ | ⟨rest, hx, hy⟩ := List.append_eq_append_iff.mp h
  · cases rest with
    | nil => exact absurd (List.cons.inj hx).1 hne
    | cons first rest => exact Or.inl ⟨rest, (List.cons.inj hx).2⟩
  · cases rest with
    | nil => exact absurd (List.cons.inj hy).1.symm hne
    | cons first rest => exact Or.inr ⟨rest, (List.cons.inj hy).2⟩

/-- A system that answers one operation at a time. -/
structure Machine (σ ω ρ : Type) where
  start : σ
  exec : ω → σ → ρ × σ

namespace Machine

variable {σ ω ρ : Type} (M : Machine σ ω ρ)

/-- The state after some operations. -/
def after (ops : List ω) : σ := ops.foldl (fun s op => (M.exec op s).2) M.start

@[simp] theorem after_concat (ops : List ω) (op : ω) :
    M.after (ops ++ [op]) = (M.exec op (M.after ops)).2 := by
  simp [after]

/-- What holds at the start and what every operation keeps holds after any run
whose history is admissible throughout. -/
theorem invariant (Admissible : List ω → Prop) (P : List ω → σ → Prop)
    (closed : ∀ past op, Admissible (past ++ [op]) → Admissible past) (start : P [] M.start)
    (step : ∀ past op s, Admissible (past ++ [op]) → P past s → P (past ++ [op]) (M.exec op s).2)
    (ops : List ω) (h : Admissible ops) : P ops (M.after ops) := by
  induction ops using List.reverseRecOn with
  | nil => exact start
  | append_singleton past op ih =>
    rw [after_concat]
    exact step past op _ h (ih (closed past op h))

/-- What holds at one moment and what each later operation keeps still holds later. -/
theorem lasting (P : σ → Prop) (past later : List ω) (h : P (M.after past))
    (step : ∀ mid op, (mid ++ [op]).IsPrefix later → P (M.after (past ++ mid)) →
      P (M.exec op (M.after (past ++ mid))).2) : P (M.after (past ++ later)) := by
  induction later using List.reverseRecOn with
  | nil => rwa [List.append_nil]
  | append_singleton mid op ih =>
    rw [← List.append_assoc, after_concat]
    refine step mid op (List.prefix_refl _) (ih fun mid' op' hp => step mid' op' ?_)
    exact hp.trans (List.prefix_append mid [op])

section
variable {β : Type} (seen : ω → σ → List β)

/-- What an observer notes down along a run. -/
def observed (ops : List ω) : List β :=
  (ops.foldl (fun (noted, s) op => (noted ++ seen op s, (M.exec op s).2)) ([], M.start)).1

theorem observed_state (ops : List ω) :
    ops.foldl (fun (noted, s) op => (noted ++ seen op s, (M.exec op s).2)) ([], M.start) =
      (M.observed seen ops, M.after ops) := by
  induction ops using List.reverseRecOn with
  | nil => rfl
  | append_singleton past op ih =>
    have state := M.after_concat past op
    unfold observed
    rw [List.foldl_append, ih, state]
    rfl

@[simp] theorem observed_concat (past : List ω) (op : ω) :
    M.observed seen (past ++ [op]) = M.observed seen past ++ seen op (M.after past) := by
  have before := M.observed_state seen past
  unfold observed at before ⊢
  rw [List.foldl_append, before]
  rfl

theorem observed_prefix (past later : List ω) :
    ∃ rest, M.observed seen (past ++ later) = M.observed seen past ++ rest := by
  induction later using List.reverseRecOn with
  | nil => exact ⟨[], by simp⟩
  | append_singleton mid op ih =>
    obtain ⟨rest, hr⟩ := ih
    refine ⟨rest ++ seen op (M.after (past ++ mid)), ?_⟩
    rw [← List.append_assoc, observed_concat, hr, List.append_assoc]

/-- An invariant that speaks of what was noted down as well. -/
theorem observed_invariant (Admissible : List ω → Prop) (P : List ω → List β → σ → Prop)
    (closed : ∀ past op, Admissible (past ++ [op]) → Admissible past) (start : P [] [] M.start)
    (step : ∀ past noted op s, Admissible (past ++ [op]) → P past noted s →
      P (past ++ [op]) (noted ++ seen op s) (M.exec op s).2)
    (ops : List ω) (h : Admissible ops) : P ops (M.observed seen ops) (M.after ops) := by
  induction ops using List.reverseRecOn with
  | nil => exact start
  | append_singleton past op ih =>
    rw [after_concat, observed_concat]
    exact step past _ op _ h (ih (closed past op h))

end
end Machine
end HostMonitoring.Framework
