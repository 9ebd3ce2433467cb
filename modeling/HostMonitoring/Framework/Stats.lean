import Mathlib.Algebra.BigOperators.Group.List.Basic
import Mathlib.Algebra.Order.Field.Basic
import Mathlib.Data.List.MinMax
import Mathlib.Tactic.FieldSimp
import Mathlib.Tactic.Ring

namespace HostMonitoring.Framework

/-- Count, extremes and mean of some samples; the last three are absent without a sample. -/
structure Stats (K : Type) where
  count : Nat
  min : Option K
  max : Option K
  mean : Option K

namespace Stats

variable {K : Type} [Field K] [LinearOrder K] [IsStrictOrderedRing K]

/-- The statistics of a list, from their definitions. -/
def of (xs : List K) : Stats K where
  count := xs.length
  min := xs.min?
  max := xs.max?
  mean := if xs = [] then none else some (xs.sum / xs.length)

/-- One more sample, with a running mean. -/
def push (s : Stats K) (x : K) : Stats K where
  count := s.count + 1
  min := some (s.min.elim x (Min.min · x))
  max := some (s.max.elim x (Max.max · x))
  mean := some (s.mean.elim x fun mean => mean + (x - mean) / (s.count + 1))

/-- Two sets of samples together, with a weighted mean. -/
def merge (s t : Stats K) : Stats K :=
  if s.count = 0 then t
  else if t.count = 0 then s
  else
    { count := s.count + t.count
      min := Option.map₂ Min.min s.min t.min
      max := Option.map₂ Max.max s.max t.max
      mean := Option.map₂ (fun m n => m + (n - m) * (t.count / (s.count + t.count))) s.mean t.mean }

omit [Field K] [IsStrictOrderedRing K] in
theorem min?_append (xs ys : List K) (a b : K) (ha : xs.min? = some a) (hb : ys.min? = some b) :
    (xs ++ ys).min? = some (Min.min a b) := by
  rw [List.min?_eq_some_iff] at ha hb ⊢
  constructor
  · obtain h | h := min_choice a b
    · rw [h]
      exact List.mem_append_left _ ha.1
    · rw [h]
      exact List.mem_append_right _ hb.1
  · intro x hx
    obtain hx | hx := List.mem_append.mp hx
    · exact (min_le_left a b).trans (ha.2 x hx)
    · exact (min_le_right a b).trans (hb.2 x hx)

omit [Field K] [IsStrictOrderedRing K] in
theorem max?_append (xs ys : List K) (a b : K) (ha : xs.max? = some a) (hb : ys.max? = some b) :
    (xs ++ ys).max? = some (Max.max a b) := by
  rw [List.max?_eq_some_iff] at ha hb ⊢
  constructor
  · obtain h | h := max_choice a b
    · rw [h]
      exact List.mem_append_left _ ha.1
    · rw [h]
      exact List.mem_append_right _ hb.1
  · intro x hx
    obtain hx | hx := List.mem_append.mp hx
    · exact (ha.2 x hx).trans (le_max_left a b)
    · exact (hb.2 x hx).trans (le_max_right a b)

omit [IsStrictOrderedRing K] in
/-- A list with a sample has all three statistics. -/
theorem of_cons (x : K) (xs : List K) : ∃ a b, (x :: xs).min? = some a ∧ (x :: xs).max? = some b ∧
    (of (x :: xs)).mean = some ((x :: xs).sum / (x :: xs).length) := by
  exact ⟨_, _, List.min?_cons', List.max?_cons', by simp [of]⟩

theorem of_append (xs ys : List K) : of (xs ++ ys) = (of xs).merge (of ys) := by
  cases xs with
  | nil => simp [merge, of]
  | cons x xs =>
    cases ys with
    | nil => simp [merge, of]
    | cons y ys =>
      obtain ⟨a, b, ha, hb, hm⟩ := of_cons x xs
      obtain ⟨c, d, hc, hd, hn⟩ := of_cons y ys
      have hxs : (of (x :: xs)).count ≠ 0 := by simp [of]
      have hys : (of (y :: ys)).count ≠ 0 := by simp [of]
      rw [merge, if_neg hxs, if_neg hys, hm, hn]
      simp only [of, List.length_append, ha, hb, hc, hd, Option.map₂_some_some,
        min?_append _ _ _ _ ha hc, max?_append _ _ _ _ hb hd, mk.injEq, true_and]
      rw [if_neg (by simp), List.sum_append]
      have hx : ((x :: xs).length : K) ≠ 0 := by simp [Nat.cast_add_one_ne_zero]
      have hy : ((y :: ys).length : K) ≠ 0 := by simp [Nat.cast_add_one_ne_zero]
      have hxy : ((x :: xs).length : K) + (y :: ys).length ≠ 0 := by
        rw [← Nat.cast_add, Nat.cast_ne_zero]
        simp
      congr 1
      push_cast
      generalize ((x :: xs).length : K) = p at *
      generalize ((y :: ys).length : K) = q at *
      field_simp
      ring

/-- The running mean is a weighted mean with one new sample. -/
theorem of_concat (xs : List K) (x : K) : of (xs ++ [x]) = (of xs).push x := by
  rw [of_append]
  cases xs with
  | nil => simp [merge, push, of]
  | cons y ys =>
    obtain ⟨a, b, ha, hb, hm⟩ := of_cons y ys
    have hys : (of (y :: ys)).count ≠ 0 := by simp [of]
    have hx : (of [x]).count ≠ 0 := by simp [of]
    rw [merge, if_neg hys, if_neg hx, push, hm]
    simp only [of, ha, hb, List.min?_singleton, List.max?_singleton, Option.map₂_some_some,
      Option.elim_some, List.length_singleton, List.cons_ne_nil, if_false, List.sum_singleton,
      mk.injEq, true_and, Option.some.injEq]
    have hn : ((y :: ys).length : K) + 1 ≠ 0 := Nat.cast_add_one_ne_zero _
    push_cast
    field_simp

end Stats
end HostMonitoring.Framework
