import Mathlib.Algebra.Order.Field.Basic
import Mathlib.Tactic.Linarith
import Mathlib.Tactic.Ring

namespace HostMonitoring.Framework.TokenBucket

variable {R : Type} [Field R] [LinearOrder R] [IsStrictOrderedRing R]

/-- A bucket refills one token per `interval` up to `burst` tokens. -/
structure Rate (R : Type) [Field R] [LinearOrder R] where
  burst : R
  interval : R
  burst_nonneg : 0 ≤ burst
  interval_pos : 0 < interval

/-- A bucket nothing was ever taken from, or the tokens it held at `stamp`. -/
inductive Level (R : Type) where
  | untouched
  | charged (tokens stamp : R)

namespace Level

def refill (r : Rate R) (tokens stamp now : R) : R :=
  min (tokens + max (now - stamp) 0 / r.interval) r.burst

/-- The tokens available at `now`; a moment before the stamp refills nothing. -/
def read (r : Rate R) (b : Level R) (now : R) : R :=
  match b with
  | untouched => r.burst
  | .charged tokens stamp => refill r tokens stamp now

def charge (r : Rate R) (b : Level R) (now : R) : Level R := .charged (b.read r now - 1) now

/-- The bucket was not stamped after `now`. -/
def By (b : Level R) (now : R) : Prop :=
  match b with
  | untouched => True
  | .charged _ stamp => stamp ≤ now

omit [Field R] [IsStrictOrderedRing R] in
theorem By.mono {b : Level R} {s t : R} (h : b.By s) (hst : s ≤ t) : b.By t := by
  cases b with
  | untouched => trivial
  | charged tokens stamp => exact le_trans h hst

omit [IsStrictOrderedRing R] in
theorem read_le_burst (r : Rate R) (b : Level R) (now : R) : b.read r now ≤ r.burst := by
  cases b with
  | untouched => exact le_refl _
  | charged tokens stamp => exact min_le_right _ _

theorem read_mono (r : Rate R) (b : Level R) (s t : R) (h : s ≤ t) :
    b.read r s ≤ b.read r t := by
  cases b with
  | untouched => exact le_refl _
  | charged tokens stamp =>
    apply min_le_min_right
    have hm : max (s - stamp) 0 ≤ max (t - stamp) 0 := max_le_max_right _ (by linarith)
    have hd := div_le_div_of_nonneg_right hm r.interval_pos.le
    linarith

/-- Waiting from `s` to `t` gains at most `(t - s) / interval` tokens. -/
theorem read_gain (r : Rate R) (b : Level R) (s t : R) (h : s ≤ t) :
    b.read r t ≤ b.read r s + (t - s) / r.interval := by
  have hq : 0 ≤ (t - s) / r.interval := div_nonneg (by linarith) r.interval_pos.le
  cases b with
  | untouched => change r.burst ≤ r.burst + _; linarith
  | charged tokens stamp =>
    have hm : max (t - stamp) 0 ≤ max (s - stamp) 0 + (t - s) := by
      apply max_le
      · linarith [le_max_left (s - stamp) 0]
      · linarith [le_max_right (s - stamp) 0]
    have hd : max (t - stamp) 0 / r.interval ≤
        max (s - stamp) 0 / r.interval + (t - s) / r.interval := by
      rw [← add_div]
      exact div_le_div_of_nonneg_right hm r.interval_pos.le
    simp only [read, refill]
    obtain hs | hs := le_total (tokens + max (s - stamp) 0 / r.interval) r.burst
    · rw [min_eq_left hs]
      exact (min_le_left _ _).trans (by linarith)
    · rw [min_eq_right hs]
      exact (min_le_right _ _).trans (by linarith)

/-- A bucket rewritten to its own reading at `u` reads the same from `u` on. -/
theorem read_restamp (r : Rate R) (b : Level R) (u t : R) (hu : b.By u) (h : u ≤ t) :
    (Level.charged (b.read r u) u).read r t = b.read r t := by
  have hq : 0 ≤ (t - u) / r.interval := div_nonneg (by linarith) r.interval_pos.le
  cases b with
  | untouched =>
    simp only [read, refill]
    rw [max_eq_left (show 0 ≤ t - u by linarith)]
    exact min_eq_right (by linarith)
  | charged tokens stamp =>
    change stamp ≤ u at hu
    have split : (u - stamp) / r.interval + (t - u) / r.interval =
        (t - stamp) / r.interval := by rw [← add_div]; congr 1; ring
    simp only [read, refill]
    rw [max_eq_left (show 0 ≤ u - stamp by linarith),
      max_eq_left (show 0 ≤ t - stamp by linarith), max_eq_left (show 0 ≤ t - u by linarith)]
    obtain hs | hs := le_total (tokens + (u - stamp) / r.interval) r.burst
    · rw [min_eq_left hs, add_assoc, split]
    · rw [min_eq_right hs, min_eq_right (by linarith), min_eq_right (by linarith)]

/-- A bucket left alone for `burst * interval` is full again. -/
theorem read_idle (r : Rate R) (tokens stamp now : R) (hb : 0 ≤ tokens)
    (h : r.burst * r.interval ≤ now - stamp) : (Level.charged tokens stamp).read r now = r.burst := by
  apply min_eq_right
  have hm := h.trans (le_max_left (now - stamp) 0)
  have hd := (le_div_iff₀ r.interval_pos).mpr hm
  linarith

theorem charge_read_self (r : Rate R) (b : Level R) (u : R) :
    (b.charge r u).read r u = b.read r u - 1 := by
  have h := read_le_burst r b u
  change min (b.read r u - 1 + max (u - u) 0 / r.interval) r.burst = b.read r u - 1
  rw [sub_self, max_self, zero_div, add_zero]
  exact min_eq_left (by linarith)

theorem charge_read_le (r : Rate R) (b : Level R) (u s : R) (hb : b.By u) (h : u ≤ s) :
    (b.charge r u).read r s ≤ b.read r s := by
  rw [← read_restamp r b u s hb h]
  apply min_le_min_right
  linarith

end Level

open Level

/-- The bucket pays one token at each of the listed moments, in this order,
and holds a whole token whenever it pays. -/
inductive Pays (r : Rate R) : Level R → List R → Level R → Prop where
  | nil (b : Level R) : Pays r b [] b
  | cons {b b' : Level R} {t : R} {ts : List R} (due : b.By t) (admits : 1 ≤ b.read r t)
      (rest : Pays r (b.charge r t) ts b') : Pays r b (t :: ts) b'

omit [IsStrictOrderedRing R] in
theorem Pays.snoc {r : Rate R} {b c : Level R} {t : R} {ts : List R} (h : Pays r b ts c)
    (due : c.By t) (admits : 1 ≤ c.read r t) : Pays r b (ts ++ [t]) (c.charge r t) := by
  induction h with
  | nil b => exact .cons due admits (.nil _)
  | cons d a _ ih => exact .cons d a (ih due admits)

omit [IsStrictOrderedRing R] in
theorem Pays.by_of_mem {r : Rate R} {b b' : Level R} {ts : List R} (h : Pays r b ts b') :
    ∀ v ∈ ts, b.By v := by
  induction h with
  | nil b => simp
  | @cons b b' t ts due admits rest ih =>
    intro v hv
    obtain rfl | hv := List.mem_cons.mp hv
    · exact due
    · exact due.mono (ih v hv)

omit [Field R] [IsStrictOrderedRing R] in
private theorem window_eq_nil (ts : List R) (s t : R) (h : ∀ v ∈ ts, ¬v ≤ t) :
    ts.filter (fun v => decide (s ≤ v ∧ v ≤ t)) = [] := by
  apply List.filter_eq_nil_iff.mpr
  intro v hv hw
  have hwin : s ≤ v ∧ v ≤ t := by simpa using hw
  exact h v hv hwin.2

omit [Field R] [IsStrictOrderedRing R] in
private theorem window_narrow (ts : List R) (s u t : R) (hsu : s ≤ u) (h : ∀ v ∈ ts, u ≤ v) :
    ts.filter (fun v => decide (s ≤ v ∧ v ≤ t)) = ts.filter (fun v => decide (u ≤ v ∧ v ≤ t)) := by
  apply List.filter_congr
  intro v hv
  simp [h v hv, hsu.trans (h v hv)]

/-- The payments in `[s, t]` of a bucket not stamped after `s`. -/
private theorem Pays.count_from {r : Rate R} {b b' : Level R} {ts : List R}
    (h : Pays r b ts b') (s t : R) (hb : b.By s) (hst : s ≤ t) :
    ((ts.filter (fun u => decide (s ≤ u ∧ u ≤ t))).length : R) ≤
      max (b.read r s) 0 + (t - s) / r.interval := by
  have hq (u : R) (hu : u ≤ t) : 0 ≤ (t - u) / r.interval :=
    div_nonneg (by linarith) r.interval_pos.le
  induction h generalizing s with
  | nil b =>
    have h0 := le_max_right (b.read r s) 0
    simp only [List.filter_nil, List.length_nil, Nat.cast_zero]
    linarith [hq s hst]
  | @cons b b' u ts due admits rest ih =>
    have later : ∀ v ∈ ts, u ≤ v := rest.by_of_mem
    by_cases hlow : s ≤ u
    · by_cases hhigh : u ≤ t
      · -- Every later payment is at or after `u`, so its window may start there.
        have tail := ih u (le_refl u) hhigh
        have left : 0 ≤ b.read r u - 1 := by linarith
        rw [charge_read_self, max_eq_left left] at tail
        have gain := read_gain r b s u hlow
        have split : (u - s) / r.interval + (t - u) / r.interval = (t - s) / r.interval := by
          rw [← add_div]; congr 1; ring
        have hm := le_max_left (b.read r s) 0
        rw [List.filter_cons_of_pos (by simp [hlow, hhigh]), window_narrow ts s u t hlow later,
          List.length_cons, Nat.cast_add, Nat.cast_one]
        linarith
      · have none : ∀ v ∈ u :: ts, ¬v ≤ t := by
          intro v hv hvt
          obtain rfl | hv := List.mem_cons.mp hv
          · exact hhigh hvt
          · exact hhigh ((later v hv).trans hvt)
        rw [window_eq_nil _ s t none]
        have h0 := le_max_right (b.read r s) 0
        simp only [List.length_nil, Nat.cast_zero]
        linarith [hq s hst]
    · have hus : u ≤ s := (not_le.mp hlow).le
      have tail := ih s hus hst
      have hm : max ((b.charge r u).read r s) 0 ≤ max (b.read r s) 0 :=
        max_le_max_right _ (charge_read_le r b u s due hus)
      rw [List.filter_cons_of_neg (by simp [hlow])]
      linarith

/-- A token bucket pays at most `burst + (t - s) / interval` times in `[s, t]`. -/
theorem Pays.count_window {r : Rate R} {b b' : Level R} {ts : List R} (h : Pays r b ts b')
    (s t : R) (hst : s ≤ t) :
    ((ts.filter (fun u => decide (s ≤ u ∧ u ≤ t))).length : R) ≤
      r.burst + (t - s) / r.interval := by
  have early (u : R) (hu : b.By u) (hut : u ≤ t) :
      ((ts.filter (fun v => decide (u ≤ v ∧ v ≤ t))).length : R) ≤
        r.burst + (t - u) / r.interval := by
    have hm : max (b.read r u) 0 ≤ r.burst := max_le (read_le_burst r b u) r.burst_nonneg
    exact (h.count_from u t hu hut).trans (by linarith)
  by_cases hb : b.By s
  · exact early s hb hst
  · cases b with
    | untouched => exact absurd trivial hb
    | charged tokens stamp =>
      have hbs : s ≤ stamp := (not_le.mp hb).le
      have later : ∀ v ∈ ts, stamp ≤ v := h.by_of_mem
      by_cases hbt : stamp ≤ t
      · have hd : (t - stamp) / r.interval ≤ (t - s) / r.interval :=
          div_le_div_of_nonneg_right (by linarith) r.interval_pos.le
        rw [window_narrow ts s stamp t hbs later]
        exact (early stamp (le_refl stamp) hbt).trans (by linarith)
      · rw [window_eq_nil ts s t (fun v hv hvt => hbt ((later v hv).trans hvt))]
        have hq : 0 ≤ (t - s) / r.interval := div_nonneg (by linarith) r.interval_pos.le
        have hr := r.burst_nonneg
        simp only [List.length_nil, Nat.cast_zero]
        linarith

end HostMonitoring.Framework.TokenBucket
