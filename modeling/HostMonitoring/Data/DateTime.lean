import Mathlib.Algebra.Ring.Nat
import Mathlib.Data.Int.Order.Basic
import Mathlib.Data.List.Lex
import Mathlib.Order.Lattice
import Mathlib.Tactic.SplitIfs

namespace HostMonitoring

/-- A UTC instant: seconds since 1970 and nanoseconds within the second. A leap
second is the last second of its minute with a nanosecond part from 10⁹ up. -/
structure DateTime where
  secs : Int
  nanos : Nat
  bounded : nanos < 2000000000
  leap : 1000000000 ≤ nanos → secs % 60 = 59
deriving DecidableEq

namespace DateTime

def ofSecs (secs : Int) : DateTime := ⟨secs, 0, by omega, by omega⟩

/-- One number per instant, in the order of the instants. -/
def stamp (t : DateTime) : Int := t.secs * 2000000000 + t.nanos

theorem stamp_injective : Function.Injective stamp := by
  intro t u h
  obtain ⟨s, n, hn, _⟩ := t
  obtain ⟨s', n', hn', _⟩ := u
  simp only [stamp] at h
  have hs : s = s' := by omega
  have he : n = n' := by omega
  subst hs; subst he
  rfl

instance : LinearOrder DateTime := LinearOrder.lift' stamp stamp_injective

theorem lt_def (t u : DateTime) :
    t < u ↔ t.secs < u.secs ∨ (t.secs = u.secs ∧ t.nanos < u.nanos) := by
  change t.stamp < u.stamp ↔ _
  have ht := t.bounded
  have hu := u.bounded
  simp only [stamp]
  omega

/-- Adds whole seconds; a sum that leaves a leap second forgets it. -/
def plusSeconds (t : DateTime) (n : Int) : DateTime :=
  if h : t.nanos < 1000000000 then ⟨t.secs + n, t.nanos, t.bounded, by omega⟩
  else if 0 < n then
    ⟨t.secs + n, t.nanos - 1000000000, (Nat.sub_le _ _).trans_lt t.bounded,
      by have := t.bounded; omega⟩
  else if n < 0 then
    ⟨t.secs + 1 + n, t.nanos - 1000000000, (Nat.sub_le _ _).trans_lt t.bounded,
      by have := t.bounded; omega⟩
  else t

/-- Minute, second and nanosecond set to zero. -/
def hourStart (t : DateTime) : DateTime := ⟨t.secs / 3600 * 3600, 0, by omega, by omega⟩

theorem hour_of_hourStart (t u : DateTime) (h : t.hourStart = u.hourStart) :
    t.secs / 3600 = u.secs / 3600 := by
  have hs := congrArg secs h
  simp only [hourStart] at hs
  omega

/-- Days before the first of January of a year, counted from the year 1. -/
def daysBeforeYear (y : Int) : Int := 365 * (y - 1) + (y - 1) / 4 - (y - 1) / 100 + (y - 1) / 400

/-- Days since the first of January of the year 1. -/
def dayNumber (hour : Int) : Int := hour / 24 + 719162

/-- The average length of a year is off by less than one year over a whole cycle. -/
def yearOfDay (n : Int) : Int :=
  let y := n * 400 / 146097 + 1
  if n < daysBeforeYear y then y - 1 else if daysBeforeYear (y + 1) ≤ n then y + 1 else y

theorem yearOfDay_bounds (n : Int) :
    daysBeforeYear (yearOfDay n) ≤ n ∧ n < daysBeforeYear (yearOfDay n + 1) := by
  unfold yearOfDay daysBeforeYear
  dsimp only
  split_ifs <;> omega

theorem daysBeforeYear_mono (y z : Int) (h : y ≤ z) : daysBeforeYear y ≤ daysBeforeYear z := by
  unfold daysBeforeYear
  omega

theorem yearOfDay_mono (m n : Int) (h : m ≤ n) : yearOfDay m ≤ yearOfDay n := by
  by_contra hlt
  have hm := (yearOfDay_bounds m).1
  have hn := (yearOfDay_bounds n).2
  have hb := daysBeforeYear_mono (yearOfDay n + 1) (yearOfDay m) (by omega)
  omega

def isLeapYear (y : Int) : Bool := y % 4 == 0 && (y % 100 != 0 || y % 400 == 0)

def monthLengths (y : Int) : List Nat :=
  [31, if isLeapYear y then 29 else 28, 31, 30, 31, 30, 31, 31, 30, 31, 30, 31]

/-- Days into the year, from zero. -/
def dayOfYear (n : Int) : Nat := (n - daysBeforeYear (yearOfDay n)).toNat

theorem dayOfYear_lt (n : Int) : dayOfYear n < (monthLengths (yearOfDay n)).sum := by
  have hb := yearOfDay_bounds n
  have hl : daysBeforeYear (yearOfDay n + 1) - daysBeforeYear (yearOfDay n) =
      if isLeapYear (yearOfDay n) then 366 else 365 := by
    generalize yearOfDay n = y
    simp only [daysBeforeYear, isLeapYear, Bool.and_eq_true, Bool.or_eq_true, beq_iff_eq,
      bne_iff_ne]
    split_ifs <;> omega
  have hs : (monthLengths (yearOfDay n)).sum = if isLeapYear (yearOfDay n) then 366 else 365 := by
    simp only [monthLengths]
    split_ifs <;> rfl
  rw [hs, dayOfYear]
  split_ifs at hl ⊢ <;> omega

/-- Month and day, both from one. -/
def monthDay : List Nat → Nat → Nat → Nat × Nat
  | [], month, d => (month, d + 1)
  | length :: rest, month, d =>
    if d < length then (month, d + 1) else monthDay rest (month + 1) (d - length)

theorem monthDay_month_ge (lengths : List Nat) (month d : Nat) :
    month ≤ (monthDay lengths month d).1 := by
  induction lengths generalizing month d with
  | nil => exact le_refl month
  | cons length rest ih =>
    rw [monthDay]
    split_ifs
    · exact le_refl month
    · exact (Nat.le_succ month).trans (ih (month + 1) _)

/-- A later day of the year has a later month, or a later day in the same month. -/
theorem monthDay_lt (lengths : List Nat) (month d e : Nat) (h : d < e) :
    (monthDay lengths month d).1 < (monthDay lengths month e).1 ∨
    ((monthDay lengths month d).1 = (monthDay lengths month e).1 ∧
      (monthDay lengths month d).2 < (monthDay lengths month e).2) := by
  induction lengths generalizing month d e with
  | nil => exact Or.inr ⟨rfl, Nat.succ_lt_succ h⟩
  | cons length rest ih =>
    rw [monthDay, monthDay]
    by_cases hd : d < length
    · by_cases he : e < length
      · rw [if_pos hd, if_pos he]
        exact Or.inr ⟨rfl, Nat.succ_lt_succ h⟩
      · rw [if_pos hd, if_neg he]
        exact Or.inl (monthDay_month_ge rest (month + 1) _)
    · have he : ¬e < length := by omega
      rw [if_neg hd, if_neg he]
      exact ih (month + 1) (d - length) (e - length) (by omega)

theorem monthDay_day_pos (lengths : List Nat) (month d : Nat) : 1 ≤ (monthDay lengths month d).2 := by
  induction lengths generalizing month d with
  | nil => exact Nat.succ_pos d
  | cons length rest ih =>
    rw [monthDay]
    split_ifs
    · exact Nat.succ_pos d
    · exact ih (month + 1) _

theorem monthDay_bounds (lengths : List Nat) (month d : Nat) (hs : d < lengths.sum)
    (hl : ∀ length ∈ lengths, length ≤ 31) :
    (monthDay lengths month d).1 < month + lengths.length ∧ (monthDay lengths month d).2 ≤ 31 := by
  induction lengths generalizing month d with
  | nil => exact absurd hs (Nat.not_lt_zero d)
  | cons length rest ih =>
    have hlen := hl length List.mem_cons_self
    rw [List.sum_cons] at hs
    rw [monthDay, List.length_cons]
    split_ifs with hd
    · exact ⟨by dsimp only; omega, by dsimp only; omega⟩
    · have hr := ih (month + 1) (d - length) (by omega)
        fun l hm => hl l (List.mem_cons_of_mem _ hm)
      exact ⟨by omega, hr.2⟩

def year (t : DateTime) : Int := yearOfDay (dayNumber (t.secs / 3600))

end DateTime
end HostMonitoring
