import HostMonitoring.Data.DateTime
import Mathlib.Data.List.Basic

namespace HostMonitoring

def digit (d : Nat) : Char := Char.ofNat (48 + d)

theorem digit_lt (a b : Nat) (h : a < b) (hb : b < 10) : digit a < digit b := by
  have finite : ∀ b < 10, ∀ a < b, digit a < digit b := by decide
  exact finite b hb a h

theorem sign_lt_digit (c : Char) (hc : c = '+' ∨ c = '-') (a : Nat) (h : a < 10) : c < digit a := by
  have finite : ∀ a < 10, '+' < digit a ∧ '-' < digit a := by decide
  obtain rfl | rfl := hc
  · exact (finite a h).1
  · exact (finite a h).2

/-- The last `width` decimal digits. -/
def digits : Nat → Nat → List Char
  | 0, _ => []
  | width + 1, n => digits width (n / 10) ++ [digit (n % 10)]

@[simp] theorem length_digits (width n : Nat) : (digits width n).length = width := by
  induction width generalizing n with
  | zero => rfl
  | succ width ih => simp [digits, ih]

theorem append_lt_append (a b x y : List Char) (hl : a.length = b.length) (h : a < b) :
    a ++ x < b ++ y := by
  induction a generalizing b with
  | nil =>
    rw [List.length_nil] at hl
    rw [List.length_eq_zero_iff.mp hl.symm] at h
    exact absurd h (List.not_lt_nil [])
  | cons c a ih =>
    cases b with
    | nil => cases hl
    | cons d b =>
      rw [List.cons_lt_cons_iff] at h
      rw [List.cons_append, List.cons_append, List.cons_lt_cons_iff]
      obtain h | ⟨rfl, h⟩ := h
      · exact Or.inl h
      · exact Or.inr ⟨rfl, ih b (Nat.succ.inj hl) h⟩

theorem digits_lt (width a b : Nat) (h : a < b) (hb : b < 10 ^ width) :
    digits width a < digits width b := by
  induction width generalizing a b with
  | zero => omega
  | succ width ih =>
    rw [Nat.pow_succ] at hb
    rw [digits, digits]
    by_cases hq : a / 10 < b / 10
    · exact append_lt_append _ _ _ _ (by simp) (ih _ _ hq (by omega))
    · have he : a / 10 = b / 10 := by omega
      rw [he]
      apply List.append_left_lt
      rw [List.cons_lt_cons_iff]
      exact Or.inl (digit_lt _ _ (by omega) (Nat.mod_lt _ (by decide)))

theorem sign_lt_digits (c : Char) (hc : c = '+' ∨ c = '-') (width n : Nat) (x y : List Char)
    (h : 0 < width) : c :: x < digits width n ++ y := by
  induction width generalizing n y with
  | zero => omega
  | succ width ih =>
    rw [digits, List.append_assoc]
    cases width with
    | zero =>
      rw [digits, List.nil_append, List.cons_append, List.cons_lt_cons_iff]
      exact Or.inl (sign_lt_digit c hc _ (Nat.mod_lt _ (by decide)))
    | succ width => exact ih _ _ (Nat.succ_pos width)

/-- Groups of three digits up to the last one that is not zero. -/
def fraction : List Nat → List Char
  | [] => []
  | g :: groups => if ∀ n ∈ g :: groups, n = 0 then [] else digits 3 g ++ fraction groups

/-- Dropping trailing zero groups keeps the order, as `+` sorts below the digits. -/
theorem fraction_lt (a b : List Nat) (zone : List Char) (hl : a.length = b.length)
    (hb : ∀ n ∈ b, n < 1000) (h : List.Lex (· < ·) a b) :
    fraction a ++ '+' :: zone < fraction b ++ '+' :: zone := by
  have nonzero : ∀ {a b : List Nat}, a.length = b.length → List.Lex (· < ·) a b →
      ¬∀ n ∈ b, n = 0 := by
    intro a b hl h
    induction h with
    | nil => cases hl
    | rel hg =>
      intro hz
      exact absurd hg (by simp [hz _ List.mem_cons_self])
    | cons _ ih => exact fun hz => ih (Nat.succ.inj hl) fun n hn => hz n (List.mem_cons_of_mem _ hn)
  have upper := nonzero hl h
  induction h with
  | nil => cases hl
  | @rel g a g' b hg =>
    rw [fraction, fraction, if_neg upper, List.append_assoc]
    split_ifs
    · exact sign_lt_digits _ (Or.inl rfl) 3 g' _ _ (by decide)
    · rw [List.append_assoc]
      exact append_lt_append _ _ _ _ (by simp) (digits_lt 3 g g' hg (hb g' List.mem_cons_self))
  | @cons g a b hr ih =>
    rw [fraction, fraction, if_neg upper, List.append_assoc]
    split_ifs
    · exact sign_lt_digits _ (Or.inl rfl) 3 g _ _ (by decide)
    · rw [List.append_assoc]
      exact List.append_left_lt (ih (Nat.succ.inj hl)
        (fun n hn => hb n (List.mem_cons_of_mem _ hn)) (nonzero (Nat.succ.inj hl) hr))

namespace DateTime

/-- Four digits, with a sign outside the years 0 to 9999. -/
def yearText (y : Int) : List Char :=
  if 0 ≤ y ∧ y ≤ 9999 then digits 4 y.toNat
  else (if y < 0 then '-' else '+') ::
    (List.replicate (4 - (Nat.toDigits 10 y.natAbs).length) '0' ++ Nat.toDigits 10 y.natAbs)

def hourText (hour : Int) : List Char :=
  let n := dayNumber hour
  let (month, day) := monthDay (monthLengths (yearOfDay n)) 1 (dayOfYear n)
  yearText (yearOfDay n) ++ ('-' :: digits 2 month ++ ('-' :: digits 2 day ++
    ('T' :: digits 2 (hour % 24).toNat)))

def fractionText (nano : Nat) : List Char :=
  if nano = 0 then [] else '.' :: fraction [nano / 1000000, nano / 1000 % 1000, nano % 1000]

def tailText (t : DateTime) : List Char :=
  ':' :: (digits 2 (t.secs % 3600 / 60).toNat ++
    (':' :: (digits 2 ((t.secs % 60).toNat + t.nanos / 1000000000) ++
      (fractionText (t.nanos % 1000000000) ++ ['+', '0', '0', ':', '0', '0']))))

/-- The stored text of a timestamp. -/
def toText (t : DateTime) : List Char := hourText (t.secs / 3600) ++ t.tailText

/-- SQL compares stored timestamps as texts. -/
def sqlLt (t u : DateTime) : Bool := decide (t.toText < u.toText)

def sqlLe (t u : DateTime) : Bool := !sqlLt u t

def sqlMin (t u : DateTime) : DateTime := if sqlLt u t then u else t

def sqlMax (t u : DateTime) : DateTime := if sqlLt t u then u else t

theorem fractionText_lt (a b : Nat) (zone : List Char) (h : a < b) (hb : b < 1000000000) :
    fractionText a ++ '+' :: zone < fractionText b ++ '+' :: zone := by
  rw [fractionText, fractionText, if_neg (show b ≠ 0 by omega)]
  split_ifs with ha
  · rw [List.nil_append, List.cons_append, List.cons_lt_cons_iff]
    exact Or.inl (by decide)
  · rw [List.cons_append, List.cons_append, List.cons_lt_cons_iff]
    refine Or.inr ⟨rfl, fraction_lt _ _ _ rfl ?_ ?_⟩
    · intro n hn
      simp only [List.mem_cons, List.not_mem_nil, or_false] at hn
      omega
    · by_cases h1 : a / 1000000 < b / 1000000
      · exact .rel h1
      · rw [show a / 1000000 = b / 1000000 by omega]
        refine .cons ?_
        by_cases h2 : a / 1000 % 1000 < b / 1000 % 1000
        · exact .rel h2
        · rw [show a / 1000 % 1000 = b / 1000 % 1000 by omega]
          exact .cons (.rel (by omega))

/-- Within one hour the texts sort as the instants do. -/
theorem tailText_lt (t u : DateTime) (hour : t.secs / 3600 = u.secs / 3600) (h : t < u) :
    t.tailText < u.tailText := by
  rw [lt_def] at h
  have leap := t.leap
  have bounded := u.bounded
  rw [tailText, tailText, List.cons_lt_cons_iff]
  refine Or.inr ⟨rfl, ?_⟩
  by_cases hm : (t.secs % 3600 / 60).toNat < (u.secs % 3600 / 60).toNat
  · exact append_lt_append _ _ _ _ (by simp) (digits_lt 2 _ _ hm (by omega))
  · rw [show (t.secs % 3600 / 60).toNat = (u.secs % 3600 / 60).toNat by omega]
    apply List.append_left_lt
    rw [List.cons_lt_cons_iff]
    refine Or.inr ⟨rfl, ?_⟩
    by_cases hs : (t.secs % 60).toNat + t.nanos / 1000000000 <
        (u.secs % 60).toNat + u.nanos / 1000000000
    · exact append_lt_append _ _ _ _ (by simp) (digits_lt 2 _ _ hs (by omega))
    · rw [show (t.secs % 60).toNat + t.nanos / 1000000000 =
        (u.secs % 60).toNat + u.nanos / 1000000000 by omega]
      apply List.append_left_lt
      exact fractionText_lt _ _ _ (by omega) (Nat.mod_lt _ (by decide))

theorem monthDay_of_day_lt (n : Int) :
    (monthDay (monthLengths (yearOfDay n)) 1 (dayOfYear n)).1 < 13 ∧
      (monthDay (monthLengths (yearOfDay n)) 1 (dayOfYear n)).2 ≤ 31 := by
  have bounds := monthDay_bounds (monthLengths (yearOfDay n)) 1 (dayOfYear n) (dayOfYear_lt n)
    (by simp only [monthLengths]; split_ifs <;> simp)
  rwa [show (monthLengths (yearOfDay n)).length = 12 from rfl] at bounds

/-- Within one year the texts sort as the hours do, whatever the sign of the year. -/
theorem hourText_lt_same_year (a b : Int) (h : a < b)
    (same : yearOfDay (dayNumber a) = yearOfDay (dayNumber b)) (x y : List Char) :
    hourText a ++ x < hourText b ++ y := by
  have hd : dayNumber a ≤ dayNumber b := by unfold dayNumber; omega
  have wb := monthDay_of_day_lt (dayNumber b)
  simp only [hourText, same, List.append_assoc, List.cons_append]
  apply List.append_left_lt
  rw [List.cons_lt_cons_iff]
  refine Or.inr ⟨rfl, ?_⟩
  by_cases hday : dayNumber a < dayNumber b
  · have ba := (yearOfDay_bounds (dayNumber a)).1
    have order : dayOfYear (dayNumber a) < dayOfYear (dayNumber b) := by
      unfold dayOfYear
      rw [same] at ba ⊢
      omega
    obtain hm | ⟨hm, hdy⟩ := monthDay_lt (monthLengths (yearOfDay (dayNumber b))) 1 _ _ order
    · exact append_lt_append _ _ _ _ (by simp) (digits_lt 2 _ _ hm (by omega))
    · rw [hm]
      apply List.append_left_lt
      rw [List.cons_lt_cons_iff]
      exact Or.inr ⟨rfl, append_lt_append _ _ _ _ (by simp) (digits_lt 2 _ _ hdy (by omega))⟩
  · have hsame : dayNumber a = dayNumber b := by omega
    rw [hsame]
    apply List.append_left_lt
    rw [List.cons_lt_cons_iff]
    refine Or.inr ⟨rfl, ?_⟩
    apply List.append_left_lt
    rw [List.cons_lt_cons_iff]
    refine Or.inr ⟨rfl, ?_⟩
    unfold dayNumber at hsame
    exact append_lt_append _ _ _ _ (by simp) (digits_lt 2 _ _ (by omega) (by omega))

theorem hourText_lt (a b : Int) (h : a < b) (ha : 0 ≤ yearOfDay (dayNumber a))
    (hb : yearOfDay (dayNumber b) ≤ 9999) (x y : List Char) :
    hourText a ++ x < hourText b ++ y := by
  have hd : dayNumber a ≤ dayNumber b := by unfold dayNumber; omega
  have hy := yearOfDay_mono _ _ hd
  by_cases hlt : yearOfDay (dayNumber a) < yearOfDay (dayNumber b)
  · simp only [hourText, yearText, if_pos (show 0 ≤ yearOfDay (dayNumber a) ∧
      yearOfDay (dayNumber a) ≤ 9999 by omega), if_pos (show 0 ≤ yearOfDay (dayNumber b) ∧
      yearOfDay (dayNumber b) ≤ 9999 by omega), List.append_assoc, List.cons_append]
    exact append_lt_append _ _ _ _ (by simp) (digits_lt 4 _ _ (by omega) (by omega))
  · exact hourText_lt_same_year a b h (by omega) x y

/-- The years whose texts carry no sign. -/
def FourDigits (t : DateTime) : Prop := 0 ≤ t.year ∧ t.year ≤ 9999

theorem toText_lt (t u : DateTime) (h : t < u)
    (sortable : t.secs / 3600 = u.secs / 3600 ∨ (t.FourDigits ∧ u.FourDigits)) :
    t.toText < u.toText := by
  by_cases hour : t.secs / 3600 = u.secs / 3600
  · rw [toText, toText, hour]
    exact List.append_left_lt (tailText_lt t u hour h)
  · obtain ⟨ht, hu⟩ := sortable.resolve_left hour
    rw [lt_def] at h
    exact hourText_lt _ _ (by omega) ht.1 hu.2 _ _

/-- SQL and the program order two timestamps alike when both have four-digit
years, or both lie in one hour of whatever year. -/
theorem sqlLt_iff (t u : DateTime)
    (sortable : t.secs / 3600 = u.secs / 3600 ∨ (t.FourDigits ∧ u.FourDigits)) :
    sqlLt t u = true ↔ t < u := by
  rw [sqlLt, decide_eq_true_iff]
  constructor
  · intro h
    by_contra hn
    obtain rfl | hlt := eq_or_lt_of_le (not_lt.mp hn)
    · exact absurd h (List.lt_irrefl _)
    · exact absurd h (List.lt_asymm (toText_lt u t hlt (sortable.imp Eq.symm And.symm)))
  · exact fun h => toText_lt t u h sortable

theorem sqlLe_iff (t u : DateTime)
    (sortable : t.secs / 3600 = u.secs / 3600 ∨ (t.FourDigits ∧ u.FourDigits)) :
    sqlLe t u = true ↔ t ≤ u := by
  rw [sqlLe, Bool.not_eq_true', ← Bool.not_eq_true,
    sqlLt_iff u t (sortable.imp Eq.symm And.symm), not_lt]

theorem sqlMin_eq (t u : DateTime) (hour : t.secs / 3600 = u.secs / 3600) :
    sqlMin t u = min t u := by
  rw [sqlMin, min_def]
  have h := sqlLt_iff u t (Or.inl hour.symm)
  split_ifs with h₁ h₂ h₂
  · exact absurd (h.mp h₁) (not_lt.mpr h₂)
  · rfl
  · rfl
  · exact absurd (h.mpr (not_le.mp h₂)) h₁

theorem sqlMax_eq (t u : DateTime) (hour : t.secs / 3600 = u.secs / 3600) :
    sqlMax t u = max t u := by
  rw [sqlMax, max_def]
  have h := sqlLt_iff t u (Or.inl hour)
  split_ifs with h₁ h₂ h₂
  · rfl
  · exact absurd (le_of_lt (h.mp h₁)) h₂
  · exact le_antisymm h₂ (not_lt.mp fun hlt => h₁ (h.mpr hlt))
  · rfl

end DateTime
end HostMonitoring
