import HostMonitoring.Data.Rfc3339

namespace HostMonitoring

theorem digitChar_eq (d : Nat) (h : d < 10) : Nat.digitChar d = digit d := by
  have finite : ∀ d < 10, Nat.digitChar d = digit d := by decide
  exact finite d h

theorem toDigits_eq_digits (n : Nat) : Nat.toDigits 10 n = digits (Nat.toDigits 10 n).length n := by
  induction n using Nat.strong_induction_on with
  | _ n ih =>
    by_cases small : n < 10
    · rw [Nat.toDigits_of_lt_base small, List.length_singleton, digits, digits, List.nil_append,
        Nat.mod_eq_of_lt small, digitChar_eq n small]
    · have rest := ih (n / 10) (by omega)
      rw [Nat.toDigits_of_base_le (by decide) (Nat.not_lt.mp small), List.length_append,
        List.length_singleton, digits, ← rest, digitChar_eq _ (Nat.mod_lt n (by decide))]

/-- Leading digits and last digits. -/
theorem digits_add (k width n : Nat) :
    digits (k + width) n = digits k (n / 10 ^ width) ++ digits width n := by
  induction width generalizing n with
  | zero => simp [digits]
  | succ width ih =>
    rw [← Nat.add_assoc, digits, digits, ih, List.append_assoc, Nat.div_div_eq_div_mul,
      Nat.pow_succ, Nat.mul_comm 10]

theorem digits_zero (k : Nat) : digits k 0 = List.replicate k '0' := by
  induction k with
  | zero => rfl
  | succ k ih =>
    rw [digits, Nat.zero_div, ih, List.replicate_succ']
    rfl

namespace DateTime

/-- The number of digits of a year, at least four. -/
def yearWidth (y : Int) : Nat := max 4 (Nat.toDigits 10 y.natAbs).length

theorem lt_yearWidth (y : Int) : y.natAbs < 10 ^ yearWidth y := by
  have own : y.natAbs < 10 ^ (Nat.toDigits 10 y.natAbs).length :=
    (Nat.length_toDigits_le_iff (by decide) Nat.length_toDigits_pos).mp (le_refl _)
  exact own.trans_le (Nat.pow_le_pow_right (by decide) (le_max_right _ _))

theorem padded_eq_digits (y : Int) :
    List.replicate (4 - (Nat.toDigits 10 y.natAbs).length) '0' ++ Nat.toDigits 10 y.natAbs =
      digits (yearWidth y) y.natAbs := by
  have own : y.natAbs < 10 ^ (Nat.toDigits 10 y.natAbs).length :=
    (Nat.length_toDigits_le_iff (by decide) Nat.length_toDigits_pos).mp (le_refl _)
  have width : yearWidth y = 4 - (Nat.toDigits 10 y.natAbs).length +
      (Nat.toDigits 10 y.natAbs).length := by
    unfold yearWidth
    omega
  rw [width, digits_add, Nat.div_eq_of_lt own, digits_zero, ← toDigits_eq_digits]

/-- The digits of the one year sort before those of the other. -/
def DigitsBefore (y z : Int) : Prop :=
  if yearWidth z ≤ yearWidth y then y.natAbs / 10 ^ (yearWidth y - yearWidth z) < z.natAbs
  else y.natAbs ≤ z.natAbs / 10 ^ (yearWidth z - yearWidth y)

instance : DecidableRel DigitsBefore := fun _ _ => inferInstanceAs (Decidable (ite _ _ _))

/-- Of two different years the text of the earlier one sorts first. -/
def EarlierFirst (y z : Int) : Prop :=
  (0 ≤ z ∧ z ≤ 9999) ∨ ((z < 0 ∨ 9999 < y) ∧ DigitsBefore y z)

instance : DecidableRel EarlierFirst := fun _ _ => inferInstanceAs (Decidable (_ ∨ _))

theorem digits_before (y z : Int) (h : DigitsBefore y z) (x x' : List Char) :
    digits (yearWidth y) y.natAbs ++ '-' :: x < digits (yearWidth z) z.natAbs ++ '-' :: x' := by
  unfold DigitsBefore at h
  split_ifs at h with hw
  · have parts : yearWidth y = yearWidth z + (yearWidth y - yearWidth z) := by omega
    have split := digits_add (yearWidth z) (yearWidth y - yearWidth z) y.natAbs
    rw [← parts] at split
    rw [split, List.append_assoc]
    exact append_lt_append _ _ _ _ (by simp) (digits_lt _ _ _ h (lt_yearWidth z))
  · have parts : yearWidth z = yearWidth y + (yearWidth z - yearWidth y) := by omega
    have split := digits_add (yearWidth y) (yearWidth z - yearWidth y) z.natAbs
    rw [← parts] at split
    rw [split, List.append_assoc]
    obtain hlt | heq := Nat.lt_or_eq_of_le h
    · have bound : z.natAbs / 10 ^ (yearWidth z - yearWidth y) < 10 ^ yearWidth y := by
        rw [Nat.div_lt_iff_lt_mul (Nat.pow_pos (by decide)), ← Nat.pow_add, ← parts]
        exact lt_yearWidth z
      exact append_lt_append _ _ _ _ (by simp) (digits_lt _ _ _ hlt bound)
    · rw [← heq]
      apply List.append_left_lt
      exact sign_lt_digits _ (Or.inr rfl) _ _ _ _ (by omega)

theorem digitsBefore_total (y z : Int) (hne : y.natAbs ≠ z.natAbs) (h : ¬DigitsBefore y z) :
    DigitsBefore z y := by
  unfold DigitsBefore at h ⊢
  obtain hlt | heq | hgt := Nat.lt_trichotomy (yearWidth y) (yearWidth z)
  · rw [if_neg (by omega)] at h
    rw [if_pos (by omega)]
    omega
  · rw [if_pos (by omega), heq, Nat.sub_self, Nat.pow_zero, Nat.div_one] at h
    rw [if_pos (by omega), heq, Nat.sub_self, Nat.pow_zero, Nat.div_one]
    omega
  · rw [if_pos (by omega)] at h
    rw [if_neg (by omega)]
    omega

theorem yearText_unsigned (y : Int) (h : 0 ≤ y ∧ y ≤ 9999) : yearText y = digits 4 y.toNat :=
  if_pos h

theorem yearText_signed (y : Int) (h : ¬(0 ≤ y ∧ y ≤ 9999)) :
    yearText y = (if y < 0 then '-' else '+') :: digits (yearWidth y) y.natAbs := by
  rw [yearText, if_neg h, padded_eq_digits]

/-- The hyphen after a year sorts below digits, so the texts of two different years
already decide. -/
theorem yearText_lt (y z : Int) (h : y < z) (x x' : List Char) :
    (EarlierFirst y z → yearText y ++ '-' :: x < yearText z ++ '-' :: x') ∧
    (¬EarlierFirst y z → yearText z ++ '-' :: x' < yearText y ++ '-' :: x) := by
  by_cases unsigned : 0 ≤ z ∧ z ≤ 9999
  · refine ⟨fun _ => ?_, fun hn => absurd (Or.inl unsigned) hn⟩
    rw [yearText_unsigned z unsigned]
    by_cases hy : 0 ≤ y
    · rw [yearText_unsigned y (by omega)]
      exact append_lt_append _ _ _ _ (by simp) (digits_lt 4 _ _ (by omega) (by omega))
    · rw [yearText_signed y (by omega), if_pos (by omega)]
      exact sign_lt_digits _ (Or.inr rfl) 4 _ _ _ (by decide)
  · rw [yearText_signed z unsigned]
    by_cases same : z < 0 ∨ 9999 < y
    · have sign : (if z < 0 then '-' else '+') = if y < 0 then '-' else '+' := by
        split_ifs
        · rfl
        · omega
        · omega
        · rfl
      have equivalent : EarlierFirst y z ↔ DigitsBefore y z := by
        simp [EarlierFirst, unsigned, same]
      rw [yearText_signed y (by omega), sign, equivalent, List.cons_append, List.cons_append,
        List.cons_lt_cons_iff, List.cons_lt_cons_iff]
      refine ⟨fun hd => Or.inr ⟨rfl, digits_before y z hd x x'⟩, fun hd => Or.inr ⟨rfl, ?_⟩⟩
      exact digits_before z y (digitsBefore_total y z (by omega) hd) x' x
    · have late : 9999 < z := by omega
      refine ⟨fun he => ?_, fun _ => ?_⟩
      · obtain he | he := he
        · exact absurd he unsigned
        · exact absurd he.1 same
      · rw [if_neg (by omega)]
        by_cases hy : 0 ≤ y
        · rw [yearText_unsigned y (by omega)]
          exact sign_lt_digits _ (Or.inl rfl) 4 _ _ _ (by decide)
        · rw [yearText_signed y (by omega), if_pos (by omega), List.cons_append, List.cons_append,
            List.cons_lt_cons_iff]
          exact Or.inl (by decide)

theorem year_mono (a b : DateTime) (h : a ≤ b) : a.year ≤ b.year := by
  have secs : a.secs ≤ b.secs := by
    obtain rfl | hlt := eq_or_lt_of_le h
    · exact le_refl _
    · rw [lt_def] at hlt
      omega
  apply yearOfDay_mono
  unfold dayNumber
  omega

theorem toText_lt_same_year (a b : DateTime) (h : a < b) (same : a.year = b.year) :
    a.toText < b.toText := by
  by_cases hour : a.secs / 3600 = b.secs / 3600
  · exact toText_lt a b h (Or.inl hour)
  · rw [lt_def] at h
    exact hourText_lt_same_year _ _ (by omega) same _ _

theorem toText_lt_of_year_lt (a b : DateTime) (h : a.year < b.year) :
    (EarlierFirst a.year b.year → a.toText < b.toText) ∧
    (¬EarlierFirst a.year b.year → b.toText < a.toText) := by
  have texts (t : DateTime) : ∃ x, t.toText = yearText t.year ++ '-' :: x := by
    unfold toText hourText
    exact ⟨_, by rw [List.append_assoc]; rfl⟩
  obtain ⟨x, hx⟩ := texts a
  obtain ⟨x', hx'⟩ := texts b
  rw [hx, hx']
  exact yearText_lt a.year b.year h x x'

/-- The years whose texts sort as the years do. -/
def YearsSort (y z : Int) : Prop :=
  y = z ∨ (y < z ∧ EarlierFirst y z) ∨ (z < y ∧ EarlierFirst z y)

instance : DecidableRel YearsSort := fun _ _ => inferInstanceAs (Decidable (_ ∨ _))

theorem YearsSort.symm {y z : Int} (h : YearsSort y z) : YearsSort z y := by
  obtain rfl | h | h := h
  · exact Or.inl rfl
  · exact Or.inr (Or.inr h)
  · exact Or.inr (Or.inl h)

theorem lt_of_year_lt (a b : DateTime) (h : a.year < b.year) : a < b := by
  by_contra hn
  have back := year_mono b a (not_lt.mp hn)
  omega

theorem toText_lt_of_sorts (a b : DateTime) (h : a < b) (sorts : YearsSort a.year b.year) :
    a.toText < b.toText := by
  have forward := year_mono a b h.le
  obtain same | ⟨hlt, first⟩ | ⟨hlt, _⟩ := sorts
  · exact toText_lt_same_year a b h same
  · exact (toText_lt_of_year_lt a b hlt).1 first
  · omega

theorem toText_injective : Function.Injective toText := by
  have differ : ∀ a b : DateTime, a < b → a.toText ≠ b.toText := by
    intro a b h he
    obtain same | hlt := eq_or_lt_of_le (year_mono a b h.le)
    · have order := toText_lt_same_year a b h same
      rw [he] at order
      exact List.lt_irrefl _ order
    · obtain ⟨first, last⟩ := toText_lt_of_year_lt a b hlt
      rw [he] at first last
      by_cases hf : EarlierFirst a.year b.year
      · exact List.lt_irrefl _ (first hf)
      · exact List.lt_irrefl _ (last hf)
  intro a b he
  obtain hlt | rfl | hgt := lt_trichotomy a b
  · exact absurd he (differ a b hlt)
  · rfl
  · exact absurd he.symm (differ b a hgt)

/-- The order of the texts is the order of the instants. -/
def TextAgrees (a b : DateTime) : Prop :=
  (a < b ↔ a.toText < b.toText) ∧ (a = b ↔ a.toText = b.toText)

theorem textAgrees_iff (a b : DateTime) : TextAgrees a b ↔ YearsSort a.year b.year := by
  constructor
  · rintro ⟨order, _⟩
    obtain hlt | heq | hgt := Int.lt_trichotomy a.year b.year
    · refine Or.inr (Or.inl ⟨hlt, ?_⟩)
      by_contra hf
      have back := (toText_lt_of_year_lt a b hlt).2 hf
      exact List.lt_asymm back (order.mp (lt_of_year_lt a b hlt))
    · exact Or.inl heq
    · refine Or.inr (Or.inr ⟨hgt, ?_⟩)
      by_contra hf
      have back := order.mpr ((toText_lt_of_year_lt b a hgt).2 hf)
      exact absurd back (lt_of_year_lt b a hgt).not_gt
  · intro sorts
    refine ⟨⟨fun h => toText_lt_of_sorts a b h sorts, fun h => ?_⟩,
      ⟨congrArg toText, fun he => toText_injective he⟩⟩
    by_contra hn
    obtain rfl | hlt := eq_or_lt_of_le (not_lt.mp hn)
    · exact List.lt_irrefl _ h
    · exact List.lt_asymm h (toText_lt_of_sorts b a hlt sorts.symm)

theorem sorts_of_lt (a b : DateTime) (h : a < b) (order : a.toText < b.toText) :
    YearsSort a.year b.year := by
  refine (textAgrees_iff a b).mp ⟨iff_of_true h order, iff_of_false h.ne fun he => ?_⟩
  rw [he] at order
  exact List.lt_irrefl _ order

/-- The comparisons that SQL makes on the stored texts give what the program's own give. -/
structure SqlAgrees (a b : DateTime) : Prop where
  lt : sqlLt a b = true ↔ a < b
  le : sqlLe a b = true ↔ a ≤ b
  min : sqlMin a b = Min.min a b
  max : sqlMax a b = Max.max a b

theorem sqlAgrees_of_sorts (a b : DateTime) (sorts : YearsSort a.year b.year) : SqlAgrees a b := by
  have lt : sqlLt a b = true ↔ a < b := by
    rw [sqlLt, decide_eq_true_iff, ((textAgrees_iff a b).mpr sorts).1]
  have gt : sqlLt b a = true ↔ b < a := by
    rw [sqlLt, decide_eq_true_iff, ((textAgrees_iff b a).mpr sorts.symm).1]
  refine ⟨lt, ?_, ?_, ?_⟩
  · rw [sqlLe, Bool.not_eq_true', ← Bool.not_eq_true, gt, not_lt]
  · rw [sqlMin, if_congr gt rfl rfl]
    split_ifs with h
    · exact (min_eq_right h.le).symm
    · exact (min_eq_left (not_lt.mp h)).symm
  · rw [sqlMax, if_congr lt rfl rfl]
    split_ifs with h
    · exact (max_eq_right h.le).symm
    · exact (max_eq_left (not_lt.mp h)).symm

end DateTime
end HostMonitoring
