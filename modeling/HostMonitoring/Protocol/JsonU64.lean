import HostMonitoring.Framework.Decimal
import HostMonitoring.Framework.Json
import HostMonitoring.Framework.Utf8
import Mathlib.Algebra.Ring.Nat
import Mathlib.Data.Rat.Defs

namespace HostMonitoring.Protocol.JsonU64

open HostMonitoring.Framework

/-- A number as it arrives at a visitor. -/
inductive Number where
  | u64 (n : UInt64)
  | i64 (n : Int64)
  | f64 (x : ℚ)

abbrev Value := Json Number

inductive Error where
  | custom (message : String)
  /-- What was met is left out of the message. -/
  | invalidType (expecting : String)
deriving DecidableEq

/-- Largest integer that every JavaScript `number` can represent exactly. -/
def MAX_SAFE_INTEGER : UInt64 := 9007199254740991

def serialize (value : UInt64) : Value :=
  if value ≤ MAX_SAFE_INTEGER then .num (.u64 value) else .str value.toNat.repr

section Parse

def asciiDigit (b : UInt8) : Bool := 0x30 ≤ b && b ≤ 0x39

def checkedMul (a b : UInt64) : Option UInt64 :=
  if a.toNat * b.toNat < UInt64.size then some (a * b) else none

def checkedAdd (a b : UInt64) : Option UInt64 :=
  if a.toNat + b.toNat < UInt64.size then some (a + b) else none

def toDigit (b : UInt8) : Option UInt64 := if asciiDigit b then some (b - 0x30).toUInt64 else none

def readDigit (result : UInt64) (b : UInt8) : Option UInt64 := do
  let shifted ← checkedMul result 10
  let digit ← toDigit b
  checkedAdd shifted digit

/-- `str::parse::<u64>`: a plus sign is allowed, a lone sign is no number. -/
def parse : List UInt8 → Option UInt64
  | [] => none
  | [b] => if b = 0x2b ∨ b = 0x2d then none else readDigit 0 b
  | b :: rest => if b = 0x2b then rest.foldlM readDigit 0 else (b :: rest).foldlM readDigit 0

def parseDecimal (value : String) : Except String UInt64 :=
  let src := bytes value
  if src = [] ∨ src.all asciiDigit = false ∨ (1 < src.length ∧ src.head? = some 0x30) then
    .error "expected a canonical decimal u64 string"
  else (parse src).elim (.error "decimal string exceeds u64") .ok

end Parse

section Visitor

def expecting : String := "a non-negative JSON integer or canonical decimal u64 string"

def visitU64 (value : UInt64) : Except Error UInt64 :=
  if value ≤ MAX_SAFE_INTEGER then .ok value
  else .error (.custom
    "integers above JavaScript's exact range must use canonical decimal strings")

def visitI64 (value : Int64) : Except Error UInt64 :=
  if 0 ≤ value then visitU64 value.toUInt64
  else .error (.custom "u64 value cannot be negative")

def visitStr (value : String) : Except Error UInt64 := (parseDecimal value).mapError .custom

def deserialize : Value → Except Error UInt64
  | .num (.u64 n) => visitU64 n
  | .num (.i64 n) => visitI64 n
  | .str s => visitStr s
  | _ => .error (.invalidType expecting)

end Visitor

namespace option

def serialize (value : Option UInt64) : Value := value.elim .null JsonU64.serialize

/-- `null` is visited as none, anything else as some. -/
def deserialize : Value → Except Error (Option UInt64)
  | .null => .ok none
  | j => (JsonU64.deserialize j).map some

end option

/-- What stands for a number: an integer up to the limit of exact JavaScript numbers, or the
canonical digits of any `u64`. -/
inductive Accepted : Value → UInt64 → Prop
  | unsigned (n : UInt64) (small : n.toNat ≤ 2 ^ 53 - 1) : Accepted (.num (.u64 n)) n
  | signed (i : Int64) (n : UInt64) (same : i.toInt = n.toNat) (small : n.toNat ≤ 2 ^ 53 - 1) :
    Accepted (.num (.i64 i)) n
  | text (s : String) (n : UInt64) (canonical : Decimal.Canonical s.toList)
    (value : Decimal.value s.toList = n.toNat) : Accepted (.str s) n

/-- The decimal number of some bytes, read on from `acc`. -/
def number (src : List UInt8) (acc : Nat) : Nat :=
  src.foldl (fun n b => 10 * n + (b.toNat - 48)) acc

theorem le_number (src : List UInt8) (acc : Nat) : acc ≤ number src acc := by
  induction src generalizing acc with
  | nil => exact le_refl acc
  | cons b src ih =>
    have step : acc ≤ 10 * acc + (b.toNat - 48) := by omega
    exact step.trans (ih _)

theorem asciiDigit_iff (b : UInt8) : asciiDigit b = true ↔ 48 ≤ b.toNat ∧ b.toNat ≤ 57 := by
  simp only [asciiDigit, Bool.and_eq_true, decide_eq_true_eq, UInt8.le_iff_toNat_le]
  rfl

theorem readDigit_eq (acc : UInt64) (b : UInt8) (h : asciiDigit b = true) :
    readDigit acc b = if 10 * acc.toNat + (b.toNat - 48) < UInt64.size then
      some (UInt64.ofNat (10 * acc.toNat + (b.toNat - 48))) else none := by
  have digit : (b - 0x30).toUInt64.toNat = b.toNat - 48 := by
    have low : (0x30 : UInt8) ≤ b := UInt8.le_iff_toNat_le.mpr ((asciiDigit_iff b).mp h).1
    rw [UInt8.toNat_toUInt64, UInt8.toNat_sub_of_le _ _ low]
    rfl
  have ten : (10 : UInt64).toNat = 10 := rfl
  unfold readDigit checkedMul toDigit checkedAdd
  rw [ten, if_pos h]
  by_cases room : acc.toNat * 10 < UInt64.size
  · have shifted : (acc * 10).toNat = acc.toNat * 10 := by
      rw [UInt64.toNat_mul, ten, Nat.mod_eq_of_lt room]
    rw [if_pos room]
    change (if (acc * 10).toNat + (b - 0x30).toUInt64.toNat < UInt64.size then
      some (acc * 10 + (b - 0x30).toUInt64) else none) = _
    rw [shifted, digit, Nat.mul_comm]
    split_ifs with fits
    · have sum : (UInt64.ofNat (10 * acc.toNat + (b.toNat - 48))).toNat =
          10 * acc.toNat + (b.toNat - 48) := UInt64.toNat_ofNat_of_lt fits
      congr 1
      apply UInt64.toNat_inj.mp
      rw [UInt64.toNat_add, shifted, digit, sum, Nat.mul_comm]
      exact Nat.mod_eq_of_lt fits
    · rfl
  · have beyond : ¬10 * acc.toNat + (b.toNat - 48) < UInt64.size := by omega
    rw [if_neg room, if_neg beyond]
    rfl

/-- Checked reading gives the number, unless it does not fit. -/
theorem foldlM_readDigit (src : List UInt8) (acc v : UInt64) (h : src.all asciiDigit = true) :
    src.foldlM readDigit acc = some v ↔ number src acc.toNat = v.toNat := by
  induction src generalizing acc with
  | nil =>
    rw [List.foldlM_nil]
    change some acc = some v ↔ acc.toNat = v.toNat
    rw [Option.some.injEq, UInt64.toNat_inj]
  | cons b src ih =>
    rw [List.all_cons, Bool.and_eq_true] at h
    rw [List.foldlM_cons, readDigit_eq acc b h.1]
    change _ ↔ number src (10 * acc.toNat + (b.toNat - 48)) = v.toNat
    split_ifs with fits
    · have same : (UInt64.ofNat (10 * acc.toNat + (b.toNat - 48))).toNat =
          10 * acc.toNat + (b.toNat - 48) := UInt64.toNat_ofNat_of_lt fits
      have rest := ih (UInt64.ofNat (10 * acc.toNat + (b.toNat - 48))) h.2
      rwa [same] at rest
    · have below := v.toNat_lt_size
      have least := le_number src (10 * acc.toNat + (b.toNat - 48))
      constructor
      · intro none
        cases none
      · intro same
        omega

theorem parse_digits (src : List UInt8) (ne : src ≠ []) (h : src.all asciiDigit = true) :
    parse src = src.foldlM readDigit 0 := by
  cases src with
  | nil => exact absurd rfl ne
  | cons b rest =>
    rw [List.all_cons, Bool.and_eq_true] at h
    have notPlus : b ≠ 0x2b := by
      rintro rfl
      exact absurd h.1 (by decide)
    have notMinus : b ≠ 0x2d := by
      rintro rfl
      exact absurd h.1 (by decide)
    cases rest with
    | nil =>
      rw [parse, if_neg (not_or.mpr ⟨notPlus, notMinus⟩), List.foldlM_cons]
      simp
    | cons b' rest => rw [parse, if_neg notPlus]; exact List.cons_ne_nil _ _

section Text

variable (s : String) (h : (bytes s).all asciiDigit = true)
include h

theorem char_digits (b : UInt8) (hb : b ∈ bytes s) : (Char.ofNat b.toNat).toNat = b.toNat := by
  have digit := (asciiDigit_iff b).mp (List.all_eq_true.mp h b hb)
  exact toNat_ofNat_ascii b.toNat (by omega)

theorem toList_digits : s.toList = (bytes s).map fun b => Char.ofNat b.toNat := by
  apply toList_of_ascii
  intro b hb
  have digit := (asciiDigit_iff b).mp (List.all_eq_true.mp h b hb)
  rw [UInt8.lt_iff_toNat_lt]
  change b.toNat < 128
  omega

theorem value_digits : Decimal.value s.toList = number (bytes s) 0 := by
  rw [toList_digits s h, Decimal.value, Nat.ofDigitChars_eq_foldl, List.foldl_map, number]
  apply List.foldl_ext
  intro n b hb
  rw [char_digits s h b hb]
  rfl

theorem canonical_digits : Decimal.Canonical s.toList ↔
    bytes s ≠ [] ∧ ¬(1 < (bytes s).length ∧ (bytes s).head? = some 0x30) := by
  have digits : ∀ c ∈ s.toList, c.isDigit := by
    rw [toList_digits s h]
    intro c hc
    obtain ⟨b, hb, rfl⟩ := List.mem_map.mp hc
    have digit := (asciiDigit_iff b).mp (List.all_eq_true.mp h b hb)
    rw [Char.isDigit_iff_toNat, char_digits s h b hb]
    exact digit
  have first : s.toList.head? = some '0' ↔ (bytes s).head? = some 0x30 := by
    rw [toList_digits s h, List.head?_map, Option.map_eq_some_iff]
    constructor
    · rintro ⟨b, hb, same⟩
      have zero : b.toNat = (0x30 : UInt8).toNat := by
        rw [← char_digits s h b (List.mem_of_head? hb), same]
        rfl
      rw [hb, UInt8.toNat_inj.mp zero]
    · intro hb
      exact ⟨_, hb, by decide⟩
  have length : s.toList.length = (bytes s).length := by
    rw [toList_digits s h, List.length_map]
  have empty : s.toList = [] ↔ bytes s = [] := by
    rw [← List.length_eq_zero_iff, length, List.length_eq_zero_iff]
  unfold Decimal.Canonical
  rw [length, ne_eq, ne_eq, empty, first, not_and]
  exact and_congr_right fun _ => and_iff_right digits

end Text

theorem digits_of_canonical (s : String) (h : Decimal.Canonical s.toList) :
    (bytes s).all asciiDigit = true := by
  have range : ∀ c ∈ s.toList, 48 ≤ c.toNat ∧ c.toNat ≤ 57 := fun c hc =>
    Char.isDigit_iff_toNat.mp (h.2.1 c hc)
  have text : bytes s = s.toList.map fun c => UInt8.ofNat c.toNat := by
    have ascii := bytes_ofList s.toList fun c hc => by
      have high := (range c hc).2
      omega
    rwa [String.ofList_toList] at ascii
  rw [text, List.all_eq_true]
  intro b hb
  obtain ⟨c, hc, rfl⟩ := List.mem_map.mp hb
  have bounds := range c hc
  have same : (UInt8.ofNat c.toNat).toNat = c.toNat := UInt8.toNat_ofNat_of_lt (by
    change c.toNat < 256
    omega)
  rw [asciiDigit_iff, same]
  exact bounds

/-- The parser of strings accepts the canonical digits of the numbers that fit. -/
theorem parseDecimal_ok (s : String) (v : UInt64) :
    parseDecimal s = .ok v ↔ Decimal.Canonical s.toList ∧ Decimal.value s.toList = v.toNat := by
  by_cases h : (bytes s).all asciiDigit = true
  · rw [canonical_digits s h, value_digits s h, parseDecimal]
    by_cases bad : bytes s = [] ∨ (bytes s).all asciiDigit = false ∨
        (1 < (bytes s).length ∧ (bytes s).head? = some 0x30)
    · simp only [if_pos bad, reduceCtorEq, false_iff]
      rw [h] at bad
      tauto
    · obtain ⟨ne, _, head⟩ := not_or.mp bad |>.imp_right not_or.mp
      have read := foldlM_readDigit (bytes s) 0 v h
      rw [UInt64.toNat_zero] at read
      rw [if_neg bad, parse_digits _ ne h, ← read, and_iff_right ⟨ne, head⟩]
      cases (bytes s).foldlM readDigit 0 with
      | none => simp
      | some n => simp
  · have refused : parseDecimal s = .error "expected a canonical decimal u64 string" :=
      if_pos (Or.inr (Or.inl (Bool.eq_false_iff.mpr h)))
    rw [refused]
    constructor
    · intro ok
      cases ok
    · intro ⟨canonical, _⟩
      exact absurd (digits_of_canonical s canonical) h

/-- A number is read back from its printed digits, and from nothing else. -/
theorem parseDecimal_iff (s : String) (v : UInt64) : parseDecimal s = .ok v ↔ s = v.toNat.repr := by
  rw [parseDecimal_ok, Decimal.canonical_iff, ← Nat.toList_repr, String.toList_inj]

theorem limit : MAX_SAFE_INTEGER.toNat = 2 ^ 53 - 1 := by decide

theorem visitU64_ok (n v : UInt64) : visitU64 n = .ok v ↔ n = v ∧ v.toNat ≤ 2 ^ 53 - 1 := by
  rw [visitU64, ← limit, ← UInt64.le_iff_toNat_le]
  split_ifs with small
  · rw [Except.ok.injEq]
    exact ⟨fun h => ⟨h, h ▸ small⟩, And.left⟩
  · simp only [false_iff, not_and]
    rintro rfl
    exact small

theorem visitI64_ok (i : Int64) (v : UInt64) :
    visitI64 i = .ok v ↔ i.toInt = v.toNat ∧ v.toNat ≤ 2 ^ 53 - 1 := by
  have sign : 0 ≤ i ↔ 0 ≤ i.toInt := by
    rw [Int64.le_iff_toInt_le]
    rfl
  unfold visitI64
  split_ifs with nonneg
  · have value : i.toUInt64.toNat = i.toInt.toNat := Int64.toNat_toUInt64_of_le nonneg
    have low := sign.mp nonneg
    have same : i.toUInt64 = v ↔ i.toInt = v.toNat := by
      rw [← UInt64.toNat_inj, value]
      omega
    rw [visitU64_ok, same]
  · rw [sign] at nonneg
    constructor
    · intro ok
      cases ok
    · rintro ⟨same, _⟩
      omega

theorem visitStr_ok (s : String) (v : UInt64) :
    visitStr s = .ok v ↔ Decimal.Canonical s.toList ∧ Decimal.value s.toList = v.toNat := by
  rw [← parseDecimal_ok, visitStr]
  cases parseDecimal s with
  | error e => simp [Except.mapError]
  | ok n => simp [Except.mapError]

/-- What a field of type `u64` reads. -/
theorem deserialize_ok (j : Value) (v : UInt64) : deserialize j = .ok v ↔ Accepted j v := by
  constructor
  · intro ok
    match j, ok with
    | .num (.u64 n), ok =>
      obtain ⟨rfl, small⟩ := (visitU64_ok n v).mp ok
      exact .unsigned n small
    | .num (.i64 i), ok =>
      obtain ⟨same, small⟩ := (visitI64_ok i v).mp ok
      exact .signed i v same small
    | .str s, ok =>
      obtain ⟨canonical, value⟩ := (visitStr_ok s v).mp ok
      exact .text s v canonical value
  · intro accepted
    cases accepted with
    | unsigned _ small => exact (visitU64_ok v v).mpr ⟨rfl, small⟩
    | signed i _ same small => exact (visitI64_ok i v).mpr ⟨same, small⟩
    | text s _ canonical value => exact (visitStr_ok s v).mpr ⟨canonical, value⟩

theorem option.deserialize_ok (j : Value) (o : Option UInt64) :
    option.deserialize j = .ok o ↔ (j = .null ∧ o = none) ∨ ∃ v, o = some v ∧ Accepted j v := by
  have others (h : j ≠ .null) : option.deserialize j = (JsonU64.deserialize j).map some := by
    cases j with
    | null => exact absurd rfl h
    | _ => rfl
  by_cases h : j = .null
  · subst h
    have never (v : UInt64) : ¬Accepted .null v := fun accepted => by cases accepted
    simp [option.deserialize, never, eq_comm]
  · rw [others h]
    simp only [h, false_and, false_or, ← JsonU64.deserialize_ok]
    cases JsonU64.deserialize j with
    | error e => simp [Except.map]
    | ok n => simp [Except.map, eq_comm]

theorem accepted_serialize (v : UInt64) : Accepted (serialize v) v := by
  unfold serialize
  split_ifs with small
  · rw [UInt64.le_iff_toNat_le, limit] at small
    exact .unsigned v small
  · have printed := (Decimal.canonical_iff _ v.toNat).mpr (Nat.toList_repr (n := v.toNat))
    exact .text _ v printed.1 printed.2

theorem serialize_num (v : UInt64) (n : Number) (h : serialize v = .num n) :
    n = .u64 v ∧ v.toNat ≤ 2 ^ 53 - 1 := by
  unfold serialize at h
  split_ifs at h with small
  rw [UInt64.le_iff_toNat_le, limit] at small
  cases h
  exact ⟨rfl, small⟩

/-- Every number is read back as it was written, as an integer only where JavaScript is exact,
and nothing else is read as a number. -/
theorem json_u64_codec :
    (∀ v, deserialize (serialize v) = .ok v) ∧
    (∀ o, option.deserialize (option.serialize o) = .ok o) ∧
    option.serialize none = .null ∧
    (∀ v n, serialize v = .num n → n = .u64 v ∧ v.toNat ≤ 2 ^ 53 - 1) ∧
    (∀ j v, deserialize j = .ok v ↔ Accepted j v) ∧
    (∀ j o, option.deserialize j = .ok o ↔
      (j = .null ∧ o = none) ∨ ∃ v, o = some v ∧ Accepted j v) ∧
    ∀ s v, parseDecimal s = .ok v ↔ s = v.toNat.repr := by
  refine ⟨?_, ?_, rfl, serialize_num, deserialize_ok, option.deserialize_ok, parseDecimal_iff⟩
  · exact fun v => (deserialize_ok _ v).mpr (accepted_serialize v)
  · intro o
    rw [option.deserialize_ok]
    cases o with
    | none => exact Or.inl ⟨rfl, rfl⟩
    | some v => exact Or.inr ⟨v, rfl, accepted_serialize v⟩

end HostMonitoring.Protocol.JsonU64
