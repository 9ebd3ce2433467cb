import Mathlib.Algebra.Ring.Nat
import Mathlib.Data.List.Basic
import Mathlib.Order.Basic
import Mathlib.Order.Lattice

namespace HostMonitoring

structure Uuid where
  bits : BitVec 128

namespace Uuid

theorem toNat_injective : Function.Injective (fun u : Uuid => u.bits.toNat) := by
  intro u v h
  cases u
  cases v
  congr
  exact BitVec.eq_of_toNat_eq h

/-- Byte order of the big-endian text and blob forms, which is numeric order. -/
instance : LinearOrder Uuid := LinearOrder.lift' (fun u => u.bits.toNat) toNat_injective

def hexDigit (n : Nat) : Char :=
  if n < 10 then Char.ofNat (48 + n) else Char.ofNat (87 + n)

def hexValue (c : Char) : Option Nat :=
  if '0' ≤ c ∧ c ≤ '9' then some (c.toNat - 48)
  else if 'a' ≤ c ∧ c ≤ 'f' then some (c.toNat - 87)
  else if 'A' ≤ c ∧ c ≤ 'F' then some (c.toNat - 55)
  else none

def hexDigits (u : Uuid) : List Char :=
  (List.range 32).map fun i => hexDigit (u.bits.toNat / 16 ^ (31 - i) % 16)

/-- The lowercase hyphenated text. -/
def toText (u : Uuid) : String :=
  let d := u.hexDigits
  String.ofList (d.take 8 ++ '-' :: (d.drop 8).take 4 ++ '-' :: (d.drop 12).take 4 ++
    '-' :: (d.drop 16).take 4 ++ '-' :: d.drop 20)

def parseSimple (cs : List Char) : Option Uuid :=
  (cs.foldlM (fun n c => (hexValue c).map (16 * n + ·)) 0).map fun n => ⟨BitVec.ofNat 128 n⟩

def parseHyphenated (cs : List Char) : Option Uuid :=
  if cs[8]? = some '-' ∧ cs[13]? = some '-' ∧ cs[18]? = some '-' ∧ cs[23]? = some '-' then
    parseSimple (cs.take 8 ++ (cs.drop 9).take 4 ++ (cs.drop 14).take 4 ++
      (cs.drop 19).take 4 ++ cs.drop 24)
  else none

/-- The simple, hyphenated, braced and URN spellings are told apart by length. -/
def parseStr (s : String) : Option Uuid :=
  let cs := s.toList
  if cs.length = 32 then parseSimple cs
  else if cs.length = 36 then parseHyphenated cs
  else if cs.length = 38 ∧ cs.head? = some '{' ∧ cs.getLast? = some '}' then
    parseHyphenated (cs.tail.dropLast)
  else if cs.length = 45 ∧ cs.take 9 = "urn:uuid:".toList then parseHyphenated (cs.drop 9)
  else none

example : parseStr "018f1f4b-7a5d-7b5f-8d31-123456789abc" =
    some ⟨0x018f1f4b7a5d7b5f8d31123456789abc⟩ := by decide +kernel

theorem hexValue_hexDigit (n : Nat) (h : n < 16) : hexValue (hexDigit n) = some n := by
  have finite : ∀ n < 16, hexValue (hexDigit n) = some n := by decide
  exact finite n h

@[simp] theorem length_hexDigits (u : Uuid) : u.hexDigits.length = 32 := by
  simp [hexDigits]

/-- The first digits spell the number's leading part. -/
theorem foldlM_hexDigits (n : Nat) (h : n < 16 ^ 32) (k : Nat) (hk : k ≤ 32) :
    ((List.range k).map fun i => hexDigit (n / 16 ^ (31 - i) % 16)).foldlM
      (fun n c => (hexValue c).map (16 * n + ·)) 0 = some (n / 16 ^ (32 - k)) := by
  induction k with
  | zero =>
    change some 0 = some (n / 16 ^ 32)
    rw [Nat.div_eq_of_lt h]
  | succ k ih =>
    have digit := hexValue_hexDigit (n / 16 ^ (31 - k) % 16) (Nat.mod_lt _ (by decide))
    have shift : n / 16 ^ (32 - k) = n / 16 ^ (31 - k) / 16 := by
      rw [Nat.div_div_eq_div_mul, ← Nat.pow_succ, Nat.succ_eq_add_one,
        show 31 - k + 1 = 32 - k by omega]
    rw [List.range_succ, List.map_append, List.foldlM_append, ih (by omega), shift]
    simp only [List.map_cons, List.map_nil, List.foldlM_cons, List.foldlM_nil, Option.bind_eq_bind,
      Option.bind_some, digit, Option.map_some, Option.pure_def, Option.bind_some, Option.some.injEq]
    rw [Nat.div_add_mod, show 32 - (k + 1) = 31 - k by omega]

theorem parseSimple_hexDigits (u : Uuid) : parseSimple u.hexDigits = some u := by
  have bound : u.bits.toNat < 16 ^ 32 := u.bits.isLt
  have spelled := foldlM_hexDigits u.bits.toNat bound 32 (le_refl 32)
  unfold parseSimple hexDigits
  rw [spelled]
  simp

theorem parseHyphenated_join (a b c d e : List Char) (ha : a.length = 8) (hb : b.length = 4)
    (hc : c.length = 4) (hd : d.length = 4) :
    parseHyphenated (a ++ '-' :: b ++ '-' :: c ++ '-' :: d ++ '-' :: e) =
      parseSimple (a ++ b ++ c ++ d ++ e) := by
  unfold parseHyphenated
  rw [if_pos (by simp [ha, hb, hc, hd, List.getElem?_append])]
  simp (disch := omega) [ha, hb, hc, hd, List.drop_append, List.drop_eq_nil_of_le]

/-- The text of an identifier is read back as it. -/
theorem parseStr_toText (u : Uuid) : parseStr u.toText = some u := by
  have join := parseHyphenated_join (u.hexDigits.take 8) ((u.hexDigits.drop 8).take 4)
    ((u.hexDigits.drop 12).take 4) ((u.hexDigits.drop 16).take 4) (u.hexDigits.drop 20)
    (by simp) (by simp) (by simp) (by simp)
  have group (n : Nat) : (u.hexDigits.drop n).take 4 ++ u.hexDigits.drop (n + 4) =
      u.hexDigits.drop n := by
    rw [← List.drop_drop]
    exact List.take_append_drop 4 _
  simp only [List.append_assoc, group 16, group 12, group 8, List.take_append_drop,
    parseSimple_hexDigits] at join
  simp only [List.cons_append] at join
  unfold parseStr toText
  simp [join]

theorem toText_injective : Function.Injective toText := by
  intro u v h
  have back := congrArg parseStr h
  rw [parseStr_toText, parseStr_toText] at back
  exact Option.some.inj back

theorem hexDigits_injective : Function.Injective hexDigits := by
  intro u v h
  have back := congrArg parseSimple h
  rw [parseSimple_hexDigits, parseSimple_hexDigits] at back
  exact Option.some.inj back

end Uuid
end HostMonitoring
