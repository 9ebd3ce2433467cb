import Mathlib.Data.List.Basic

namespace HostMonitoring.Framework

/-- The bytes of a string, in UTF-8. -/
def bytes (s : String) : List UInt8 := s.toList.flatMap String.utf8EncodeChar

/-- A lowercase hexadecimal digit. -/
def hexDigit (n : Nat) : Char := if n < 10 then Char.ofNat (0x30 + n) else Char.ofNat (0x57 + n)

/-- Shifts continuation bytes into a code point. -/
def trailing : Nat → List UInt8 → Nat → Option Nat
  | 0, _, point => some point
  | n + 1, b :: bs, point =>
    if 0x80 ≤ b ∧ b < 0xc0 then trailing n bs (point * 0x40 + (b.toNat - 0x80)) else none
  | _ + 1, [], _ => none

/-- The code point of the well-formed sequence that begins a text, with how many
bytes follow its first. -/
def leading (a : UInt8) (bs : List UInt8) : Option (Nat × Nat) :=
  if a < 0x80 then some (a.toNat, 0)
  else if 0xc2 ≤ a ∧ a < 0xe0 then (trailing 1 bs (a.toNat - 0xc0)).map (·, 1)
  else if 0xe0 ≤ a ∧ a < 0xf0 then
    ((trailing 2 bs (a.toNat - 0xe0)).filter fun p => 0x800 ≤ p ∧ ¬(0xd800 ≤ p ∧ p < 0xe000)).map
      (·, 2)
  else if 0xf0 ≤ a ∧ a < 0xf5 then
    ((trailing 3 bs (a.toNat - 0xf0)).filter fun p => 0x10000 ≤ p ∧ p < 0x110000).map (·, 3)
  else none

/-- The code points of a text. A byte that begins no well-formed sequence is left to
`escape`; `skip` bytes belong to the sequence before. -/
def decodeFrom (escape : UInt8 → Option Nat) : Nat → List UInt8 → Option (List Nat)
  | _, [] => some []
  | skip + 1, _ :: bs => decodeFrom escape skip bs
  | 0, a :: bs =>
    match leading a bs with
    | some (point, more) => (decodeFrom escape more bs).map (point :: ·)
    | none => (escape a).bind fun point => (decodeFrom escape 0 bs).map (point :: ·)

def utf8 (bs : List UInt8) : Option (List Char) :=
  (decodeFrom (fun _ => none) 0 bs).map fun points => points.map Char.ofNat

example : utf8 (bytes "aß€😀") = some "aß€😀".toList := by decide +kernel
example : utf8 [0xed, 0xa0, 0x80] = none := by decide +kernel

def Ascii (bs : List UInt8) : Prop := ∀ b ∈ bs, b < 0x80

theorem leading_ascii (a : UInt8) (bs : List UInt8) (h : a < 0x80) :
    leading a bs = some (a.toNat, 0) := by
  simp [leading, h]

theorem decodeFrom_ascii (escape : UInt8 → Option Nat) (bs : List UInt8) (h : Ascii bs) :
    decodeFrom escape 0 bs = some (bs.map UInt8.toNat) := by
  induction bs with
  | nil => rfl
  | cons a bs ih =>
    have ha : a < 0x80 := h a List.mem_cons_self
    have hbs : Ascii bs := fun b hb => h b (List.mem_cons_of_mem a hb)
    simp [decodeFrom, leading_ascii a bs ha, ih hbs]

/-- Only an ASCII byte stands for an ASCII code point. -/
theorem leading_point (a : UInt8) (bs : List UInt8) (point more : Nat)
    (h : leading a bs = some (point, more)) (hp : point < 0x80) :
    a < 0x80 ∧ point = a.toNat ∧ more = 0 := by
  unfold leading at h
  split_ifs at h with h₁ h₂ h₃ h₄
  · simp only [Option.some.injEq, Prod.mk.injEq] at h
    exact ⟨h₁, h.1.symm, h.2.symm⟩
  · -- two bytes carry at least the point 0x80
    obtain ⟨p, ht, he⟩ := Option.map_eq_some_iff.mp h
    simp only [Prod.mk.injEq] at he
    have hlow : 0xc2 ≤ a.toNat := h₂.1
    cases bs with
    | nil => simp [trailing] at ht
    | cons b bs =>
      simp only [trailing, Option.ite_none_right_eq_some, Option.some.injEq] at ht
      omega
  · obtain ⟨p, ht, he⟩ := Option.map_eq_some_iff.mp h
    simp only [Prod.mk.injEq] at he
    simp only [Option.filter_eq_some_iff, decide_eq_true_eq] at ht
    omega
  · obtain ⟨p, ht, he⟩ := Option.map_eq_some_iff.mp h
    simp only [Prod.mk.injEq] at he
    simp only [Option.filter_eq_some_iff, decide_eq_true_eq] at ht
    omega

/-- A text whose code points are all ASCII is its code points. -/
theorem ascii_of_decodeFrom (escape : UInt8 → Option Nat) (bs : List UInt8) (points : List Nat)
    (high : ∀ b point, escape b = some point → 0x80 ≤ point)
    (h : decodeFrom escape 0 bs = some points) (hp : ∀ p ∈ points, p < 0x80) :
    Ascii bs ∧ points = bs.map UInt8.toNat := by
  induction bs generalizing points with
  | nil =>
    simp only [decodeFrom, Option.some.injEq] at h
    simp [Ascii, ← h]
  | cons a bs ih =>
    have key : ∃ rest, a < 0x80 ∧ decodeFrom escape 0 bs = some rest ∧ points = a.toNat :: rest := by
      simp only [decodeFrom] at h
      split at h
      · rename_i point more hl
        obtain ⟨rest, hr, rfl⟩ := Option.map_eq_some_iff.mp h
        obtain ⟨ha, rfl, rfl⟩ := leading_point a bs point more hl (hp point List.mem_cons_self)
        exact ⟨rest, ha, hr, rfl⟩
      · obtain ⟨point, he, h⟩ := Option.bind_eq_some_iff.mp h
        obtain ⟨rest, hr, rfl⟩ := Option.map_eq_some_iff.mp h
        have hlow : point < 0x80 := hp point List.mem_cons_self
        have hhigh : 0x80 ≤ point := high a point he
        omega
    obtain ⟨rest, ha, hr, rfl⟩ := key
    obtain ⟨hbs, hrest⟩ := ih rest hr fun p hm => hp p (List.mem_cons_of_mem _ hm)
    refine ⟨?_, by simp [hrest]⟩
    intro b hb
    rcases List.mem_cons.mp hb with rfl | hb
    · exact ha
    · exact hbs b hb

/-- The string an ASCII text spells. -/
def ofAscii (bs : List UInt8) : String := String.ofList (bs.map fun b => Char.ofNat b.toNat)

theorem toNat_ofNat_ascii (n : Nat) (h : n < 0x80) : (Char.ofNat n).toNat = n := by
  have hv : n.isValidChar := Or.inl (by omega)
  rw [Char.ofNat, dif_pos hv]
  rfl

theorem utf8EncodeChar_ascii (c : Char) (h : c.toNat < 0x80) :
    String.utf8EncodeChar c = [UInt8.ofNat c.toNat] := by
  have hv : c.val.toNat ≤ 0x7f := Nat.le_of_lt_succ h
  rw [String.utf8EncodeChar, if_pos hv]
  rfl

theorem bytes_ofAscii (bs : List UInt8) (h : Ascii bs) : bytes (ofAscii bs) = bs := by
  unfold bytes ofAscii
  rw [String.toList_ofList]
  induction bs with
  | nil => rfl
  | cons a bs ih =>
    have ha : a.toNat < 0x80 := h a List.mem_cons_self
    have hbs : Ascii bs := fun b hb => h b (List.mem_cons_of_mem a hb)
    have hn : (Char.ofNat a.toNat).toNat = a.toNat := toNat_ofNat_ascii _ ha
    have hc : String.utf8EncodeChar (Char.ofNat a.toNat) = [a] := by
      rw [utf8EncodeChar_ascii _ (by omega), hn, UInt8.ofNat_toNat]
    rw [List.map_cons, List.flatMap_cons, hc, ih hbs]
    rfl

/-- ASCII characters are their bytes. -/
theorem bytes_ofList (cs : List Char) (h : ∀ c ∈ cs, c.toNat < 0x80) :
    bytes (String.ofList cs) = cs.map fun c => UInt8.ofNat c.toNat := by
  unfold bytes
  rw [String.toList_ofList]
  induction cs with
  | nil => rfl
  | cons c cs ih =>
    have hc := utf8EncodeChar_ascii c (h c List.mem_cons_self)
    have hcs := ih fun d hd => h d (List.mem_cons_of_mem c hd)
    rw [List.flatMap_cons, hc, hcs]
    rfl

theorem utf8_bytes (cs : List Char) (h : ∀ c ∈ cs, c.toNat < 0x80) :
    utf8 (bytes (String.ofList cs)) = some cs := by
  have back : ∀ c ∈ cs, (UInt8.ofNat c.toNat).toNat = c.toNat := by
    intro c hc
    have hs := h c hc
    simp
    omega
  have ascii : Ascii (bytes (String.ofList cs)) := by
    rw [bytes_ofList cs h]
    intro b hb
    obtain ⟨c, hc, rfl⟩ := List.mem_map.mp hb
    rw [UInt8.lt_iff_toNat_lt, back c hc]
    exact h c hc
  rw [utf8, decodeFrom_ascii _ _ ascii, bytes_ofList cs h, Option.map_some, List.map_map,
    List.map_map]
  have same : cs.map ((Char.ofNat ∘ UInt8.toNat) ∘ fun c => UInt8.ofNat c.toNat) = cs.map id := by
    apply List.map_congr_left
    intro c hc
    change Char.ofNat (UInt8.ofNat c.toNat).toNat = c
    rw [back c hc, Char.ofNat_toNat]
  rw [same, List.map_id]

theorem bytes_injective : Function.Injective bytes := by
  intro s t h
  have encoded : ∀ u : String, u.toByteArray = (bytes u).toByteArray := fun u =>
    String.utf8Encode_toList.symm
  rw [← String.toByteArray_inj, encoded s, encoded t, h]

/-- A string of ASCII bytes has them as its characters. -/
theorem toList_of_ascii (s : String) (h : Ascii (bytes s)) :
    s.toList = (bytes s).map fun b => Char.ofNat b.toNat := by
  have same : ofAscii (bytes s) = s := bytes_injective (bytes_ofAscii (bytes s) h)
  calc s.toList = (ofAscii (bytes s)).toList := by rw [same]
    _ = _ := String.toList_ofList

end HostMonitoring.Framework
