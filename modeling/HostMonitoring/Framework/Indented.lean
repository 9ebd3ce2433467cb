import Mathlib.Order.Basic

/-!
Blocks of a text by indentation. `depth i` is the indentation of the line `i`, and 0
behind the last line.
-/

namespace HostMonitoring.Framework.Indented

variable (depth : Nat → Nat)

/-- Line `i` is `s` itself or belongs to its block: no line from `s` to `i` is indented no
deeper than `s`. -/
structure Covers (s i : Nat) : Prop where
  le : s ≤ i
  deeper : ∀ j, s < j → j ≤ i → depth s < depth j

/-- Line `p` is the nearest one before `c` that is indented less. -/
structure IsChild (p c : Nat) : Prop where
  before : p < c
  less : depth p < depth c
  nearest : ∀ j, p < j → j < c → depth c ≤ depth j

/-- The last opening line whose block has line `i`. -/
structure Innermost (opens : Nat → Prop) (s i : Nat) : Prop where
  opening : opens s
  covers : Covers depth s i
  last : ∀ t, opens t → Covers depth t i → t ≤ s

variable {depth}

theorem Covers.earlier {s i j : Nat} (h : Covers depth s i) (first : s ≤ j) (last : j ≤ i) :
    Covers depth s j where
  le := first
  deeper m after before := h.deeper m after (by omega)

theorem Covers.le_depth {s i : Nat} (h : Covers depth s i) : depth s ≤ depth i := by
  obtain rfl | before := Nat.eq_or_lt_of_le h.le
  · exact Nat.le_refl _
  · exact Nat.le_of_lt (h.deeper i before (Nat.le_refl i))

theorem Innermost.unique {opens : Nat → Prop} {s t i : Nat} (hs : Innermost depth opens s i)
    (ht : Innermost depth opens t i) : s = t :=
  Nat.le_antisymm (ht.last s hs.opening hs.covers) (hs.last t ht.opening ht.covers)

theorem IsChild.unique {p q c : Nat} (hp : IsChild depth p c) (hq : IsChild depth q c) :
    p = q := by
  obtain before | same | after := Nat.lt_trichotomy p q
  · have closer := hp.nearest q before hq.before
    have less := hq.less
    omega
  · exact same
  · have closer := hq.nearest p after hp.before
    have less := hp.less
    omega

end HostMonitoring.Framework.Indented
