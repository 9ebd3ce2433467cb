import Mathlib.Data.List.Pairwise
import Mathlib.Data.List.Sort

namespace HostMonitoring.Framework

/-- Two orders that agree on the members of a list, and tell them apart, sort it alike. -/
theorem mergeSort_agrees {α : Type} (le le' : α → α → Bool) (xs : List α)
    (trans : ∀ a b c, le a b = true → le b c = true → le a c = true)
    (total : ∀ a b, (le a b || le b a) = true)
    (trans' : ∀ a b c, le' a b = true → le' b c = true → le' a c = true)
    (total' : ∀ a b, (le' a b || le' b a) = true)
    (antisymm : ∀ a ∈ xs, ∀ b ∈ xs, le a b = true → le b a = true → a = b)
    (agree : ∀ a ∈ xs, ∀ b ∈ xs, le a b = le' a b) : xs.mergeSort le = xs.mergeSort le' := by
  have sorted : (xs.mergeSort le').Pairwise fun a b => le a b = true := by
    refine (List.pairwise_mergeSort trans' total' xs).imp_of_mem fun ha hb h => ?_
    rw [agree _ (List.mem_mergeSort.mp ha) _ (List.mem_mergeSort.mp hb)]
    exact h
  refine List.Perm.eq_of_pairwise (fun a b ha hb => ?_) (List.pairwise_mergeSort trans total xs)
    sorted ((List.mergeSort_perm xs le).trans (List.mergeSort_perm xs le').symm)
  exact antisymm a (List.mem_mergeSort.mp ha) b (List.mem_mergeSort.mp hb)

/-- Two rows clash when some primary key or unique index admits only one of them. -/
class Keyed (α : Type) where
  Clash : α → α → Prop
  symm : ∀ r r', Clash r r' → Clash r' r
  decidable : DecidableRel Clash

instance {α : Type} [Keyed α] : DecidableRel (Keyed.Clash (α := α)) := Keyed.decidable

/-- Rows in insertion order, no two of which clash. -/
structure Table (α : Type) [Keyed α] where
  rows : List α
  distinct : rows.Pairwise fun r r' => ¬Keyed.Clash r r'

namespace Table

open Keyed (Clash)

variable {α : Type} [Keyed α]

instance : Membership α (Table α) := ⟨fun t r => r ∈ t.rows⟩

theorem mem_def (t : Table α) (r : α) : r ∈ t ↔ r ∈ t.rows := Iff.rfl

def empty : Table α := ⟨[], List.Pairwise.nil⟩

@[simp] theorem not_mem_empty (r : α) : r ∉ (empty : Table α) := List.not_mem_nil

theorem eq_of_clash (t : Table α) (r r' : α) (hr : r ∈ t) (hr' : r' ∈ t) (h : Clash r r') :
    r = r' := by
  by_contra hne
  have symm : Std.Symm fun r r' : α => ¬Clash r r' := ⟨fun a b hab hba => hab (Keyed.symm b a hba)⟩
  exact t.distinct.forall hr hr' hne h

/-- The row a unique key selects. -/
def find? (t : Table α) (p : α → Bool) : Option α := t.rows.find? p

theorem mem_of_find? (t : Table α) (p : α → Bool) (r : α) (h : t.find? p = some r) :
    r ∈ t ∧ p r = true := ⟨List.mem_of_find?_eq_some h, List.find?_some h⟩

theorem find?_eq_none (t : Table α) (p : α → Bool) :
    t.find? p = none ↔ ∀ r ∈ t, p r = false := by
  simp [find?, List.find?_eq_none, mem_def]

/-- A lookup by a unique key finds the row there is. -/
theorem find?_eq_some (t : Table α) (p : α → Bool) (r : α) (hr : r ∈ t) (hp : p r = true)
    (unique : ∀ r' ∈ t, p r' = true → r' = r) : t.find? p = some r := by
  cases h : t.find? p with
  | none => rw [(t.find?_eq_none p).mp h r hr] at hp; cases hp
  | some r' =>
    obtain ⟨hm, hp'⟩ := t.mem_of_find? p r' h
    rw [unique r' hm hp']

def any (t : Table α) (p : α → Bool) : Bool := t.rows.any p

theorem any_eq_true (t : Table α) (p : α → Bool) : t.any p = true ↔ ∃ r ∈ t, p r = true :=
  List.any_eq_true

theorem any_eq_false (t : Table α) (p : α → Bool) : t.any p = false ↔ ∀ r ∈ t, p r = false := by
  simp [any, mem_def]

def count (t : Table α) (p : α → Bool) : Nat := t.rows.countP p

/-- The first `limit` rows that match, in an order. -/
def select (t : Table α) (p : α → Bool) (le : α → α → Bool) (limit : Nat) : List α :=
  ((t.rows.filter p).mergeSort le).take limit

theorem mem_of_mem_select (t : Table α) (p : α → Bool) (le : α → α → Bool) (limit : Nat) (r : α)
    (h : r ∈ t.select p le limit) : r ∈ t ∧ p r = true := by
  have hm := List.mem_mergeSort.mp (List.mem_of_mem_take h)
  exact ⟨(List.mem_filter.mp hm).1, (List.mem_filter.mp hm).2⟩

/-- The selected rows are distinct rows of the table. -/
theorem select_distinct (t : Table α) (p : α → Bool) (le : α → α → Bool) (limit : Nat) :
    (t.select p le limit).Pairwise fun r r' => ¬Clash r r' := by
  have symm : Std.Symm fun r r' : α => ¬Clash r r' := ⟨fun a b hab hba => hab (Keyed.symm b a hba)⟩
  have sorted : ((t.rows.filter p).mergeSort le).Pairwise fun r r' => ¬Clash r r' :=
    ((List.mergeSort_perm _ le).pairwise_iff fun {_ _} => symm.symm _ _).mpr
      (t.distinct.sublist List.filter_sublist)
  exact sorted.sublist (List.take_sublist _ _)

/-- An insertion that violates a key fails. -/
def insert? (t : Table α) (r : α) : Option (Table α) :=
  if h : ∀ r' ∈ t.rows, ¬Clash r' r then
    some ⟨t.rows ++ [r], List.pairwise_append.mpr
      ⟨t.distinct, List.pairwise_singleton _ _, by simpa using h⟩⟩
  else none

theorem insert?_eq_some (t t' : Table α) (r : α) :
    t.insert? r = some t' ↔ (∀ r' ∈ t, ¬Clash r' r) ∧ t'.rows = t.rows ++ [r] := by
  unfold insert?
  split_ifs with h
  · constructor
    · intro he
      exact ⟨h, by rw [← Option.some.inj he]⟩
    · rintro ⟨_, he⟩
      cases t'
      simp only at he
      subst he
      rfl
  · constructor
    · intro he
      cases he
    · rintro ⟨hn, _⟩
      exact absurd hn h

theorem insert?_eq_none (t : Table α) (r : α) :
    t.insert? r = none ↔ ∃ r' ∈ t, Clash r' r := by
  unfold insert?
  split_ifs with h
  · simpa [mem_def] using h
  · simpa [mem_def] using h

theorem mem_insert? (t t' : Table α) (r x : α) (h : t.insert? r = some t') :
    x ∈ t' ↔ x ∈ t ∨ x = r := by
  obtain ⟨_, hr⟩ := (t.insert?_eq_some t' r).mp h
  rw [mem_def, hr, List.mem_append, List.mem_singleton]
  rfl

/-- The rows an `UPDATE` leaves. -/
def updated (rows : List α) (p : α → Bool) (f : α → α) : List α :=
  rows.map fun r => if p r then f r else r

/-- An update that violates a key fails. -/
def update? (t : Table α) (p : α → Bool) (f : α → α) : Option (Table α) :=
  if h : (updated t.rows p f).Pairwise fun r r' => ¬Clash r r' then some ⟨_, h⟩ else none

omit [Keyed α] in
theorem mem_updated (rows : List α) (p : α → Bool) (f : α → α) (x : α) :
    x ∈ updated rows p f ↔ (∃ r ∈ rows, p r = true ∧ x = f r) ∨ (x ∈ rows ∧ p x = false) := by
  unfold updated
  rw [List.mem_map]
  constructor
  · rintro ⟨r, hr, rfl⟩
    cases hp : p r with
    | true => exact Or.inl ⟨r, hr, hp, by simp⟩
    | false => exact Or.inr (by simpa [hp] using hr)
  · rintro (⟨r, hr, hp, rfl⟩ | ⟨hx, hp⟩)
    · exact ⟨r, hr, by simp [hp]⟩
    · exact ⟨x, hx, by simp [hp]⟩

omit [Keyed α] in
/-- An update that keeps some columns keeps the list of their values. -/
theorem updated_map {β : Type} (columns : α → β) (rows : List α) (p : α → Bool) (f : α → α)
    (h : ∀ r, columns (f r) = columns r) : (updated rows p f).map columns = rows.map columns := by
  unfold updated
  rw [List.map_map]
  apply List.map_congr_left
  intro r _
  simp only [Function.comp]
  split_ifs
  · exact h r
  · rfl

theorem mem_of_map_eq {β : Type} (columns : α → β) (t t' : Table α)
    (h : t'.rows.map columns = t.rows.map columns) (r : α) (hr : r ∈ t') :
    ∃ r₀ ∈ t, columns r₀ = columns r := by
  have hm : columns r ∈ t'.rows.map columns := List.mem_map.mpr ⟨r, hr, rfl⟩
  rw [h] at hm
  exact List.mem_map.mp hm

theorem update?_eq_some (t t' : Table α) (p : α → Bool) (f : α → α) :
    t.update? p f = some t' ↔ t'.rows = updated t.rows p f := by
  unfold update?
  split_ifs with h
  · constructor
    · intro he
      rw [← Option.some.inj he]
    · intro he
      cases t'
      simp only at he
      subst he
      rfl
  · constructor
    · intro he
      cases he
    · intro he
      exact absurd (he ▸ t'.distinct) h

theorem mem_update? (t t' : Table α) (p : α → Bool) (f : α → α) (x : α)
    (h : t.update? p f = some t') :
    x ∈ t' ↔ (∃ r ∈ t, p r = true ∧ x = f r) ∨ (x ∈ t ∧ p x = false) := by
  rw [mem_def, (t.update?_eq_some t' p f).mp h, mem_updated]
  rfl

/-- An update of the one row a unique key selects. -/
theorem mem_update?_one (t t' : Table α) (p : α → Bool) (f : α → α) (row x : α) (hrow : row ∈ t)
    (hp : p row = true) (unique : ∀ r ∈ t, p r = true → r = row) (h : t.update? p f = some t') :
    x ∈ t' ↔ x = f row ∨ (x ∈ t ∧ x ≠ row) := by
  rw [t.mem_update? t' p f x h]
  constructor
  · rintro (⟨r, hr, hpr, rfl⟩ | ⟨hx, hpx⟩)
    · rw [unique r hr hpr]
      exact Or.inl rfl
    · refine Or.inr ⟨hx, ?_⟩
      rintro rfl
      rw [hp] at hpx
      cases hpx
  · rintro (rfl | ⟨hx, hne⟩)
    · exact Or.inl ⟨row, hrow, hp, rfl⟩
    · refine Or.inr ⟨hx, ?_⟩
      cases hpx : p x with
      | false => rfl
      | true => exact absurd (unique x hx hpx) hne

/-- An update of one row goes through when its new value clashes with no other row. -/
theorem exists_update?_one (t : Table α) (p : α → Bool) (f : α → α) (row : α) (hrow : row ∈ t)
    (self : Clash row row) (unique : ∀ r ∈ t, p r = true → r = row)
    (h : ∀ r ∈ t, r ≠ row → ¬Clash (f row) r) : ∃ t', t.update? p f = some t' := by
  have distinct : (updated t.rows p f).Pairwise fun r r' => ¬Clash r r' := by
    rw [updated, List.pairwise_map]
    apply t.distinct.imp_of_mem
    intro r r' hr hr' hn
    by_cases hp : p r = true <;> by_cases hp' : p r' = true
    · rw [unique r hr hp, unique r' hr' hp'] at hn
      exact absurd self hn
    · rw [if_pos hp, if_neg hp', unique r hr hp]
      refine h r' hr' ?_
      rintro rfl
      exact hn (unique r hr hp ▸ self)
    · rw [if_neg hp, if_pos hp', unique r' hr' hp']
      refine fun hc => h r hr ?_ (Keyed.symm _ _ hc)
      rintro rfl
      exact hn (unique r' hr' hp' ▸ self)
    · rw [if_neg hp, if_neg hp']
      exact hn
  exact ⟨⟨_, distinct⟩, (t.update?_eq_some _ p f).mpr rfl⟩

/-- An update of columns that no key reads. -/
def modify (t : Table α) (p : α → Bool) (f : α → α)
    (keeps : ∀ r r', Clash (f r) r' → Clash r r') : Table α :=
  ⟨updated t.rows p f, by
    rw [updated, List.pairwise_map]
    apply t.distinct.imp
    intro r r' hn hc
    have left : Clash r (if p r' then f r' else r') := by
      cases hp : p r with
      | true => exact keeps _ _ (by simpa [hp] using hc)
      | false => simpa [hp] using hc
    apply hn
    cases hp' : p r' with
    | true => exact Keyed.symm _ _ (keeps _ _ (Keyed.symm _ _ (by simpa [hp'] using left)))
    | false => simpa [hp'] using left⟩

def delete (t : Table α) (p : α → Bool) : Table α :=
  ⟨t.rows.filter fun r => !p r, t.distinct.sublist List.filter_sublist⟩

theorem mem_delete (t : Table α) (p : α → Bool) (x : α) :
    x ∈ t.delete p ↔ x ∈ t ∧ p x = false := by
  simp [mem_def, delete]

end Table
end HostMonitoring.Framework
