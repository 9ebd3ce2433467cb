import HostMonitoring.Framework.Table
import Mathlib.Data.List.Nodup
import Mathlib.Data.List.Perm.Subperm

namespace HostMonitoring.Framework.Table

variable {α : Type} [Keyed α]

theorem length_select (t : Table α) (p : α → Bool) (le : α → α → Bool) (limit : Nat) :
    (t.select p le limit).length = min limit (t.count p) := by
  rw [select, List.length_take, List.length_mergeSort, count, List.countP_eq_length_filter]

/-- The rows split into those with one more property and those without. -/
theorem count_split (t : Table α) (p q : α → Bool) :
    t.count p = t.count (fun r => p r && q r) + t.count fun r => p r && !q r := by
  simp only [count]
  induction t.rows with
  | nil => rfl
  | cons r rows ih =>
    simp only [List.countP_cons, ih]
    cases p r <;> cases q r <;> simp <;> omega

theorem count_congr (t : Table α) (p q : α → Bool) (h : ∀ r ∈ t, p r = q r) :
    t.count p = t.count q := by
  apply List.countP_congr
  intro r hr
  rw [h r hr]

theorem count_eq_zero (t : Table α) (p : α → Bool) : t.count p = 0 ↔ ∀ r ∈ t, p r = false := by
  simp [count, List.countP_eq_zero, mem_def]

theorem count_delete (t : Table α) (p q : α → Bool) :
    (t.delete q).count p = t.count fun r => p r && !q r := by
  simp [count, delete, List.countP_filter]

theorem count_modify (t : Table α) (p q : α → Bool) (f : α → α)
    (keeps : ∀ r r', Keyed.Clash (f r) r' → Keyed.Clash r r') :
    (t.modify q f keeps).count p = t.count fun r => if q r then p (f r) else p r := by
  simp only [count, modify, updated, List.countP_map]
  apply List.countP_congr
  intro r _
  simp only [Function.comp]
  split_ifs <;> rfl

theorem nodup_keys {β : Type} (t : Table α) (key : α → β)
    (unique : ∀ r r', key r = key r' → Keyed.Clash r r') : (t.rows.map key).Nodup := by
  rw [List.nodup_iff_pairwise_ne, List.pairwise_map]
  apply t.distinct.imp
  intro r r' apart same
  exact apart (unique r r' same)

/-- A table whose matching rows have keys of another one's has no more of them. -/
theorem count_le_count {β : Type} (t t' : Table α) (key : α → β) (p q : α → Bool)
    (unique : ∀ r r', key r = key r' → Keyed.Clash r r')
    (h : ∀ r' ∈ t', p r' = true → ∃ r ∈ t, key r = key r' ∧ q r = true) :
    t'.count p ≤ t.count q := by
  have listed (t : Table α) (p : α → Bool) : t.count p = ((t.rows.filter p).map key).length := by
    rw [List.length_map, count, List.countP_eq_length_filter]
  rw [listed t' p, listed t q]
  have nodup : ((t'.rows.filter p).map key).Nodup :=
    (t'.nodup_keys key unique).sublist (List.filter_sublist.map key)
  apply (List.subperm_of_subset nodup ?_).length_le
  intro k hk
  obtain ⟨r', hr', rfl⟩ := List.mem_map.mp hk
  obtain ⟨mem, matches_⟩ := List.mem_filter.mp hr'
  obtain ⟨r, hr, same, hq⟩ := h r' mem matches_
  exact List.mem_map.mpr ⟨r, List.mem_filter.mpr ⟨hr, hq⟩, same⟩

/-- As many rows have a key of a list as the list has keys, when it lists keys of rows. -/
theorem count_keys {β : Type} [DecidableEq β] (t : Table α) (key : α → β) (keys : List β)
    (unique : ∀ r r', key r = key r' → Keyed.Clash r r') (nodup : keys.Nodup)
    (stored : ∀ k ∈ keys, ∃ r ∈ t, key r = k) : t.count (fun r => decide (key r ∈ keys)) =
      keys.length := by
  have counted : t.count (fun r => decide (key r ∈ keys)) =
      ((t.rows.map key).filter fun k => decide (k ∈ keys)).length := by
    rw [← List.countP_eq_length_filter, List.countP_map]
    rfl
  rw [counted]
  apply List.Perm.length_eq
  rw [List.perm_ext_iff_of_nodup ((t.nodup_keys key unique).filter _) nodup]
  intro k
  rw [List.mem_filter, decide_eq_true_eq]
  refine ⟨And.right, fun hk => ⟨?_, hk⟩⟩
  obtain ⟨r, hr, hrk⟩ := stored k hk
  exact List.mem_map.mpr ⟨r, hr, hrk⟩

/-- The rows that a selection selects, found again by their key, are as many as it may take. -/
theorem count_selected {β : Type} [DecidableEq β] (t : Table α) (key : α → β) (p : α → Bool)
    (le : α → α → Bool) (limit : Nat) (unique : ∀ r r', key r = key r' ↔ Keyed.Clash r r') :
    t.count (fun r => decide (key r ∈ (t.select p le limit).map key)) = min limit (t.count p) := by
  have nodup : ((t.select p le limit).map key).Nodup := by
    rw [List.nodup_iff_pairwise_ne, List.pairwise_map]
    apply (t.select_distinct p le limit).imp
    intro r r' apart same
    exact apart ((unique r r').mp same)
  rw [t.count_keys key _ (fun r r' => (unique r r').mp) nodup, List.length_map, length_select]
  intro k hk
  obtain ⟨r, hr, hrk⟩ := List.mem_map.mp hk
  exact ⟨r, (t.mem_of_mem_select p le limit r hr).1, hrk⟩

/-- A row with a selected row's key is that row. -/
theorem selected_iff {β : Type} [DecidableEq β] (t : Table α) (key : α → β) (p : α → Bool)
    (le : α → α → Bool) (limit : Nat) (unique : ∀ r r', key r = key r' → Keyed.Clash r r')
    (r : α) (hr : r ∈ t) (h : key r ∈ (t.select p le limit).map key) : p r = true := by
  obtain ⟨r', hr', same⟩ := List.mem_map.mp h
  obtain ⟨mem, selected⟩ := t.mem_of_mem_select p le limit r' hr'
  rw [← t.eq_of_clash r' r mem hr (unique r' r same)]
  exact selected

end HostMonitoring.Framework.Table
