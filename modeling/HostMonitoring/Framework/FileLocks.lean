import Mathlib.Data.List.Basic
import Mathlib.Data.List.Nodup

namespace HostMonitoring.Framework

inductive LockMode where
  | shared
  | exclusive
deriving DecidableEq

def LockMode.conflicts : LockMode → LockMode → Bool
  | .shared, .shared => false
  | _, _ => true

theorem LockMode.conflicts_comm (m n : LockMode) : m.conflicts n = n.conflicts m := by
  cases m <;> cases n <;> rfl

/-- An open file of a system: who holds it under which number, the file it stands for, what the
system notes about it, and the advisory lock it carries. -/
structure OpenFile (δ ι κ : Type) where
  id : δ
  file : ι
  info : κ
  lock : Option LockMode
deriving DecidableEq

/-- The table of all open files. -/
abbrev FileTable (δ ι κ : Type) := List (OpenFile δ ι κ)

namespace FileTable

variable {δ ι κ : Type}

def ids (t : FileTable δ ι κ) : List δ := t.map OpenFile.id

/-- Another open file of the same file carries a lock that rules this one out. -/
def Blocked (t : FileTable δ ι κ) (d : OpenFile δ ι κ) (mode : LockMode) : Prop :=
  ∃ e ∈ t, e.id ≠ d.id ∧ e.file = d.file ∧ ∃ held ∈ e.lock, mode.conflicts held

instance [DecidableEq δ] [DecidableEq ι] (t : FileTable δ ι κ) (d : OpenFile δ ι κ)
    (mode : LockMode) : Decidable (t.Blocked d mode) :=
  inferInstanceAs (Decidable (∃ e ∈ t, _))

/-- Numbers are used once, and locks on one file go together. -/
structure Consistent (t : FileTable δ ι κ) : Prop where
  nodup : t.ids.Nodup
  compatible : ∀ d ∈ t, ∀ e ∈ t, d.id ≠ e.id → d.file = e.file →
    ∀ m ∈ d.lock, ∀ n ∈ e.lock, m.conflicts n = false

theorem consistent_nil : Consistent ([] : FileTable δ ι κ) := ⟨List.nodup_nil, by simp⟩

/-- A number is held by one open file. -/
theorem Consistent.unique {t : FileTable δ ι κ} (h : t.Consistent) {d e : OpenFile δ ι κ}
    (hd : d ∈ t) (he : e ∈ t) (hid : d.id = e.id) : d = e :=
  List.inj_on_of_nodup_map h.nodup hd he hid

theorem Consistent.open {t : FileTable δ ι κ} (h : t.Consistent) (d : OpenFile δ ι κ)
    (fresh : d.id ∉ t.ids) (unlocked : d.lock = none) : Consistent (d :: t) := by
  constructor
  · exact List.nodup_cons.mpr ⟨fresh, h.nodup⟩
  · intro x hx y hy hne hfile m hm n hn
    rcases List.mem_cons.mp hx with rfl | hx
    · simp [unlocked] at hm
    · rcases List.mem_cons.mp hy with rfl | hy
      · simp [unlocked] at hn
      · exact h.compatible x hx y hy hne hfile m hm n hn

variable [DecidableEq δ]

def find (t : FileTable δ ι κ) (id : δ) : Option (OpenFile δ ι κ) := t.find? fun d => d.id = id

def setLock (t : FileTable δ ι κ) (id : δ) (mode : LockMode) : FileTable δ ι κ :=
  t.map fun d => if d.id = id then { d with lock := some mode } else d

def close (t : FileTable δ ι κ) (id : δ) : FileTable δ ι κ := t.filter fun d => d.id ≠ id

theorem ids_close (t : FileTable δ ι κ) (id : δ) : (t.close id).ids = t.ids.filter (· ≠ id) := by
  induction t with
  | nil => rfl
  | cons d t ih =>
    by_cases h : d.id = id
    · simpa [close, ids, h] using ih
    · simpa [close, ids, h] using ih

@[simp] theorem ids_setLock (t : FileTable δ ι κ) (id : δ) (mode : LockMode) :
    (t.setLock id mode).ids = t.ids := by
  unfold ids setLock
  rw [List.map_map]
  apply List.map_congr_left
  intro d _
  by_cases h : d.id = id <;> simp [h]

theorem mem_setLock {t : FileTable δ ι κ} {id : δ} {mode : LockMode} {d : OpenFile δ ι κ}
    (h : d ∈ t.setLock id mode) :
    ∃ e ∈ t, d.id = e.id ∧ d.file = e.file ∧ d.info = e.info ∧
      (d.lock = e.lock ∨ d.id = id ∧ d.lock = some mode) := by
  unfold setLock at h
  obtain ⟨e, he, rfl⟩ := List.mem_map.mp h
  by_cases hid : e.id = id
  · exact ⟨e, he, by simp [hid], by simp [hid], by simp [hid], Or.inr (by simp [hid])⟩
  · exact ⟨e, he, by simp [hid], by simp [hid], by simp [hid], Or.inl (by simp [hid])⟩

theorem find_isSome {t : FileTable δ ι κ} {id : δ} (h : id ∈ t.ids) :
    ∃ d ∈ t, t.find id = some d ∧ d.id = id := by
  obtain ⟨d, hd, hid⟩ := List.mem_map.mp h
  cases found : t.find id with
  | none => exact absurd (List.find?_eq_none.mp found d hd) (by simp [hid])
  | some e => exact ⟨e, List.mem_of_find?_eq_some found, rfl, by simpa using List.find?_some found⟩

theorem close_absent (t : FileTable δ ι κ) (id : δ) (h : id ∉ t.ids) : t.close id = t := by
  apply List.filter_eq_self.mpr
  intro d hd
  simpa using fun hid : d.id = id => h (List.mem_map.mpr ⟨d, hd, hid⟩)

theorem setLock_absent (t : FileTable δ ι κ) (id : δ) (mode : LockMode) (h : id ∉ t.ids) :
    t.setLock id mode = t := by
  have same : ∀ d ∈ t, (if d.id = id then { d with lock := some mode } else d) = d := by
    intro d hd
    exact if_neg fun hid => h (List.mem_map.mpr ⟨d, hd, hid⟩)
  unfold setLock
  rw [List.map_congr_left same, List.map_id']

theorem close_head (t : FileTable δ ι κ) (d : OpenFile δ ι κ) (h : d.id ∉ t.ids) :
    close (d :: t) d.id = t := by
  have rest := close_absent t d.id h
  unfold close at rest ⊢
  simpa using rest

theorem close_cons (t : FileTable δ ι κ) (d : OpenFile δ ι κ) (id : δ) (h : d.id ≠ id) :
    close (d :: t) id = d :: t.close id := by simp [close, h]

theorem setLock_head (t : FileTable δ ι κ) (d : OpenFile δ ι κ) (mode : LockMode)
    (h : d.id ∉ t.ids) : setLock (d :: t) d.id mode = { d with lock := some mode } :: t := by
  have rest := setLock_absent t d.id mode h
  unfold setLock at rest ⊢
  rw [List.map_cons, rest, if_pos rfl]

theorem close_filter (t : FileTable δ ι κ) (id : δ) (p : κ → Bool) :
    (t.close id).filter (fun d => p d.info) = close (t.filter fun d => p d.info) id := by
  unfold close
  exact List.filter_comm _ _ t

theorem setLock_filter (t : FileTable δ ι κ) (id : δ) (mode : LockMode) (p : κ → Bool) :
    (t.setLock id mode).filter (fun d => p d.info) =
      setLock (t.filter fun d => p d.info) id mode := by
  have same : (fun d : OpenFile δ ι κ => p d.info) ∘
      (fun d => if d.id = id then { d with lock := some mode } else d) = fun d => p d.info := by
    funext d
    by_cases hid : d.id = id <;> simp [hid]
  unfold setLock
  rw [List.filter_map, same]

theorem Consistent.close {t : FileTable δ ι κ} (h : t.Consistent) (id : δ) :
    (t.close id).Consistent := by
  constructor
  · rw [ids_close]
    exact h.nodup.filter _
  · intro d hd e he
    exact h.compatible d (List.mem_filter.mp hd).1 e (List.mem_filter.mp he).1

theorem Consistent.setLock {t : FileTable δ ι κ} (h : t.Consistent) (d : OpenFile δ ι κ)
    (hd : d ∈ t) (mode : LockMode) (free : ¬t.Blocked d mode) :
    (t.setLock d.id mode).Consistent := by
  have apart : ∀ e ∈ t, e.id ≠ d.id → e.file = d.file → ∀ n ∈ e.lock, mode.conflicts n = false := by
    intro e he hne hfile n hn
    by_contra hc
    exact free ⟨e, he, hne, hfile, n, hn, by simpa using hc⟩
  constructor
  · rw [ids_setLock]
    exact h.nodup
  · intro x hx y hy hne hfile m hm n hn
    obtain ⟨x', hx', xid, xfile, _, xlock⟩ := mem_setLock hx
    obtain ⟨y', hy', yid, yfile, _, ylock⟩ := mem_setLock hy
    rw [xid, yid] at hne
    rw [xfile, yfile] at hfile
    rcases xlock with xlock | ⟨xd, xlock⟩
    · rcases ylock with ylock | ⟨yd, ylock⟩
      · exact h.compatible x' hx' y' hy' hne hfile m (xlock ▸ hm) n (ylock ▸ hn)
      · have same : y' = d := h.unique hy' hd (yid.symm.trans yd)
        subst same
        rw [ylock, Option.mem_some_iff] at hn
        rw [LockMode.conflicts_comm, ← hn]
        exact apart x' hx' hne hfile m (xlock ▸ hm)
    · have same : x' = d := h.unique hx' hd (xid.symm.trans xd)
      subst same
      rw [xlock, Option.mem_some_iff] at hm
      rw [← hm]
      rcases ylock with ylock | ⟨yd, _⟩
      · exact apart y' hy' hne.symm hfile.symm n (ylock ▸ hn)
      · exact absurd (xd.trans (yd.symm.trans yid)) (by rwa [xid])

end FileTable
end HostMonitoring.Framework
