import HostMonitoring.Locks.Calls

namespace HostMonitoring.Locks

open Framework Release

namespace Kernel

variable (k : Kernel) (c u : Client)

theorem view_opened_self (file : Inode) (lockOf : Option (Inode × OsString)) :
    (k.opened c file lockOf).view c = ⟨k.next, file, ⟨c, lockOf⟩, none⟩ :: k.view c := by
  simp [view, opened]

theorem view_opened_other (file : Inode) (lockOf : Option (Inode × OsString)) (h : u ≠ c) :
    (k.opened c file lockOf).view u = k.view u := by
  simp [view, opened, h.symm]

theorem view_closed (fd : Fd) : (k.closed fd).view u = (k.view u).close fd :=
  FileTable.close_filter k.files fd fun info => info.client = u

theorem view_locked (d : Description) (hd : d ∈ k.files) (mode : LockMode)
    (free : ¬k.files.Blocked d mode) :
    (k.locked d hd mode free).view u = (k.view u).setLock d.id mode :=
  FileTable.setLock_filter k.files d.id mode fun info => info.client = u

theorem view_fresh : k.next ∉ (k.view c).ids := by
  intro h
  obtain ⟨d, hd, hid⟩ := List.mem_map.mp h
  exact k.fresh (List.mem_map.mpr ⟨d, (mem_view.mp hd).1, hid⟩)

/-- Numbers are not shared between clients. -/
theorem not_shared {d : Description} (hd : d ∈ k.view c) (h : u ≠ c) : d.id ∉ (k.view u).ids := by
  intro hm
  obtain ⟨e, he, hid⟩ := List.mem_map.mp hm
  obtain ⟨heFiles, heClient⟩ := mem_view.mp he
  obtain ⟨hdFiles, hdClient⟩ := mem_view.mp hd
  have same : e = d := k.consistent.unique heFiles hdFiles hid
  exact h (heClient.symm.trans (same ▸ hdClient))

theorem file_mem {fd : Fd} {d : Description} (h : k.file c fd = some d) :
    d ∈ k.view c ∧ d.id = fd :=
  ⟨List.mem_of_find?_eq_some h, by simpa using List.find?_some h⟩

/-- A call on an open file: either there is none of that number, or the call goes to it. -/
theorem on_induction {α : Type} {c : Client} {k : Kernel} (fd : Fd)
    (f : (d : Description) → d ∈ k.files → Except Errno α × Kernel)
    (motive : Except Errno α × Kernel → Prop) (absent : motive (.error .badf, k))
    (found : ∀ d, ∀ hd : d ∈ k.files, d ∈ k.view c → d.id = fd → motive (f d hd)) :
    motive (k.on c fd f) := by
  unfold on
  split
  · exact absent
  · rename_i d h
    obtain ⟨hv, hid⟩ := k.file_mem c h
    exact found d (mem_view.mp hv).1 hv hid

theorem openFound_own (found : Except Errno Inode) :
    OpenAnswer (k.view c) ((k.openFound c found).2.view c) none (k.openFound c found).1 := by
  cases found with
  | error e => rfl
  | ok i => exact ⟨_, rfl, rfl, rfl, k.view_fresh c, k.view_opened_self c i none⟩

theorem openFound_frame (found : Except Errno Inode) (h : u ≠ c) :
    (k.openFound c found).2.view u = k.view u := by
  cases found with
  | error e => rfl
  | ok i => exact k.view_opened_other c u i none h

theorem openLock_own (dir : Inode) (name : OsString) :
    OpenAnswer (k.view c) ((k.openLock c dir name).2.view c) (some (dir, name))
      (k.openLock c dir name).1 := by
  unfold openLock
  split
  · exact ⟨_, rfl, rfl, rfl, k.view_fresh c, view_opened_self _ c _ _⟩
  · split
    · rfl
    · rfl
    · exact ⟨_, rfl, rfl, rfl, k.view_fresh c, view_opened_self _ c _ _⟩

theorem openLock_frame (dir : Inode) (name : OsString) (h : u ≠ c) :
    (k.openLock c dir name).2.view u = k.view u := by
  unfold openLock
  split
  · exact view_opened_other _ c u _ _ h
  · split
    · rfl
    · rfl
    · exact view_opened_other _ c u _ _ h

end Kernel

/-- A client's calls keep the contract on what it has open. -/
theorem answer_own (c : Client) (o : Call) (k : Kernel) :
    contract.ensures o (k.view c) (k.answer c o).1 ((k.answer c o).2.view c) := by
  cases o with
  | currentDir => rfl
  | openRoot => exact k.openFound_own c (.ok root)
  | openDirectory dir path =>
    apply Kernel.on_induction dir _ fun r => OpenAnswer (k.view c) (r.2.view c) none r.1
    · rfl
    · exact fun d _ _ _ => k.openFound_own c _
  | openEntry dir name =>
    apply Kernel.on_induction dir _ fun r => OpenAnswer (k.view c) (r.2.view c) none r.1
    · rfl
    · exact fun d _ _ _ => k.openFound_own c _
  | openLock dir name =>
    intro e he heid
    apply Kernel.on_induction dir _ fun r =>
      OpenAnswer (k.view c) (r.2.view c) (some (e.file, name)) r.1
    · rfl
    · intro d hd _ hid
      have same : e = d := k.consistent.unique (Kernel.mem_view.mp he).1 hd (heid.trans hid.symm)
      rw [same]
      exact k.openLock_own c d.file name
  | fstat fd =>
    apply Kernel.on_induction fd _ fun r => r.2.view c = k.view c
    · rfl
    · exact fun _ _ _ _ => rfl
  | flock fd mode =>
    apply Kernel.on_induction fd _ fun r => contract.ensures (.flock fd mode) (k.view c) r.1 (r.2.view c)
    · rfl
    · intro d hd _ hid
      rw [Kernel.flock]
      split
      · rfl
      · rename_i free
        rw [← hid]
        exact k.view_locked c d hd mode free
  | close fd =>
    simp only [Kernel.answer]
    split
    · rename_i h
      show k.view c = (k.view c).close fd
      symm
      apply FileTable.close_absent
      intro hm
      obtain ⟨d, _, found, _⟩ := FileTable.find_isSome hm
      rw [Kernel.file, found] at h
      cases h
    · rename_i d h
      rw [← (k.file_mem c h).2]
      exact k.view_closed c d.id
  | work held => rfl

theorem answer_frame (c u : Client) (o : Call) (k : Kernel) (h : u ≠ c) :
    (k.answer c o).2.view u = k.view u := by
  cases o with
  | currentDir => rfl
  | openRoot => exact k.openFound_frame c u _ h
  | openDirectory dir path =>
    apply Kernel.on_induction dir _ fun r => r.2.view u = k.view u
    · rfl
    · exact fun d _ _ _ => k.openFound_frame c u _ h
  | openEntry dir name =>
    apply Kernel.on_induction dir _ fun r => r.2.view u = k.view u
    · rfl
    · exact fun d _ _ _ => k.openFound_frame c u _ h
  | openLock dir name =>
    apply Kernel.on_induction dir _ fun r => r.2.view u = k.view u
    · rfl
    · exact fun d _ _ _ => k.openLock_frame c u d.file name h
  | fstat fd =>
    apply Kernel.on_induction fd _ fun r => r.2.view u = k.view u
    · rfl
    · exact fun _ _ _ _ => rfl
  | flock fd mode =>
    apply Kernel.on_induction fd _ fun r => r.2.view u = k.view u
    · rfl
    · intro d hd hv _
      rw [Kernel.flock]
      split
      · rfl
      · rename_i free
        rw [k.view_locked u d hd mode free]
        exact FileTable.setLock_absent _ _ _ (k.not_shared c u hv h)
  | close fd =>
    simp only [Kernel.answer]
    split
    · rfl
    · rename_i d hd
      rw [k.view_closed u d.id]
      exact FileTable.close_absent _ _ (k.not_shared c u (k.file_mem c hd).1 h)
  | work held => rfl

/-- A fault leaves everything as it was, which the contract allows. -/
theorem fault_own (o : Call) (v : FileTable Fd Inode Opened) (a : Answer o) (h : o.Fault a) :
    contract.ensures o v a v := by
  cases o with
  | currentDir => rfl
  | openRoot => obtain ⟨code, rfl⟩ := h; rfl
  | openDirectory dir path => obtain ⟨code, rfl⟩ := h; rfl
  | openEntry dir name => obtain ⟨code, rfl⟩ := h; rfl
  | openLock dir name => obtain ⟨code, rfl⟩ := h; exact fun _ _ _ => rfl
  | fstat fd => rfl
  | flock fd mode => obtain ⟨code, rfl⟩ := h; rfl
  | close fd => exact h.elim
  | work held => exact h.elim

theorem isolates : world.Isolates contract Kernel.view where
  own := by
    intro c o k a k' h
    rcases h with h | ⟨fault, same⟩
    · have own := answer_own c o k
      rw [h] at own
      exact own
    · rw [same]
      exact fault_own o (k.view c) a fault
  frame := by
    intro c u o k a k' h hne
    rcases h with h | ⟨_, same⟩
    · have frame := answer_frame c u o k hne
      rwa [h] at frame
    · rw [same]
  reap := by
    intro c u k k' h hne
    obtain ⟨d, hd, rfl⟩ := h
    rw [k.view_closed u d.id]
    exact FileTable.close_absent _ _ (k.not_shared c u hd hne)
  outside := by
    intro u k k' h
    obtain ⟨fs, cwd, rfl⟩ := h
    rfl

end HostMonitoring.Locks
