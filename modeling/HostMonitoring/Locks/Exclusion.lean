import HostMonitoring.Locks.Discipline

namespace HostMonitoring.Locks

open Framework Release

/-- The lock file is still the one its name leads to. -/
def InPlace (fs : FileSystem) (d : Description) : Prop :=
  ∀ lock ∈ d.info.lockOf, fs.entry lock.1 lock.2 = some d.file

/-- Everybody else may do anything but remove or rename a lock file that is open. -/
def guarded : World Client Call Answer Kernel where
  exec := world.exec
  reap := world.reap
  outside k k' := world.outside k k' ∧ ∀ d ∈ k.files, InPlace k.fs d → InPlace k'.fs d

def Started (p : Program Call Answer Unit) : Prop := ∃ command : Command, p = command.program

/-- What commands may have made of a machine: any number of them, in any order of their calls,
with faults, and killed wherever they were. -/
def Reachable (P : Pool Client Call Answer Kernel) : Prop :=
  ∃ fs cwd, guarded.Reachable Started (boot fs cwd) P

def work? : Thread Call Answer → Option Held
  | .running (.call (.work held) _) => some held
  | _ => none

/-- The client is at work on the database of this directory and name. -/
structure Works (P : Pool Client Call Answer Kernel) (c : Client) (held : Held) (dir : Inode)
    (databaseName : OsString) : Prop where
  thread : (P.threads c).bind work? = some held
  location : match held with
    | .application lock => lock.location.databaseName = databaseName ∧
      ((P.shared.file c lock.location.parent).map OpenFile.file) = some dir
    | .maintenance _ lock => lock.location.databaseName = databaseName ∧
      ((P.shared.file c lock.location.parent).map OpenFile.file) = some dir

theorem guarded_isolates : guarded.Isolates contract Kernel.view where
  own := isolates.own
  frame := isolates.frame
  reap := isolates.reap
  outside := fun u k k' h => isolates.outside u k k' h.1

section
variable {P : Pool Client Call Answer Kernel}

theorem Reachable.meets (h : Reachable P) (c : Client) (p : Program Call Answer Unit)
    (hp : P.threads c = some (.running p)) :
    p.Meets contract (fun _ v => v = []) (P.shared.view c) := by
  obtain ⟨fs, cwd, reachable⟩ := h
  apply (guarded_isolates.meets (fun _ => rfl) ?_ P reachable c).2 p hp
  intro q hq
  obtain ⟨command, rfl⟩ := hq
  exact meets_program command

/-- Who is at work has exactly its locks open. -/
theorem Reachable.owns (h : Reachable P) {c : Client} {held : Held}
    (thread : (P.threads c).bind work? = some held) : held.Owns (P.shared.view c) := by
  obtain ⟨t, ht, hw⟩ := Option.bind_eq_some_iff.mp thread
  unfold work? at hw
  split at hw
  · rename_i held' next
    simp only [Option.some.injEq] at hw
    subst hw
    exact (h.meets c _ ht).1
  · cases hw

theorem inPlace_create (fs : FileSystem) (dir : Inode) (name : OsString)
    (free : fs.entry dir name = none) (d : Description) (h : InPlace fs d) :
    InPlace (fs.create dir name) d := by
  intro lock hl
  have kept := h lock hl
  have other : ¬(lock.1 = dir ∧ lock.2 = name) := by
    intro same
    rw [same.1, same.2, free] at kept
    cases kept
  simp [FileSystem.create, other, kept]

/-- What one open adds is in place, and the others stay so. -/
theorem inPlace_answer (c : Client) (o : Call) (k : Kernel)
    (h : ∀ d ∈ k.files, InPlace k.fs d) :
    ∀ d ∈ (k.answer c o).2.files, InPlace (k.answer c o).2.fs d := by
  have openFound : ∀ found, ∀ d ∈ (k.openFound c found).2.files,
      InPlace (k.openFound c found).2.fs d := by
    intro found
    cases found with
    | error e => exact h
    | ok i =>
      intro d hd
      rcases List.mem_cons.mp hd with rfl | hd
      · exact fun lock hl => by cases hl
      · exact h d hd
  cases o with
  | currentDir => exact h
  | openRoot => exact openFound _
  | openDirectory dir path =>
    apply Kernel.on_induction dir _ fun r => ∀ d ∈ r.2.files, InPlace r.2.fs d
    · exact h
    · exact fun d _ _ _ => openFound _
  | openEntry dir name =>
    apply Kernel.on_induction dir _ fun r => ∀ d ∈ r.2.files, InPlace r.2.fs d
    · exact h
    · exact fun d _ _ _ => openFound _
  | openLock dir name =>
    apply Kernel.on_induction dir _ fun r => ∀ d ∈ r.2.files, InPlace r.2.fs d
    · exact h
    · intro d _ _ _
      rw [Kernel.openLock]
      split
      · rename_i free
        intro e hm
        rcases List.mem_cons.mp hm with rfl | hm
        · intro lock hl
          obtain rfl : (d.file, name) = lock := Option.some.inj hl
          simp [Kernel.opened, FileSystem.create]
        · exact inPlace_create k.fs d.file name free e (h e hm)
      · rename_i i found
        split
        · exact h
        · exact h
        · intro e hm
          rcases List.mem_cons.mp hm with rfl | hm
          · intro lock hl
            obtain rfl : (d.file, name) = lock := Option.some.inj hl
            exact found
          · exact h e hm
  | fstat fd =>
    apply Kernel.on_induction fd _ fun r => ∀ d ∈ r.2.files, InPlace r.2.fs d
    · exact h
    · exact fun _ _ _ _ => h
  | flock fd mode =>
    apply Kernel.on_induction fd _ fun r => ∀ d ∈ r.2.files, InPlace r.2.fs d
    · exact h
    · intro d _ _ _
      rw [Kernel.flock]
      split
      · exact h
      · intro e hm lock hl
        obtain ⟨e', he', _, file, info, _⟩ := FileTable.mem_setLock hm
        rw [file]
        exact h e' he' lock (info ▸ hl)
  | close fd =>
    simp only [Kernel.answer]
    split
    · exact h
    · exact fun e hm => h e (List.mem_filter.mp hm).1
  | work held => exact h

/-- Open lock files stay under their names. -/
theorem Reachable.inPlace (h : Reachable P) : ∀ d ∈ P.shared.files, InPlace P.shared.fs d := by
  obtain ⟨fs, cwd, reachable⟩ := h
  apply guarded.shared_invariant Started (fun k => ∀ d ∈ k.files, InPlace k.fs d) _ ?_ ?_ ?_ ?_ P
    reachable
  · simp [boot]
  · intro c o k a k' hk he
    rcases he with he | ⟨_, same⟩
    · have kept := inPlace_answer c o k hk
      rwa [he] at kept
    · rw [same]
      exact hk
  · intro c k k' hk hr
    obtain ⟨d, _, rfl⟩ := hr
    exact fun e he => hk e (List.mem_filter.mp he).1
  · intro k k' hk ho
    obtain ⟨⟨fs', cwd', rfl⟩, kept⟩ := ho
    exact fun d hd => kept d hd (hk d hd)

theorem file_parent {k : Kernel} {c : Client} {p : Description} (hp : p ∈ k.view c) {dir : Inode}
    (h : (k.file c p.id).map OpenFile.file = some dir) : p.file = dir := by
  obtain ⟨q, hq, hdir⟩ := Option.map_eq_some_iff.mp h
  obtain ⟨hv, hid⟩ := k.file_mem c hq
  have same : q = p :=
    k.consistent.unique (Kernel.mem_view.mp hv).1 (Kernel.mem_view.mp hp).1 hid
  rw [← same, hdir]

/-- The maintenance lock a client at work holds. -/
def Held.maintenanceMode : Held → LockMode
  | .application _ => .shared
  | .maintenance mode _ => mode

theorem Works.maintenance (h : Reachable P) {c : Client} {held : Held} {dir : Inode}
    {name : OsString} (works : Works P c held dir name) :
    ∃ d ∈ P.shared.view c, d.info.lockOf = some (dir, lockName name maintenanceSuffix) ∧
      d.lock = some held.maintenanceMode := by
  have owns := h.owns works.thread
  have location := works.location
  cases held with
  | application lock =>
    obtain ⟨m, i, p, view, _, parent, _, isMaintenance⟩ := owns
    obtain ⟨named, dirOf⟩ := location
    have hp : p ∈ P.shared.view c := by simp [view]
    rw [← parent.id] at dirOf
    refine ⟨m, by simp [view], ?_, isMaintenance.mode⟩
    rw [isMaintenance.lockOf, named, file_parent hp dirOf]
  | maintenance mode lock =>
    obtain ⟨m, p, view, _, parent, isMaintenance⟩ := owns
    obtain ⟨named, dirOf⟩ := location
    have hp : p ∈ P.shared.view c := by simp [view]
    rw [← parent.id] at dirOf
    refine ⟨m, by simp [view], ?_, isMaintenance.mode⟩
    rw [isMaintenance.lockOf, named, file_parent hp dirOf]

theorem Works.instanceLock (h : Reachable P) {c : Client} {lock : ApplicationLock} {dir : Inode}
    {name : OsString} (works : Works P c (.application lock) dir name) :
    ∃ d ∈ P.shared.view c, d.info.lockOf = some (dir, lockName name instanceSuffix) ∧
      d.lock = some .exclusive := by
  obtain ⟨m, i, p, view, _, parent, isInstance, _⟩ := h.owns works.thread
  obtain ⟨named, dirOf⟩ := works.location
  have hp : p ∈ P.shared.view c := by simp [view]
  rw [← parent.id] at dirOf
  refine ⟨i, by simp [view], ?_, isInstance.mode⟩
  rw [isInstance.lockOf, named, file_parent hp dirOf]

/-- Locks two clients hold on what one name leads to go together. -/
theorem Reachable.compatible (h : Reachable P) {c u : Client} (hne : c ≠ u) {d e : Description}
    (hd : d ∈ P.shared.view c) (he : e ∈ P.shared.view u) {lock : Inode × OsString}
    (hdl : d.info.lockOf = some lock) (hel : e.info.lockOf = some lock) {m n : LockMode}
    (hm : d.lock = some m) (hn : e.lock = some n) : m.conflicts n = false := by
  have dFiles := (Kernel.mem_view.mp hd).1
  have eFiles := (Kernel.mem_view.mp he).1
  have apart : d.id ≠ e.id := by
    intro same
    exact P.shared.not_shared u c he hne (List.mem_map.mpr ⟨d, hd, same⟩)
  have one : d.file = e.file := by
    have dPlace := h.inPlace d dFiles lock hdl
    have ePlace := h.inPlace e eFiles lock hel
    exact Option.some.inj (dPlace.symm.trans ePlace)
  exact P.shared.consistent.compatible d dFiles e eFiles apart one m hm n hn

/-- A client that has ended has nothing open; one that has not calls on open files of its own
only, and works with exactly its locks open. -/
theorem next_call_allowed (h : Reachable P) (c : Client) (p : Program Call Answer Unit)
    (hp : P.threads c = some (.running p)) :
    match p with
    | .done _ => P.shared.view c = []
    | .call o _ => contract.requires o (P.shared.view c) := by
  have meets := h.meets c p hp
  cases p with
  | done u => exact meets
  | call o next => exact meets.1

end

/-- A server on `/a` after its ten calls, then a doctor after its seven. -/
def serving : Pool Client Call Answer Kernel :=
  Pool.join ⟨fun _ => none, boot emptyRoot fun _ => bytes "/"⟩ 0 (Kernel.answer 0) 10
    (Command.serve (bytes "sqlite:/a")).program

def servingAndDoctor : Pool Client Call Answer Kernel :=
  Pool.join serving 1 (Kernel.answer 1) 7 (Command.doctor (bytes "sqlite:/a")).program

theorem answers (c : Client) (o : Call) (k : Kernel) :
    guarded.exec c o k (k.answer c o).1 (k.answer c o).2 := Or.inl rfl

theorem serving_reachable : guarded.Reachable Started (boot emptyRoot fun _ => bytes "/") serving :=
  World.Reachable.start.join 0 (Kernel.answer 0) (answers 0) 10 _ rfl ⟨.serve _, rfl⟩

theorem servingAndDoctor_reachable : Reachable servingAndDoctor := by
  have idle : serving.threads 1 = none := Pool.join_other _ _ _ _ (by decide)
  exact ⟨emptyRoot, fun _ => bytes "/", serving_reachable.join 1 (Kernel.answer 1) (answers 1) 7 _
    idle ⟨.doctor _, rfl⟩⟩

def serverLock : ApplicationLock := ⟨⟨1, bytes "a"⟩, 2, 3⟩

theorem server_works : Works servingAndDoctor 0 (.application serverLock) root (bytes "a") :=
  ⟨by decide +kernel, by decide +kernel⟩

theorem server_owns :
    (Held.application serverLock).Owns (servingAndDoctor.shared.view 0) := by
  obtain ⟨t, ht, hw⟩ := Option.bind_eq_some_iff.mp server_works.thread
  cases t with
  | killed => cases hw
  | running p =>
    cases p with
    | done u => cases hw
    | call o next =>
      have allowed := next_call_allowed servingAndDoctor_reachable 0 _ ht
      cases o with
      | work held => exact Option.some.inj hw ▸ allowed
      | currentDir => cases hw
      | openRoot => cases hw
      | openDirectory dir path => cases hw
      | openEntry dir name => cases hw
      | openLock dir name => cases hw
      | fstat fd => cases hw
      | flock fd mode => cases hw
      | close fd => cases hw

end HostMonitoring.Locks
