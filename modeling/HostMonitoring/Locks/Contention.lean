import HostMonitoring.Locks.Exclusion

namespace HostMonitoring.Locks

open Framework Release Fallible

/-- A client whose calls no other client comes between. -/
def alone {α : Type} (c : Client) (x : Fallible α) (k : Kernel) : Except Error α × Kernel :=
  Program.run (Kernel.answer c) x.run k

def Fails {α : Type} (c : Client) (x : Fallible α) (k : Kernel) : Prop :=
  ∃ e, (alone c x k).1 = .error e

section
variable {α β : Type} {c : Client} {k k' : Kernel}

theorem alone_handle (x : Fallible α) (f : Error → Fallible α) :
    alone c (x.handle f) k =
      match alone c x k with
      | (.ok a, k') => (.ok a, k')
      | (.error e, k') => alone c (f e) k' := by
  unfold alone
  refine (Program.run_bind _ x.run _ k).trans ?_
  cases Program.run (Kernel.answer c) x.run k with
  | mk r k' =>
    cases r with
    | ok a => rfl
    | error e => rfl

theorem alone_bind (x : Fallible α) (f : α → Fallible β) :
    alone c (x >>= f) k =
      match alone c x k with
      | (.ok a, k') => alone c (f a) k'
      | (.error e, k') => (.error e, k') := by
  unfold alone
  refine (Program.run_bind _ x.run _ k).trans ?_
  cases Program.run (Kernel.answer c) x.run k with
  | mk r k' =>
    cases r with
    | ok a => rfl
    | error e => rfl

theorem alone_bind_ok {x : Fallible α} {f : α → Fallible β} {a : α}
    (h : alone c x k = (.ok a, k')) : alone c (x >>= f) k = alone c (f a) k' := by
  rw [alone_bind, h]

theorem Fails.bind {x : Fallible α} (h : Fails c x k) (f : α → Fallible β) :
    Fails c (x >>= f) k := by
  obtain ⟨e, he⟩ := h
  refine ⟨e, ?_⟩
  rw [alone_bind]
  cases hx : alone c x k with
  | mk r k' =>
    rw [hx] at he
    rw [show r = .error e from he]

theorem Fails.after {x : Fallible α} {f : α → Fallible β} {a : α}
    (first : alone c x k = (.ok a, k')) (h : Fails c (f a) k') : Fails c (x >>= f) k := by
  unfold Fails
  rw [alone_bind_ok first]
  exact h

theorem alone_context_ok {x : Fallible α} {a : α} (text : String)
    (h : alone c x k = (.ok a, k')) : alone c (context text x) k = (.ok a, k') := by
  rw [context, alone_handle, h]

theorem alone_owning_ok {x : Fallible α} {a : α} (fd : Fd) (h : alone c x k = (.ok a, k')) :
    alone c (owning fd x) k = (.ok a, k') := by
  rw [owning, alone_handle, h]

theorem Fails.handle {x : Fallible α} (h : Fails c x k) (f : Error → Fallible α)
    (throws : ∀ e k', Fails c (f e) k') : Fails c (x.handle f) k := by
  obtain ⟨e, he⟩ := h
  unfold Fails
  rw [alone_handle]
  cases hx : alone c x k with
  | mk r k' =>
    rw [hx] at he
    rw [show r = .error e from he]
    exact throws e k'

theorem fails_throw (e : Error) : Fails c (throw e : Fallible α) k := ⟨e, rfl⟩

theorem Fails.context {x : Fallible α} (text : String) (h : Fails c x k) :
    Fails c (context text x) k := h.handle _ fun _ _ => fails_throw _

theorem Fails.owning {x : Fallible α} (fd : Fd) (h : Fails c x k) : Fails c (owning fd x) k := by
  apply h.handle
  intro e k'
  unfold Fails
  rw [alone_bind]
  exact ⟨e, rfl⟩

theorem Fails.within {x : Fallible α} (fd : Fd) (h : Fails c x k) : Fails c (within fd x) k :=
  (h.owning fd).bind _

theorem not_fails {x : Fallible α} : ¬Fails c x k ↔ ∃ a, (alone c x k).1 = .ok a := by
  unfold Fails
  cases (alone c x k).1 with
  | ok a => simp
  | error e => simp

theorem ensure_ok (cond : Prop) [Decidable cond] (text : String) (h : cond) :
    alone c (ensure cond text) k = (.ok (), k) := by
  rw [ensure, if_pos h]
  rfl

theorem fails_ensure (cond : Prop) [Decidable cond] (text : String) (h : ¬cond) :
    Fails c (ensure cond text) k := by
  rw [ensure, if_neg h]
  exact fails_throw _

/-- A call on a file the client has open goes to that file. -/
theorem on_mine {d : Description} (hd : d ∈ k.view c)
    (f : (d : Description) → d ∈ k.files → Except Errno α × Kernel) :
    k.on c d.id f = f d (Kernel.mem_view.mp hd).1 := by
  have found : k.file c d.id = some d := by
    obtain ⟨e, he, hfind, hid⟩ := FileTable.find_isSome (List.mem_map.mpr ⟨d, hd, rfl⟩)
    have same : e = d :=
      k.consistent.unique (Kernel.mem_view.mp he).1 (Kernel.mem_view.mp hd).1 hid
    rw [Kernel.file, hfind, same]
  unfold Kernel.on
  split
  · rename_i h
    rw [found] at h
    cases h
  · rename_i e h
    obtain rfl : d = e := Option.some.inj (found.symm.trans h)
    rfl

theorem alone_close {d : Description} (hd : d ∈ k.view c) :
    alone c (close d.id) k = (.ok (), k.closed d.id) := by
  have step : alone c (close d.id) k = (.ok (), (k.answer c (.close d.id)).2) := rfl
  rw [step]
  simp only [Kernel.answer]
  split
  · rename_i h
    obtain ⟨e, _, hfind, _⟩ := FileTable.find_isSome (List.mem_map.mpr ⟨d, hd, rfl⟩)
    rw [Kernel.file, hfind] at h
    cases h
  · rename_i e h
    rw [(k.file_mem c h).2]

theorem alone_fstat {d : Description} (hd : d ∈ k.view c) :
    alone c (fstat d.id) k = (.ok ⟨k.fs.kind d.file, k.fs.links d.file⟩, k) := by
  have opens : k.answer c (.fstat d.id) = (.ok ⟨k.fs.kind d.file, k.fs.links d.file⟩, k) :=
    on_mine hd fun d _ => (.ok (Stat.mk (k.fs.kind d.file) (k.fs.links d.file)), k)
  have step : alone c (fstat d.id) k = ((k.answer c (.fstat d.id)).1.mapError
    fun errno => [.os errno], (k.answer c (.fstat d.id)).2) := rfl
  rw [step, opens]
  rfl

theorem alone_within_ok {x : Fallible α} {a : α} {d : Description}
    (h : alone c x k = (.ok a, k')) (hd : d ∈ k'.view c) :
    alone c (within d.id x) k = (.ok a, k'.closed d.id) := by
  unfold within
  rw [alone_bind_ok (alone_owning_ok d.id h), alone_bind_ok (alone_close hd)]
  rfl

theorem opened_mem (k : Kernel) (c : Client) (i : Inode) (lockOf : Option (Inode × OsString)) :
    ⟨k.next, i, ⟨c, lockOf⟩, none⟩ ∈ (k.opened c i lockOf).view c := by
  rw [k.view_opened_self c i lockOf]
  exact List.mem_cons_self

theorem opened_closed_files (k : Kernel) (c : Client) (i : Inode)
    (lockOf : Option (Inode × OsString)) :
    ((k.opened c i lockOf).closed k.next).files = k.files :=
  FileTable.close_head k.files ⟨k.next, i, ⟨c, lockOf⟩, none⟩ k.fresh

end

/-- A step that looks at the working directory only and changes nothing. -/
def ReadsCwd {α : Type} (x : Fallible α) : Prop :=
  ∃ f : OsString → Except Error α, ∀ c k, alone c x k = (f (k.cwd c), k)

section
variable {α β : Type}

theorem reads_except (r : Except Error α) : ReadsCwd (ExceptT.mk (pure r) : Fallible α) :=
  ⟨fun _ => r, fun _ _ => rfl⟩

theorem ReadsCwd.bind {x : Fallible α} {f : α → Fallible β} (h : ReadsCwd x)
    (rest : ∀ a, ReadsCwd (f a)) : ReadsCwd (x >>= f) := by
  obtain ⟨g, hg⟩ := h
  choose r hr using rest
  refine ⟨fun cwd => (g cwd).bind fun a => r a cwd, ?_⟩
  intro c k
  rw [alone_bind, hg c k]
  cases hk : g (k.cwd c) with
  | ok a => simpa only [hk, Except.bind] using hr a c k
  | error e => simp only [hk, Except.bind]

theorem reads_ofOption (found : Option α) (text : String) : ReadsCwd (ofOption found text) := by
  cases found with
  | none => exact reads_except _
  | some a => exact reads_except (.ok a)

theorem reads_ensure (cond : Prop) [Decidable cond] (text : String) :
    ReadsCwd (ensure cond text) := by
  by_cases h : cond
  · exact ⟨fun _ => .ok (), fun c k => ensure_ok cond text h⟩
  · refine ⟨fun _ => .error [.message text], fun c k => ?_⟩
    rw [ensure, if_neg h]
    rfl

theorem reads_absolutePath (value : OsString) : ReadsCwd (absolutePath value) := by
  unfold absolutePath
  split_ifs
  · exact reads_except (.ok value)
  · exact ⟨fun cwd => .ok (join cwd value), fun c k => rfl⟩

theorem reads_normalizedDatabasePath (databaseUrl : OsString) :
    ReadsCwd (normalizedDatabasePath databaseUrl) := by
  unfold normalizedDatabasePath plainPath
  apply ReadsCwd.bind
  · apply (reads_ofOption _ _).bind
    intro value
    apply (reads_ensure _ _).bind
    intro _
    apply (reads_ensure _ _).bind
    intro _
    apply (reads_ensure _ _).bind
    intro _
    exact reads_except (.ok value)
  · intro value
    apply (reads_absolutePath value).bind
    intro absolute
    apply (reads_except (normalize (components absolute))).bind
    intro normalized
    apply (reads_ensure _ _).bind
    intro _
    exact reads_except (.ok normalized)

end

/-- A name that is free or that of one regular file. -/
def OneFile (fs : FileSystem) (dir : Inode) (name : OsString) : Prop :=
  ∀ i ∈ fs.entry dir name, fs.kind i = .regular ∧ fs.links i = 1

/-- The directory and the name a URL leads to, where it leads to a database. -/
def database (k : Kernel) (c : Client) (databaseUrl : OsString) : Option (Inode × OsString) := do
  let names ← (alone c (normalizedDatabasePath databaseUrl) k).1.toOption
  let name ← names.getLast?
  let dir ← (k.fs.walk root names.dropLast).toOption
  return (dir, name)

/-- Open files stand for files there are. -/
def Known (k : Kernel) : Prop := root < k.fs.next ∧ ∀ d ∈ k.files, d.file < k.fs.next

section
variable {c : Client} {k : Kernel}

theorem walk_known {fs : FileSystem} (names : RelativePath) (dir i : Inode)
    (hd : dir < fs.next) (hw : fs.walk dir names = .ok i) : i < fs.next := by
  induction names generalizing dir with
  | nil =>
    obtain rfl : dir = i := Except.ok.inj hw
    exact hd
  | cons name names ih =>
    unfold FileSystem.walk at hw
    rw [List.foldlM_cons, Checks.bind_ok] at hw
    obtain ⟨mid, first, rest⟩ := hw
    refine ih mid ?_ rest
    unfold FileSystem.enter at first
    split at first
    · cases first
    · rename_i j hj
      split at first
      · obtain rfl : j = mid := Except.ok.inj first
        exact fs.below dir name j hj
      · cases first
      · cases first

/-- The check of the entry passes where the name is free or one regular file's. -/
theorem alone_validate {p : Description} (hp : p ∈ k.view c) (name : OsString) :
    (OneFile k.fs p.file name ∧ ∃ k', alone c (validateDatabaseEntry p.id name) k = (.ok (), k') ∧
      k'.fs = k.fs ∧ k'.cwd = k.cwd ∧ k'.files = k.files) ∨
    ¬OneFile k.fs p.file name ∧ Fails c (validateDatabaseEntry p.id name) k := by
  have opens : k.answer c (.openEntry p.id name) = k.openFound c (k.fs.lookup p.file name) :=
    on_mine hp fun d _ => k.openFound c (k.fs.lookup d.file name)
  have asked : alone c (liftM (ask (.openEntry p.id name))) k =
    (.ok (k.answer c (.openEntry p.id name)).1, (k.answer c (.openEntry p.id name)).2) := rfl
  rw [opens] at asked
  unfold validateDatabaseEntry
  cases found : k.fs.entry p.file name with
  | none =>
    refine Or.inl ⟨by simp [OneFile, found], k, ?_, rfl, rfl, rfl⟩
    rw [FileSystem.lookup, found] at asked
    exact alone_bind_ok asked
  | some i =>
    rw [FileSystem.lookup, found] at asked
    have stat := alone_within_ok (alone_fstat (opened_mem k c i none)) (opened_mem k c i none)
    have files := opened_closed_files k c i none
    by_cases one : k.fs.kind i = .regular ∧ k.fs.links i = 1
    · refine Or.inl ⟨by simpa [OneFile, found] using one, (k.opened c i none).closed k.next, ?_,
        rfl, rfl, files⟩
      refine (alone_bind_ok asked).trans ((alone_bind_ok stat).trans ?_)
      exact ensure_ok _ _ one
    · refine Or.inr ⟨by simpa [OneFile, found] using one, ?_⟩
      apply Fails.after asked
      apply Fails.after stat
      exact fails_ensure _ _ one

/-- `resolve` succeeds where the URL leads to a database whose name is free or one regular
file's, and then the directory is one more open file. -/
theorem alone_resolve (k : Kernel) (c : Client) (databaseUrl : OsString) :
    (∃ dir name, database k c databaseUrl = some (dir, name) ∧ OneFile k.fs dir name ∧
      ∃ fd k', alone c (DatabaseLocation.resolve databaseUrl) k = (.ok ⟨fd, name⟩, k') ∧
        k'.fs = k.fs ∧ k'.cwd = k.cwd ∧ k'.files = ⟨fd, dir, ⟨c, none⟩, none⟩ :: k.files) ∨
    (∀ dir name, database k c databaseUrl = some (dir, name) → ¬OneFile k.fs dir name) ∧
      Fails c (DatabaseLocation.resolve databaseUrl) k := by
  obtain ⟨f, hf⟩ := reads_normalizedDatabasePath databaseUrl
  have path := hf c k
  unfold database DatabaseLocation.resolve
  rw [path]
  cases hnames : f (k.cwd c) with
  | error e =>
    rw [hnames] at path
    refine Or.inr ⟨by simp [Except.toOption], Fails.bind ⟨e, ?_⟩ _⟩
    rw [path]
  | ok names =>
    rw [hnames] at path
    cases last : names.getLast? with
    | none =>
      refine Or.inr ⟨by simp [Except.toOption, last], ?_⟩
      apply Fails.after path
      rw [last]
      exact fails_throw _
    | some name =>
      let r : Description := ⟨k.next, root, ⟨c, none⟩, none⟩
      let k₁ := k.opened c root none
      have rootOpen : alone c openRoot k = (.ok r.id, k₁) := rfl
      have hr : r ∈ k₁.view c := opened_mem k c root none
      have opens : k₁.answer c (.openDirectory r.id names.dropLast) =
          k₁.openFound c (k.fs.walk root names.dropLast) :=
        on_mine hr fun d _ => k₁.openFound c (k₁.fs.walk d.file names.dropLast)
      have opened : alone c (openDirectory r.id names.dropLast) k₁ =
        ((k₁.answer c (.openDirectory r.id names.dropLast)).1.mapError fun errno => [.os errno],
          (k₁.answer c (.openDirectory r.id names.dropLast)).2) := rfl
      rw [opens] at opened
      cases walked : k.fs.walk root names.dropLast with
      | error errno =>
        refine Or.inr ⟨by simp [Except.toOption, last, walked], ?_⟩
        apply Fails.after path
        rw [last]
        apply Fails.after rootOpen
        apply Fails.within
        apply Fails.bind
        apply Fails.context
        rw [walked] at opened
        exact ⟨[.os errno], by rw [opened]; rfl⟩
      | ok dir =>
        rw [walked] at opened
        let p : Description := ⟨k₁.next, dir, ⟨c, none⟩, none⟩
        let k₂ := k₁.opened c dir none
        have parent := alone_context_ok
          "open SQLite database parent without following symbolic links"
          (show alone c (openDirectory r.id names.dropLast) k₁ = (.ok p.id, k₂) from opened)
        have hp : p ∈ k₂.view c := opened_mem k₁ c dir none
        rcases alone_validate hp name with ⟨one, k₃, valid, hfs, hcwd, hfiles⟩ | ⟨one, fails⟩
        · refine Or.inl ⟨dir, name, by simp [Except.toOption, last, walked], one, p.id,
            k₃.closed r.id, ?_, hfs, hcwd, ?_⟩
          · refine (alone_bind_ok path).trans ?_
            rw [last]
            refine (alone_bind_ok rootOpen).trans ?_
            apply alone_within_ok
            · refine (alone_bind_ok parent).trans ?_
              exact alone_bind_ok (alone_owning_ok p.id valid)
            · rw [Kernel.mem_view, hfiles]
              exact ⟨List.mem_cons_of_mem _ List.mem_cons_self, rfl⟩
          · have apart : p.id ≠ r.id := Nat.succ_ne_self k.next
            show FileTable.close k₃.files r.id = _
            rw [hfiles]
            show FileTable.close (p :: r :: k.files) r.id = _
            rw [FileTable.close_cons _ p r.id apart, FileTable.close_head k.files r k.fresh]
        · refine Or.inr ⟨?_, ?_⟩
          · intro dir' name' h
            obtain ⟨rfl, rfl⟩ : dir = dir' ∧ name = name' := by
              simpa [Except.toOption, last, walked] using h
            exact one
          apply Fails.after path
          rw [last]
          apply Fails.after rootOpen
          apply Fails.within
          apply Fails.after parent
          exact (fails.owning p.id).bind _

/-- What `acquire` does once the lock file is open. -/
theorem alone_lockOpened {d : Description} (hd : d ∈ k.view c) (kind : LockMode) :
    (∃ free : ¬k.files.Blocked d kind, (k.fs.kind d.file = .regular ∧ k.fs.links d.file = 1) ∧
      alone c (lockOpened d.id kind) k = (.ok d.id, k.locked d (Kernel.mem_view.mp hd).1 kind free)) ∨
    ¬(k.fs.kind d.file = .regular ∧ k.fs.links d.file = 1 ∧ ¬k.files.Blocked d kind) ∧
      Fails c (lockOpened d.id kind) k := by
  unfold lockOpened
  have stat := alone_fstat hd
  have asked : alone c (liftM (ask (.flock d.id kind))) k =
    (.ok (k.answer c (.flock d.id kind)).1, (k.answer c (.flock d.id kind)).2) := rfl
  have locks : k.answer c (.flock d.id kind) = k.flock d (Kernel.mem_view.mp hd).1 kind :=
    on_mine hd fun d hd => k.flock d hd kind
  by_cases one : k.fs.kind d.file = .regular ∧ k.fs.links d.file = 1
  · by_cases free : k.files.Blocked d kind
    · refine Or.inr ⟨fun h => h.2.2 free, ?_⟩
      apply Fails.after stat
      apply Fails.after (ensure_ok _ _ one)
      rw [locks, Kernel.flock, dif_pos free] at asked
      exact Fails.after asked (fails_throw _)
    · refine Or.inl ⟨free, one, ?_⟩
      rw [locks, Kernel.flock, dif_neg free] at asked
      exact (alone_bind_ok stat).trans ((alone_bind_ok (ensure_ok _ _ one)).trans
        (alone_bind_ok asked))
  · refine Or.inr ⟨fun h => one ⟨h.1, h.2.1⟩, ?_⟩
    apply Fails.after stat
    exact (fails_ensure _ _ one).bind _

end

/-- The file system once a lock file of this name is there. -/
def FileSystem.touch (fs : FileSystem) (dir : Inode) (name : OsString) : FileSystem :=
  match fs.entry dir name with
  | none => fs.create dir name
  | some _ => fs

/-- A lock of this kind can be had under this name. -/
def Free (k : Kernel) (dir : Inode) (name : OsString) (kind : LockMode) : Prop :=
  ∀ i ∈ k.fs.entry dir name, k.fs.kind i = .regular ∧ k.fs.links i = 1 ∧
    ∀ e ∈ k.files, e.file = i → ∀ m ∈ e.lock, kind.conflicts m = false

/-- The client got the lock: one more open file, locked, and the lock file is there. -/
structure Took (k k' : Kernel) (c : Client) (dir : Inode) (name : OsString) (kind : LockMode)
    (fd : Fd) : Prop where
  cwd : k'.cwd = k.cwd
  fs : k'.fs = k.fs.touch dir name
  files : ∃ i, k'.fs.entry dir name = some i ∧
    k'.files = ⟨fd, i, ⟨c, some (dir, name)⟩, some kind⟩ :: k.files

theorem blocked_head {t : FileTable Fd Inode Opened} {d : Description} (fresh : d.id ∉ t.ids)
    (kind : LockMode) : FileTable.Blocked (d :: t) d kind ↔
      ∃ e ∈ t, e.file = d.file ∧ ∃ m ∈ e.lock, kind.conflicts m := by
  constructor
  · intro h
    obtain ⟨e, he, hne, hfile, hm⟩ := h
    rcases List.mem_cons.mp he with rfl | he
    · exact absurd rfl hne
    · exact ⟨e, he, hfile, hm⟩
  · intro h
    obtain ⟨e, he, hfile, hm⟩ := h
    refine ⟨e, List.mem_cons_of_mem _ he, ?_, hfile, hm⟩
    exact fun same => fresh (same ▸ List.mem_map.mpr ⟨e, he, rfl⟩)

theorem not_free {k : Kernel} {dir i : Inode} {name : OsString} {kind : LockMode}
    (found : k.fs.entry dir name = some i) (h : k.fs.kind i ≠ .regular) : ¬Free k dir name kind :=
  fun free => h (free i found).1

/-- The case of a lock file that was there before and could be opened. -/
theorem alone_acquire_existing {k : Kernel} {c : Client} {parent : Fd} {dir i : Inode}
    {name : OsString} {kind : LockMode} (found : k.fs.entry dir name = some i)
    (opened : alone c (openLock parent name) k = (.ok k.next, k.opened c i (some (dir, name)))) :
    let x := do
      let fd ← context "open Host Monitoring database lock without following symbolic links"
        (openLock parent name)
      owning fd (lockOpened fd kind)
    (Free k dir name kind ∧ ∃ fd k', alone c x k = (.ok fd, k') ∧ Took k k' c dir name kind fd) ∨
      ¬Free k dir name kind ∧ Fails c x k := by
  intro x
  have atLock := alone_context_ok
    "open Host Monitoring database lock without following symbolic links" opened
  rcases alone_lockOpened (opened_mem k c i (some (dir, name))) kind with
    ⟨free, one, locked⟩ | ⟨no, fails⟩
  · refine Or.inl ⟨?_, _, _, (alone_bind_ok atLock).trans (alone_owning_ok _ locked), rfl, ?_, i,
      found, FileTable.setLock_head k.files _ kind k.fresh⟩
    · intro j hj
      obtain rfl : i = j := Option.some.inj (found.symm.trans hj)
      refine ⟨one.1, one.2, ?_⟩
      intro e he hfile m hm
      by_contra conflict
      exact free ((blocked_head k.fresh kind).mpr ⟨e, he, hfile, m, hm, by simpa using conflict⟩)
    · show k.fs = _
      simp only [FileSystem.touch, found]
  · refine Or.inr ⟨?_, ?_⟩
    · intro free
      obtain ⟨regular, single, clear⟩ := free i found
      refine no ⟨regular, single, ?_⟩
      intro blocked
      obtain ⟨e, he, hfile, m, hm, conflict⟩ := (blocked_head k.fresh kind).mp blocked
      rw [clear e he hfile m hm] at conflict
      cases conflict
    · exact Fails.after atLock (fails.owning _)

/-- `acquire` succeeds where the lock is free. -/
theorem alone_acquire {k : Kernel} {c : Client} (known : Known k) {p : Description}
    (hp : p ∈ k.view c) (location : DatabaseLocation) (parent : p.id = location.parent)
    (suffix : String) (kind : LockMode) :
    (Free k p.file (lockName location.databaseName suffix) kind ∧
      ∃ fd k', alone c (location.acquire suffix kind) k = (.ok fd, k') ∧
        Took k k' c p.file (lockName location.databaseName suffix) kind fd) ∨
    ¬Free k p.file (lockName location.databaseName suffix) kind ∧
      Fails c (location.acquire suffix kind) k := by
  unfold DatabaseLocation.acquire
  rw [← parent]
  generalize lockName location.databaseName suffix = name
  have opens : k.answer c (.openLock p.id name) = k.openLock c p.file name :=
    on_mine hp fun d _ => k.openLock c d.file name
  have opened : alone c (openLock p.id name) k =
    ((k.answer c (.openLock p.id name)).1.mapError fun errno => [.os errno],
      (k.answer c (.openLock p.id name)).2) := rfl
  rw [opens, Kernel.openLock] at opened
  cases found : k.fs.entry p.file name with
  | none =>
    simp only [found] at opened
    have atLock := alone_context_ok
      "open Host Monitoring database lock without following symbolic links" opened
    let k₀ : Kernel := { k with fs := k.fs.create p.file name }
    have hd := opened_mem k₀ c k.fs.next (some (p.file, name))
    rcases alone_lockOpened hd kind with ⟨free, one, locked⟩ | ⟨no, _⟩
    · refine Or.inl ⟨by simp [Free, found], _, _, (alone_bind_ok atLock).trans
        (alone_owning_ok _ locked), rfl, ?_, k.fs.next, ?_, ?_⟩
      · simp only [FileSystem.touch, found]
        rfl
      · show (k.fs.create p.file name).entry p.file name = _
        simp [FileSystem.create]
      · exact FileTable.setLock_head k.files _ kind k.fresh
    · refine absurd ⟨?_, ?_, ?_⟩ no
      · show (k.fs.create p.file name).kind k.fs.next = _
        simp [FileSystem.create]
      · show (k.fs.create p.file name).links k.fs.next = _
        simp [FileSystem.create]
      · intro blocked
        obtain ⟨e, he, hfile, _⟩ := (blocked_head k.fresh kind).mp blocked
        exact absurd (hfile ▸ known.2 e he) (Nat.lt_irrefl _)
  | some i =>
    simp only [found] at opened
    cases isKind : k.fs.kind i with
    | symlink =>
      refine Or.inr ⟨not_free found (by simp [isKind]), ?_⟩
      simp only [isKind] at opened
      exact (Fails.context _ ⟨_, congrArg Prod.fst opened⟩).bind _
    | directory =>
      refine Or.inr ⟨not_free found (by simp [isKind]), ?_⟩
      simp only [isKind] at opened
      exact (Fails.context _ ⟨_, congrArg Prod.fst opened⟩).bind _
    | regular =>
      simp only [isKind] at opened
      exact alone_acquire_existing found opened
    | special =>
      simp only [isKind] at opened
      exact alone_acquire_existing found opened

section
variable (fs : FileSystem) (dir : Inode) (name : OsString)

theorem touch_old (i : Inode) (h : i < fs.next) :
    (fs.touch dir name).kind i = fs.kind i ∧ (fs.touch dir name).links i = fs.links i := by
  have other : i ≠ fs.next := Nat.ne_of_lt h
  unfold FileSystem.touch
  split
  · simp [FileSystem.create, other]
  · exact ⟨rfl, rfl⟩

theorem touch_next : fs.next ≤ (fs.touch dir name).next := by
  unfold FileSystem.touch
  split
  · exact Nat.le_succ fs.next
  · exact Nat.le_refl _

theorem touch_entry (dir' : Inode) (name' : OsString) (i : Inode)
    (h : fs.entry dir' name' = some i) : (fs.touch dir name).entry dir' name' = some i := by
  unfold FileSystem.touch
  split
  · rename_i free
    have other : ¬(dir' = dir ∧ name' = name) := by
      intro same
      rw [same.1, same.2, free] at h
      cases h
    simp [FileSystem.create, other, h]
  · exact h

/-- What is new leads to a new regular file of one name. -/
theorem touch_entry_cases (dir' : Inode) (name' : OsString) (i : Inode)
    (h : (fs.touch dir name).entry dir' name' = some i) :
    fs.entry dir' name' = some i ∨ dir' = dir ∧ name' = name ∧ fs.entry dir name = none ∧
      (fs.touch dir name).kind i = .regular ∧ (fs.touch dir name).links i = 1 := by
  unfold FileSystem.touch at h ⊢
  split at h
  · rename_i free
    by_cases new : dir' = dir ∧ name' = name
    · rw [FileSystem.create] at h
      simp only [if_pos new, Option.some.injEq] at h
      exact Or.inr ⟨new.1, new.2, free, by simp [FileSystem.create, h]⟩
    · rw [FileSystem.create] at h
      simp only [if_neg new] at h
      exact Or.inl h
  · exact Or.inl h

theorem touch_entry_other (dir' : Inode) (name' : OsString) (h : (dir', name') ≠ (dir, name)) :
    (fs.touch dir name).entry dir' name' = fs.entry dir' name' := by
  cases found : fs.entry dir' name' with
  | some i => exact touch_entry fs dir name dir' name' i found
  | none =>
    cases new : (fs.touch dir name).entry dir' name' with
    | none => rfl
    | some i =>
      rcases touch_entry_cases fs dir name dir' name' i new with old | ⟨hd, hn, _⟩
      · rw [found] at old
        cases old
      · exact absurd (by rw [hd, hn]) h

theorem enter_ok (dir' i : Inode) (name' : OsString) :
    fs.enter dir' name' = .ok i ↔ fs.entry dir' name' = some i ∧ fs.kind i = .directory := by
  unfold FileSystem.enter
  split
  · rename_i h
    simp [h]
  · rename_i j h
    rw [h, Option.some.injEq]
    constructor
    · intro he
      split at he
      · rename_i isDir
        obtain rfl : j = i := Except.ok.inj he
        exact ⟨rfl, isDir⟩
      · cases he
      · cases he
    · intro he
      obtain ⟨rfl, isDir⟩ := he
      simp [isDir]

/-- A lock file is no directory on anybody's way. -/
theorem enter_touch (dir' i : Inode) (name' : OsString) :
    (fs.touch dir name).enter dir' name' = .ok i ↔ fs.enter dir' name' = .ok i := by
  rw [enter_ok, enter_ok]
  constructor
  · intro h
    rcases touch_entry_cases fs dir name dir' name' i h.1 with old | ⟨_, _, _, regular, _⟩
    · rw [(touch_old fs dir name i (fs.below dir' name' i old)).1] at h
      exact ⟨old, h.2⟩
    · rw [regular] at h
      cases h.2
  · intro h
    rw [(touch_old fs dir name i (fs.below dir' name' i h.1)).1]
    exact ⟨touch_entry fs dir name dir' name' i h.1, h.2⟩

theorem walk_touch (names : RelativePath) (from_ i : Inode) :
    (fs.touch dir name).walk from_ names = .ok i ↔ fs.walk from_ names = .ok i := by
  unfold FileSystem.walk
  induction names generalizing from_ with
  | nil => exact Iff.rfl
  | cons first names ih =>
    rw [List.foldlM_cons, List.foldlM_cons, Checks.bind_ok, Checks.bind_ok]
    apply exists_congr
    intro mid
    rw [enter_touch, ih]

theorem oneFile_touch (dir' : Inode) (name' : OsString) :
    OneFile (fs.touch dir name) dir' name' ↔ OneFile fs dir' name' := by
  constructor
  · intro h i hi
    have old := touch_old fs dir name i (fs.below dir' name' i hi)
    have one := h i (touch_entry fs dir name dir' name' i hi)
    rwa [old.1, old.2] at one
  · intro h i hi
    rcases touch_entry_cases fs dir name dir' name' i hi with found | ⟨_, _, _, regular, single⟩
    · have old := touch_old fs dir name i (fs.below dir' name' i found)
      rw [old.1, old.2]
      exact h i found
    · exact ⟨regular, single⟩

end

theorem ok_iff_toOption {α : Type} {x y : Except Errno α}
    (h : ∀ a, x = .ok a ↔ y = .ok a) : x.toOption = y.toOption := by
  cases x with
  | ok a =>
    rw [(h a).mp rfl]
  | error e =>
    cases y with
    | ok b => cases (h b).mpr rfl
    | error e' => rfl

theorem database_congr {k k' : Kernel}
    (walk : ∀ names i, k'.fs.walk root names = .ok i ↔ k.fs.walk root names = .ok i)
    (cwd : k'.cwd = k.cwd) (c : Client) (databaseUrl : OsString) :
    database k' c databaseUrl = database k c databaseUrl := by
  obtain ⟨f, hf⟩ := reads_normalizedDatabasePath databaseUrl
  have same : ∀ names, (k'.fs.walk root names).toOption = (k.fs.walk root names).toOption :=
    fun names => ok_iff_toOption (walk names)
  unfold database
  simp only [hf, cwd, same]

theorem Took.known {k k' : Kernel} {c : Client} {dir : Inode} {name : OsString} {kind : LockMode}
    {fd : Fd} (took : Took k k' c dir name kind fd) (known : Known k) : Known k' := by
  have grew := touch_next k.fs dir name
  rw [← took.fs] at grew
  refine ⟨Nat.lt_of_lt_of_le known.1 grew, ?_⟩
  obtain ⟨i, hi, files⟩ := took.files
  rw [files]
  intro d hd
  rcases List.mem_cons.mp hd with rfl | hd
  · exact k'.fs.below dir name i hi
  · exact Nat.lt_of_lt_of_le (known.2 d hd) grew

/-- A lock taken under one name is no hindrance under another. -/
theorem Took.free_other {k k' : Kernel} {c : Client} {dir : Inode} {name : OsString}
    {kind : LockMode} {fd : Fd} (took : Took k k' c dir name kind fd) {dir' : Inode}
    {name' : OsString} (h : (dir', name') ≠ (dir, name)) (kind' : LockMode) :
    Free k' dir' name' kind' ↔ Free k dir' name' kind' := by
  obtain ⟨i, hi, files⟩ := took.files
  have entry : k'.fs.entry dir' name' = k.fs.entry dir' name' := by
    rw [took.fs, touch_entry_other k.fs dir name dir' name' h]
  unfold Free
  rw [entry, files]
  apply forall₂_congr
  intro j hj
  have old := touch_old k.fs dir name j (k.fs.below dir' name' j hj)
  rw [← took.fs] at old
  rw [old.1, old.2]
  apply and_congr_right
  intro _
  apply and_congr_right
  intro single
  rw [List.forall_mem_cons]
  constructor
  · exact fun all => all.2
  · intro all
    refine ⟨?_, all⟩
    intro same
    have one := k'.fs.single j (old.2.trans single) dir' name' dir name (entry.trans hj)
      (hi.trans (congrArg some same))
    exact absurd (Prod.ext one.1 one.2) h

theorem suffixes_differ : ¬bytes instanceSuffix <:+ bytes maintenanceSuffix ∧
    ¬bytes maintenanceSuffix <:+ bytes instanceSuffix := by decide +kernel

theorem lockName_kinds (name name' : OsString) :
    lockName name instanceSuffix ≠ lockName name' maintenanceSuffix := by
  intro h
  have first : bytes instanceSuffix <:+ lockName name instanceSuffix := List.suffix_append _ _
  have second : bytes maintenanceSuffix <:+ lockName name instanceSuffix :=
    h ▸ List.suffix_append _ _
  rcases List.suffix_or_suffix_of_suffix first second with h | h
  · exact suffixes_differ.1 h
  · exact suffixes_differ.2 h

theorem lockName_inj {name name' : OsString} {suffix : String}
    (h : lockName name suffix = lockName name' suffix) : name = name' :=
  List.append_cancel_left (List.append_cancel_right h)

/-- A server could start on this database now. -/
def Startable (k : Kernel) (dir : Inode) (name : OsString) : Prop :=
  OneFile k.fs dir name ∧ Free k dir (lockName name instanceSuffix) .exclusive ∧
    Free k dir (lockName name maintenanceSuffix) .shared

/-- What a started server leaves behind. -/
structure Serves (k k' : Kernel) (c : Client) (dir : Inode) (name : OsString) : Prop where
  path : ∃ k₀ k₁ parent fd fd', k₀.fs = k.fs ∧ k₀.cwd = k.cwd ∧
    k₀.files = ⟨parent, dir, ⟨c, none⟩, none⟩ :: k.files ∧
    Took k₀ k₁ c dir (lockName name instanceSuffix) .exclusive fd ∧
    Took k₁ k' c dir (lockName name maintenanceSuffix) .shared fd'

/-- An unlocked open file is no hindrance. -/
theorem free_opened {k k' : Kernel} {d : Description} (fs : k'.fs = k.fs)
    (files : k'.files = d :: k.files) (unlocked : d.lock = none) (dir : Inode) (name : OsString)
    (kind : LockMode) : Free k' dir name kind ↔ Free k dir name kind := by
  unfold Free
  rw [fs, files]
  apply forall₂_congr
  intro i _
  apply and_congr_right
  intro _
  apply and_congr_right
  intro _
  rw [List.forall_mem_cons]
  constructor
  · exact fun all => all.2
  · exact fun all => ⟨fun _ m hm => (by rw [unlocked] at hm; cases hm), all⟩

theorem database_known {k : Kernel} (known : Known k) {c : Client} {databaseUrl : OsString}
    {dir : Inode} {name : OsString} (h : database k c databaseUrl = some (dir, name)) :
    dir < k.fs.next := by
  unfold database at h
  simp only [Option.bind_eq_bind, Option.bind_eq_some_iff] at h
  obtain ⟨names, _, last, _, i, walked, same⟩ := h
  obtain ⟨rfl, rfl⟩ : i = dir ∧ last = name := by simpa using same
  cases hw : k.fs.walk root names.dropLast with
  | error e =>
    rw [hw] at walked
    cases walked
  | ok j =>
    rw [hw] at walked
    obtain rfl : j = i := Option.some.inj walked
    exact walk_known names.dropLast root j known.1 hw

/-- A server starts where the database is in order and neither lock is in its way, and only
there. -/
theorem alone_application {k : Kernel} (known : Known k) (c : Client) (databaseUrl : OsString) :
    (∃ dir name, database k c databaseUrl = some (dir, name) ∧ Startable k dir name ∧
      ∃ lock k', alone c (ApplicationLock.acquire databaseUrl) k = (.ok lock, k') ∧
        Serves k k' c dir name) ∨
    (∀ dir name, database k c databaseUrl = some (dir, name) → ¬Startable k dir name) ∧
      Fails c (ApplicationLock.acquire databaseUrl) k := by
  unfold ApplicationLock.acquire
  rcases alone_resolve k c databaseUrl with
    ⟨dir, name, found, one, parent, k₀, resolved, fs, cwd, files⟩ | ⟨no, fails⟩
  · let p : Description := ⟨parent, dir, ⟨c, none⟩, none⟩
    have hp : p ∈ k₀.view c := by
      rw [Kernel.mem_view, files]
      exact ⟨List.mem_cons_self, rfl⟩
    have known₀ : Known k₀ := by
      unfold Known
      rw [fs, files, List.forall_mem_cons]
      exact ⟨known.1, database_known known found, known.2⟩
    rcases alone_acquire known₀ hp ⟨parent, name⟩ rfl instanceSuffix .exclusive with
      ⟨free, fd, k₁, locked, took⟩ | ⟨held, fails⟩
    · have known₁ := took.known known₀
      have hp₁ : p ∈ k₁.view c := by
        obtain ⟨i, _, files₁⟩ := took.files
        rw [Kernel.mem_view, files₁]
        exact ⟨List.mem_cons_of_mem _ (Kernel.mem_view.mp hp).1, rfl⟩
      have apart : (dir, lockName name maintenanceSuffix) ≠ (dir, lockName name instanceSuffix) :=
        fun same => lockName_kinds name name (congrArg Prod.snd same).symm
      have freeIff : Free k₁ dir (lockName name maintenanceSuffix) .shared ↔
          Free k dir (lockName name maintenanceSuffix) .shared :=
        (took.free_other apart .shared).trans (free_opened fs files rfl dir _ .shared)
      rw [free_opened fs files rfl] at free
      have first := alone_context_ok "another Host Monitoring process already owns this database"
        locked
      rcases alone_acquire known₁ hp₁ ⟨parent, name⟩ rfl maintenanceSuffix .shared with
        ⟨free', fd', k₂, locked', took'⟩ | ⟨held, fails⟩
      · refine Or.inl ⟨dir, name, found, ⟨one, free, freeIff.mp free'⟩, ⟨⟨parent, name⟩, fd, fd'⟩,
          k₂, ?_, ⟨k₀, k₁, parent, fd, fd', fs, cwd, files, took, took'⟩⟩
        refine (alone_bind_ok resolved).trans (alone_owning_ok parent ?_)
        refine (alone_bind_ok first).trans (alone_owning_ok fd ?_)
        exact alone_bind_ok (alone_context_ok _ locked')
      · refine Or.inr ⟨?_, ?_⟩
        · intro dir' name' h startable
          obtain ⟨rfl, rfl⟩ : dir = dir' ∧ name = name' := by
            simpa using found.symm.trans h
          exact held (freeIff.mpr startable.2.2)
        · apply Fails.after resolved
          apply Fails.owning
          apply Fails.after first
          apply Fails.owning
          exact (fails.context _).bind _
    · refine Or.inr ⟨?_, ?_⟩
      · intro dir' name' h startable
        obtain ⟨rfl, rfl⟩ : dir = dir' ∧ name = name' := by
          simpa using found.symm.trans h
        exact held ((free_opened fs files rfl dir _ _).mpr startable.2.1)
      · apply Fails.after resolved
        apply Fails.owning
        exact (fails.context _).bind _
  · exact Or.inr ⟨fun dir name h startable => no dir name h startable.1, fails.bind _⟩

theorem acquires_iff {k : Kernel} (known : Known k) (c : Client) (databaseUrl : OsString) :
    (∃ lock, (alone c (ApplicationLock.acquire databaseUrl) k).1 = .ok lock) ↔
      ∃ dir name, database k c databaseUrl = some (dir, name) ∧ Startable k dir name := by
  rcases alone_application known c databaseUrl with
    ⟨dir, name, found, startable, lock, k', run, _⟩ | ⟨no, fails⟩
  · rw [run]
    exact ⟨fun _ => ⟨dir, name, found, startable⟩, fun _ => ⟨lock, rfl⟩⟩
  · constructor
    · exact fun ok => absurd fails (not_fails.mpr ok)
    · intro h
      obtain ⟨dir, name, found, startable⟩ := h
      exact absurd startable (no dir name found)

section
variable {k k' : Kernel} {c : Client} {dir : Inode} {name : OsString}

theorem Serves.known (serves : Serves k k' c dir name) (known : Known k)
    (hdir : dir < k.fs.next) : Known k' := by
  obtain ⟨k₀, k₁, parent, fd, fd', fs, cwd, files, took, took'⟩ := serves.path
  have known₀ : Known k₀ := by
    unfold Known
    rw [fs, files, List.forall_mem_cons]
    exact ⟨known.1, hdir, known.2⟩
  exact took'.known (took.known known₀)

theorem Serves.database (serves : Serves k k' c dir name) (u : Client) (otherUrl : OsString) :
    database k' u otherUrl = database k u otherUrl := by
  obtain ⟨k₀, k₁, parent, fd, fd', fs, cwd, files, took, took'⟩ := serves.path
  apply database_congr
  · intro names i
    rw [took'.fs, walk_touch, took.fs, walk_touch, fs]
  · rw [took'.cwd, took.cwd, cwd]

/-- The names of two locks differ unless both the database and the kind are the same. -/
theorem lock_apart {dir dir' : Inode} {name name' : OsString} (h : (dir', name') ≠ (dir, name)) :
    ∀ suffix ∈ [instanceSuffix, maintenanceSuffix],
      ∀ suffix' ∈ [instanceSuffix, maintenanceSuffix],
        (dir', lockName name' suffix') ≠ (dir, lockName name suffix) := by
  have same : ∀ suffix, (dir', lockName name' suffix) ≠ (dir, lockName name suffix) := by
    intro suffix he
    have hn := lockName_inj (congrArg Prod.snd he)
    exact h (by rw [show dir' = dir from congrArg Prod.fst he, hn])
  simp only [List.forall_mem_cons, List.not_mem_nil, false_imp_iff, implies_true, and_true]
  refine ⟨⟨same _, ?_⟩, ?_, same _⟩
  · exact fun he => lockName_kinds name name' (congrArg Prod.snd he).symm
  · exact fun he => lockName_kinds name' name (congrArg Prod.snd he)

theorem Serves.startable_iff (serves : Serves k k' c dir name) (dir' : Inode) (name' : OsString) :
    Startable k' dir' name' ↔ Startable k dir' name' ∧ (dir', name') ≠ (dir, name) := by
  obtain ⟨k₀, k₁, parent, fd, fd', fs, cwd, files, took, took'⟩ := serves.path
  by_cases same : (dir', name') = (dir, name)
  · obtain ⟨rfl, rfl⟩ : dir' = dir ∧ name' = name := by simpa using same
    constructor
    · intro startable
      -- the instance lock of the first server is in the way
      obtain ⟨i, hi, files₁⟩ := took.files
      obtain ⟨j, _, files'⟩ := took'.files
      have entry : k'.fs.entry dir' (lockName name' instanceSuffix) = some i := by
        rw [took'.fs]
        exact touch_entry _ _ _ _ _ _ hi
      have clear := (startable.2.1 i entry).2.2
      rw [files', files₁] at clear
      have conflict := clear _ (List.mem_cons_of_mem _ List.mem_cons_self) rfl .exclusive rfl
      cases conflict
    · exact fun h => absurd same h.2
  · have apart := lock_apart same
    have free : ∀ suffix' ∈ [instanceSuffix, maintenanceSuffix], ∀ kind,
        Free k' dir' (lockName name' suffix') kind ↔ Free k dir' (lockName name' suffix') kind := by
      intro suffix' hs kind
      rw [took'.free_other (apart maintenanceSuffix (by simp) suffix' hs) kind,
        took.free_other (apart instanceSuffix (by simp) suffix' hs) kind,
        free_opened fs files rfl]
    unfold Startable
    rw [free instanceSuffix (by simp), free maintenanceSuffix (by simp), took'.fs, oneFile_touch,
      took.fs, oneFile_touch, fs]
    exact ⟨fun h => ⟨h, same⟩, fun h => h.1⟩

end

/-- A program that keeps the contract ends as it promises when no other client comes between. -/
theorem run_meets {α : Type} (c : Client) {post : α → FileTable Fd Inode Opened → Prop}
    (p : Program Call Answer α) (k : Kernel) (h : p.Meets contract post (k.view c)) :
    post (p.run (Kernel.answer c) k).1 ((p.run (Kernel.answer c) k).2.view c) := by
  induction p generalizing k with
  | done a => exact h
  | call o next ih => exact ih _ _ (h.2 _ _ (answer_own c o k))

/-- What the other clients have open is not its business. -/
theorem run_frame {α : Type} (c u : Client) (p : Program Call Answer α) (k : Kernel) (h : u ≠ c) :
    (p.run (Kernel.answer c) k).2.view u = k.view u := by
  induction p generalizing k with
  | done a => rfl
  | call o next ih => exact (ih _ _).trans (answer_frame c u o k h)

/-- A refused start closes all that it has opened. -/
theorem refused_frame (c : Client) (databaseUrl : OsString) (k : Kernel) (idle : k.view c = [])
    (refused : Fails c (ApplicationLock.acquire databaseUrl) k) (u : Client) :
    (alone c (ApplicationLock.acquire databaseUrl) k).2.view u = k.view u := by
  by_cases own : u = c
  · subst own
    obtain ⟨e, he⟩ := refused
    have kept := keeps_applicationLock databaseUrl
    rw [← idle] at kept
    have ends := run_meets u _ k kept
    change Ends _ _ (alone u (ApplicationLock.acquire databaseUrl) k).1 _ at ends
    rw [he] at ends
    exact ends
  · exact run_frame c u _ k own

/-- Right after a server has started, a second start succeeds where it would have succeeded
without the first, except on the same database, however its path is written. -/
theorem starts_beside {k k₁ : Kernel} (known : Known k) {c : Client} {databaseUrl : OsString}
    {lock : ApplicationLock}
    (first : alone c (ApplicationLock.acquire databaseUrl) k = (.ok lock, k₁)) (u : Client)
    (otherUrl : OsString) :
    (∃ lock', (alone u (ApplicationLock.acquire otherUrl) k₁).1 = .ok lock') ↔
      (∃ lock', (alone u (ApplicationLock.acquire otherUrl) k).1 = .ok lock') ∧
        database k u otherUrl ≠ database k c databaseUrl := by
  rcases alone_application known c databaseUrl with
    ⟨dir, name, found, _, lock', k', run, serves⟩ | ⟨_, fails⟩
  · obtain rfl : k₁ = k' := congrArg Prod.snd (first.symm.trans run)
    rw [acquires_iff known, acquires_iff (serves.known known (database_known known found)),
      serves.database, found]
    constructor
    · intro h
      obtain ⟨dir', name', found', startable⟩ := h
      obtain ⟨startable, apart⟩ := (serves.startable_iff dir' name').mp startable
      refine ⟨⟨dir', name', found', startable⟩, ?_⟩
      rw [found']
      exact fun same => apart (Option.some.inj same)
    · intro h
      obtain ⟨⟨dir', name', found', startable⟩, apart⟩ := h
      refine ⟨dir', name', found', (serves.startable_iff dir' name').mpr ⟨startable, ?_⟩⟩
      exact fun same => apart (found'.trans (congrArg some same))
  · exact absurd fails (not_fails.mpr ⟨lock, by rw [first]⟩)

/-- The instance lock of a server at work is in the way. -/
theorem Works.not_startable {P : Pool Client Call Answer Kernel} (h : Reachable P) {c : Client}
    {lock : ApplicationLock} {dir : Inode} {name : OsString}
    (works : Works P c (.application lock) dir name) : ¬Startable P.shared dir name := by
  intro startable
  obtain ⟨d, hd, isLock, mode⟩ := works.instanceLock h
  have hdFiles := (Kernel.mem_view.mp hd).1
  have place := h.inPlace d hdFiles _ isLock
  have clear := (startable.2.1 d.file place).2.2 d hdFiles rfl .exclusive mode
  cases clear

/-- While a server is at work on a database, a second server that starts on it, however its path
is written, is refused, and leaves what every client has open, and its locks, as they were. -/
theorem second_server {P : Pool Client Call Answer Kernel} (h : Reachable P)
    (known : Known P.shared) {c : Client} {lock : ApplicationLock} {dir : Inode} {name : OsString}
    (works : Works P c (.application lock) dir name) (u : Client) (idle : P.shared.view u = [])
    (otherUrl : OsString) (same : database P.shared u otherUrl = some (dir, name)) :
    Fails u (ApplicationLock.acquire otherUrl) P.shared ∧
      ∀ w, (alone u (ApplicationLock.acquire otherUrl) P.shared).2.view w = P.shared.view w := by
  have refused : Fails u (ApplicationLock.acquire otherUrl) P.shared := by
    rcases alone_application known u otherUrl with ⟨dir', name', found, startable, _⟩ | ⟨_, fails⟩
    · obtain ⟨rfl, rfl⟩ : dir = dir' ∧ name = name' := by simpa using same.symm.trans found
      exact absurd startable (works.not_startable h)
    · exact fails
  exact ⟨refused, refused_frame u otherUrl P.shared idle refused⟩

/-- A server is at work on `/a` and a doctor beside it; one on `/./a` is refused. -/
theorem second_server_booted :
    Fails 2 (ApplicationLock.acquire (bytes "sqlite:/./a")) servingAndDoctor.shared ∧
      ∀ w, (alone 2 (ApplicationLock.acquire (bytes "sqlite:/./a")) servingAndDoctor.shared).2.view w =
        servingAndDoctor.shared.view w :=
  second_server servingAndDoctor_reachable (by unfold Known; decide +kernel) server_works 2
    (by decide +kernel) (bytes "sqlite:/./a") (by decide +kernel)

end HostMonitoring.Locks
