import HostMonitoring.Locks.Acquire
import HostMonitoring.Locks.Isolation

namespace HostMonitoring.Locks

open Framework Release

/-- What a client has open. -/
abbrev View := FileTable Fd Inode Opened

abbrev Fallible.Keeps {α : Type} (good : α → View → Prop) (bad : View → Prop) (x : Fallible α)
    (v : View) : Prop := Framework.Fallible.Keeps contract good bad x v

namespace Fallible

open Framework.Fallible (keeps_pure keeps_throw keeps_handle)

variable {α : Type} {good : α → View → Prop} {bad : View → Prop} {v : View}

theorem keeps_context {text : String} {x : Fallible α} (h : Keeps good bad x v) :
    Keeps good bad (context text x) v := keeps_handle h fun _ _ hb => keeps_throw hb

theorem keeps_close {fd : Fd} (mine : fd ∈ v.ids) :
    Keeps (fun _ v' => v' = v.close fd) bad (close fd) v := ⟨mine, fun _ _ h => h⟩

/-- The file is closed on the way out of a failure. -/
theorem keeps_owning (bad' : View → Prop) {fd : Fd} {x : Fallible α} (h : Keeps good bad' x v)
    (closes : ∀ v', bad' v' → fd ∈ v'.ids ∧ bad (v'.close fd)) :
    Keeps good bad (owning fd x) v := by
  apply keeps_handle h
  intro e v' hb
  apply (keeps_close (closes v' hb).1).bind
  intro _ v'' same
  subst same
  exact keeps_throw (closes v' hb).2

theorem keeps_within (good' : α → View → Prop) (bad' : View → Prop) {fd : Fd} {x : Fallible α}
    (h : Keeps good' bad' x v) (ends : ∀ a v', good' a v' → fd ∈ v'.ids ∧ good a (v'.close fd))
    (closes : ∀ v', bad' v' → fd ∈ v'.ids ∧ bad (v'.close fd)) :
    Keeps good bad (within fd x) v := by
  apply (keeps_owning bad' h closes).bind
  intro a v' hg
  apply (keeps_close (ends a v' hg).1).bind
  intro _ v'' same
  subst same
  exact keeps_pure (ends a v' hg).2

theorem keeps_ensure {cond : Prop} [Decidable cond] {text : String} :
    Keeps (fun _ v' => v' = v) (· = v) (ensure cond text) v := by
  unfold ensure
  split_ifs
  · exact keeps_pure rfl
  · exact keeps_throw rfl

theorem keeps_ofOption {found : Option α} {text : String} :
    Keeps (fun _ v' => v' = v) (· = v) (ofOption found text) v := by
  cases found with
  | none => exact keeps_throw rfl
  | some a => exact keeps_pure rfl

theorem keeps_ofExcept (x : Except Error α) :
    Keeps (fun _ v' => v' = v) (· = v) (ExceptT.mk (pure x) : Fallible α) v := by
  cases x with
  | ok a => exact keeps_pure rfl
  | error e => exact keeps_throw rfl

theorem keeps_ofAnswer {p : Program Call Answer (Except Errno α)}
    (h : p.Meets contract (fun a v' => Ends good bad (a.mapError fun errno => [Failure.os errno]) v')
      v) : Keeps good bad (ofAnswer p) v := Program.Meets.bind h

end Fallible

open Fallible
open Framework.Fallible (keeps_pure keeps_throw)

/-- A newly opened file on top of what was open. -/
def OpenedOn (v : View) (lockOf : Option (Inode × OsString)) (fd : Fd) (v' : View) : Prop :=
  Opens v v' lockOf fd

section
variable {v : View}

theorem keeps_openRoot : Keeps (OpenedOn v none) (· = v) openRoot v := by
  apply keeps_ofAnswer
  apply Program.meets_ask trivial
  intro a v' h
  cases a with
  | ok fd => exact h
  | error e => exact h

theorem keeps_openDirectory {dir : Fd} {path : RelativePath} (mine : dir ∈ v.ids) :
    Keeps (OpenedOn v none) (· = v) (openDirectory dir path) v := by
  apply keeps_ofAnswer
  apply Program.meets_ask mine
  intro a v' h
  cases a with
  | ok fd => exact h
  | error e => exact h

theorem keeps_openLock {p : Description} {name : OsString} (mine : p ∈ v) :
    Keeps (OpenedOn v (some (p.file, name))) (· = v) (openLock p.id name) v := by
  apply keeps_ofAnswer
  apply Program.meets_ask (List.mem_map.mpr ⟨p, mine, rfl⟩)
  intro a v' h
  have h := h p mine rfl
  cases a with
  | ok fd => exact h
  | error e => exact h

theorem keeps_fstat {fd : Fd} (mine : fd ∈ v.ids) :
    Keeps (fun _ v' => v' = v) (· = v) (fstat fd) v := by
  apply keeps_ofAnswer
  apply Program.meets_ask mine
  intro a v' h
  cases a with
  | ok stat => exact h
  | error e => exact h

theorem keeps_currentDir : Keeps (fun _ v' => v' = v) (· = v) currentDir v := by
  apply keeps_ofAnswer
  apply Program.meets_ask trivial
  intro a v' h
  cases a with
  | ok path => exact h
  | error e => exact h

/-- Reading the URL opens nothing. -/
theorem keeps_plainPath (databaseUrl : OsString) :
    Keeps (fun _ v' => v' = v) (· = v) (plainPath databaseUrl) v := by
  unfold plainPath
  apply keeps_ofOption.bind
  intro value v same
  subst same
  apply keeps_ensure.bind
  intro _ v same
  subst same
  apply keeps_ensure.bind
  intro _ v same
  subst same
  apply keeps_ensure.bind
  intro _ v same
  subst same
  exact keeps_pure rfl

theorem keeps_absolutePath (value : OsString) :
    Keeps (fun _ v' => v' = v) (· = v) (absolutePath value) v := by
  unfold absolutePath
  split_ifs
  · exact keeps_pure rfl
  · apply (keeps_context keeps_currentDir).bind
    intro cwd v same
    subst same
    exact keeps_pure rfl

theorem keeps_normalizedDatabasePath (databaseUrl : OsString) :
    Keeps (fun _ v' => v' = v) (· = v) (normalizedDatabasePath databaseUrl) v := by
  unfold normalizedDatabasePath
  apply (keeps_plainPath databaseUrl).bind
  intro value v same
  subst same
  apply (keeps_absolutePath value).bind
  intro absolute v same
  subst same
  apply (keeps_ofExcept (normalize (components absolute))).bind
  intro normalized v same
  subst same
  apply keeps_ensure.bind
  intro _ v same
  subst same
  exact keeps_pure rfl

/-- The file opened for the check of the entry is closed again. -/
theorem keeps_validateDatabaseEntry {parent : Fd} (databaseName : OsString)
    (mine : parent ∈ v.ids) :
    Keeps (fun _ v' => v' = v) (· = v) (validateDatabaseEntry parent databaseName) v := by
  unfold validateDatabaseEntry
  have opened : Framework.Fallible.Meets contract
      (Ends (fun a v' => OpenAnswer v v' none a) fun _ => False)
      (ExceptT.lift (ask (.openEntry parent databaseName)) : Fallible _) v :=
    Program.Meets.bind (Program.meets_ask mine fun _ _ h => h)
  apply opened.bind
  · exact fun _ _ h => h.elim
  · intro a v' h
    cases a with
    | ok fd =>
      obtain ⟨d, rfl, _, _, fresh, rfl⟩ := h
      have known : Keeps (fun _ v' => v' = v) (· = v) (within d.id (fstat d.id)) (d :: v) := by
        apply keeps_within _ _ (keeps_fstat (v := d :: v) List.mem_cons_self)
        · intro _ v same
          subst same
          exact ⟨List.mem_cons_self, FileTable.close_head v d fresh⟩
        · intro v same
          subst same
          exact ⟨List.mem_cons_self, FileTable.close_head v d fresh⟩
      apply known.bind
      intro metadata v same
      subst same
      exact keeps_ensure
    | error errno =>
      cases h
      cases errno with
      | noent => exact keeps_pure rfl
      | loop => exact keeps_throw rfl
      | notdir => exact keeps_throw rfl
      | isdir => exact keeps_throw rfl
      | wouldblock => exact keeps_throw rfl
      | badf => exact keeps_throw rfl
      | other code => exact keeps_throw rfl

/-- After `resolve` the parent directory is open, and nothing else is new. -/
theorem keeps_resolve (databaseUrl : OsString) :
    Keeps (fun location v' => ∃ p, IsParent p location ∧ p.id ∉ v.ids ∧ v' = p :: v)
      (· = v) (DatabaseLocation.resolve databaseUrl) v := by
  unfold DatabaseLocation.resolve
  apply (keeps_normalizedDatabasePath databaseUrl).bind
  intro database v same
  subst same
  cases database.getLast? with
  | none => exact keeps_throw rfl
  | some databaseName =>
    apply keeps_openRoot.bind
    intro filesystemRoot v' h
    obtain ⟨r, rfl, _, _, rootFresh, rfl⟩ := h
    have rootOpen : r.id ∈ FileTable.ids (r :: v) := List.mem_cons_self
    apply keeps_within (fun location v' => ∃ p, IsParent p location ∧
      p.id ∉ FileTable.ids (r :: v) ∧ v' = p :: r :: v) (· = r :: v)
    · apply (keeps_context (keeps_openDirectory rootOpen)).bind
      intro parent v' h
      obtain ⟨p, rfl, lockOf, _, parentFresh, rfl⟩ := h
      have checked : Keeps (fun _ v' => v' = p :: r :: v) (· = r :: v)
          (owning p.id (validateDatabaseEntry p.id databaseName)) (p :: r :: v) := by
        apply keeps_owning _ (keeps_validateDatabaseEntry databaseName List.mem_cons_self)
        intro v same
        subst same
        exact ⟨List.mem_cons_self, FileTable.close_head _ p parentFresh⟩
      apply checked.bind
      intro _ v same
      subst same
      exact keeps_pure ⟨p, ⟨rfl, lockOf⟩, parentFresh, rfl⟩
    · intro location v' h
      obtain ⟨p, hp, parentFresh, rfl⟩ := h
      have apart : p.id ≠ r.id := fun h => parentFresh (h ▸ List.mem_cons_self)
      refine ⟨List.mem_cons_of_mem _ List.mem_cons_self, p, hp, ?_, ?_⟩
      · exact fun h => parentFresh (List.mem_cons_of_mem _ h)
      · rw [FileTable.close_cons _ p r.id apart, FileTable.close_head v r rootFresh]
    · intro v same
      subst same
      exact ⟨rootOpen, FileTable.close_head v r rootFresh⟩

/-- After `acquire` the lock is held on the file found under its name, and nothing else is new. -/
theorem keeps_acquire (location : DatabaseLocation) (suffix : String) (kind : LockMode)
    {p : Description} (mine : p ∈ v) (parent : p.id = location.parent) :
    Keeps (fun fd v' => ∃ d, IsLock d fd p.file (lockName location.databaseName suffix) kind ∧
      fd ∉ v.ids ∧ v' = d :: v) (· = v) (location.acquire suffix kind) v := by
  unfold DatabaseLocation.acquire
  rw [← parent]
  apply (keeps_context (keeps_openLock mine)).bind
  intro fd v' h
  obtain ⟨d, rfl, lockOf, _, fresh, rfl⟩ := h
  have open_ : d.id ∈ FileTable.ids (d :: v) := List.mem_cons_self
  apply keeps_owning (· = d :: v)
  · unfold lockOpened
    apply (keeps_fstat open_).bind
    intro metadata v same
    subst same
    apply keeps_ensure.bind
    intro _ v same
    subst same
    have locked : Framework.Fallible.Meets contract
        (Ends (fun a v' => contract.ensures (.flock d.id kind) (d :: v) a v') fun _ => False)
        (ExceptT.lift (ask (.flock d.id kind)) : Fallible _) (d :: v) :=
      Program.Meets.bind (Program.meets_ask open_ fun _ _ h => h)
    apply locked.bind
    · exact fun _ _ h => h.elim
    · intro a v' h
      cases a with
      | ok u =>
        have held : v' = { d with lock := some kind } :: v :=
          h.trans (FileTable.setLock_head v d kind fresh)
        exact keeps_pure ⟨{ d with lock := some kind }, ⟨rfl, lockOf, rfl⟩, fresh, held⟩
      | error errno =>
        have same : v' = d :: v := h
        cases errno with
        | wouldblock => exact keeps_throw same
        | noent => exact keeps_throw same
        | loop => exact keeps_throw same
        | notdir => exact keeps_throw same
        | isdir => exact keeps_throw same
        | badf => exact keeps_throw same
        | other code => exact keeps_throw same
  · intro v same
    subst same
    exact ⟨open_, FileTable.close_head v d fresh⟩

end

theorem keeps_applicationLock (databaseUrl : OsString) :
    Keeps (fun lock => (Held.application lock).Owns) (· = []) (ApplicationLock.acquire databaseUrl)
      [] := by
  unfold ApplicationLock.acquire
  apply (keeps_resolve databaseUrl).bind
  intro location v' h
  obtain ⟨p, parent, _, rfl⟩ := h
  rw [← parent.id]
  apply keeps_owning (· = [p])
  · apply (keeps_context (keeps_acquire location instanceSuffix .exclusive List.mem_cons_self
      parent.id)).bind
    intro instanceLock v' h
    obtain ⟨i, isInstance, instanceFresh, rfl⟩ := h
    apply keeps_owning (· = [i, p])
    · apply (keeps_context (keeps_acquire location maintenanceSuffix .shared
        (List.mem_cons_of_mem _ List.mem_cons_self) parent.id)).bind
      intro maintenance v' h
      obtain ⟨m, isMaintenance, maintenanceFresh, rfl⟩ := h
      apply keeps_pure
      refine ⟨m, i, p, rfl, ?_, parent, isInstance, isMaintenance⟩
      rw [← isInstance.id] at instanceFresh
      rw [← isMaintenance.id] at maintenanceFresh
      exact List.nodup_cons.mpr
        ⟨maintenanceFresh, List.nodup_cons.mpr ⟨instanceFresh, List.nodup_singleton _⟩⟩
    · intro v same
      subst same
      rw [← isInstance.id] at instanceFresh ⊢
      exact ⟨List.mem_cons_self, FileTable.close_head _ i instanceFresh⟩
  · intro v same
    subst same
    exact ⟨List.mem_cons_self, FileTable.close_head [] p (by simp [FileTable.ids])⟩

theorem keeps_maintenanceLock (kind : LockMode) (text : String) (databaseUrl : OsString) :
    Keeps (fun lock => (Held.maintenance kind lock).Owns) (· = [])
      (MaintenanceLock.acquire kind text databaseUrl) [] := by
  unfold MaintenanceLock.acquire
  apply (keeps_resolve databaseUrl).bind
  intro location v' h
  obtain ⟨p, parent, _, rfl⟩ := h
  rw [← parent.id]
  apply keeps_owning (· = [p])
  · apply (keeps_context (keeps_acquire location maintenanceSuffix kind List.mem_cons_self
      parent.id)).bind
    intro lock v' h
    obtain ⟨m, isMaintenance, maintenanceFresh, rfl⟩ := h
    apply keeps_pure
    refine ⟨m, p, rfl, ?_, parent, isMaintenance⟩
    rw [← isMaintenance.id] at maintenanceFresh
    exact List.nodup_cons.mpr ⟨maintenanceFresh, List.nodup_singleton _⟩
  · intro v same
    subst same
    exact ⟨List.mem_cons_self, FileTable.close_head [] p (by simp [FileTable.ids])⟩

theorem meets_close {post : View → Prop} {fd : Fd} {v : View} (mine : fd ∈ v.ids)
    (h : post (v.close fd)) : (ask (.close fd)).Meets contract (fun _ => post) v := by
  apply Program.meets_ask mine
  intro _ v' closed
  rw [show v' = v.close fd from closed]
  exact h

theorem meets_dropApplication (lock : ApplicationLock) (v : View)
    (h : (Held.application lock).Owns v) :
    lock.drop.Meets contract (fun _ v' => v' = []) v := by
  obtain ⟨m, i, p, rfl, nodup, parent, isInstance, isMaintenance⟩ := h
  simp only [FileTable.ids, List.map_cons, List.map_nil, List.nodup_cons, List.mem_cons,
    List.not_mem_nil, or_false, not_or] at nodup
  obtain ⟨⟨mi, mp⟩, ip, _⟩ := nodup
  have first : FileTable.close [m, i, p] p.id = [m, i] := by simp [FileTable.close, mp, ip]
  have second : FileTable.close [m, i] i.id = [m] := by simp [FileTable.close, mi]
  have third : FileTable.close [m] m.id = [] := by simp [FileTable.close]
  unfold ApplicationLock.drop
  rw [← parent.id, ← isInstance.id, ← isMaintenance.id]
  apply Program.Meets.bind
  apply meets_close (by simp [FileTable.ids])
  rw [first]
  apply Program.Meets.bind
  apply meets_close (by simp [FileTable.ids])
  rw [second]
  exact meets_close (by simp [FileTable.ids]) third

theorem meets_dropMaintenance (mode : LockMode) (lock : MaintenanceLock) (v : View)
    (h : (Held.maintenance mode lock).Owns v) :
    lock.drop.Meets contract (fun _ v' => v' = []) v := by
  obtain ⟨m, p, rfl, nodup, parent, isMaintenance⟩ := h
  have apart : m.id ≠ p.id := by simpa [FileTable.ids] using nodup
  have first : FileTable.close [m, p] p.id = [m] := by simp [FileTable.close, apart]
  have second : FileTable.close [m] m.id = [] := by simp [FileTable.close]
  unfold MaintenanceLock.drop
  rw [← parent.id, ← isMaintenance.id]
  apply Program.Meets.bind
  apply meets_close (by simp [FileTable.ids])
  rw [first]
  exact meets_close (by simp [FileTable.ids]) second

theorem meets_work (held : Held) (v : View) (h : held.Owns v) :
    (ask (.work held)).Meets contract (fun _ v' => held.Owns v') v := by
  apply Program.meets_ask h
  intro _ v' same
  rwa [show v' = v from same]

theorem meets_withMaintenance (mode : LockMode) (acquire : Fallible MaintenanceLock)
    (h : Keeps (fun lock => (Held.maintenance mode lock).Owns) (· = []) acquire []) :
    (withMaintenance mode acquire).Meets contract (fun _ v' => v' = []) [] := by
  unfold withMaintenance
  apply Program.Meets.bind
  apply Program.Meets.mono h
  intro r v' hr
  cases r with
  | error e => exact hr
  | ok lock =>
    apply Program.Meets.bind
    apply (meets_work (.maintenance mode lock) v' hr).mono
    exact fun _ v'' owns => meets_dropMaintenance mode lock v'' owns

/-- Every command keeps to the contract from nothing open to nothing open. -/
theorem meets_program (command : Command) :
    command.program.Meets contract (fun _ v' => v' = []) [] := by
  cases command with
  | serve databaseUrl =>
    apply Program.Meets.bind
    apply Program.Meets.mono (keeps_applicationLock databaseUrl)
    intro r v' hr
    cases r with
    | error e => exact hr
    | ok lock =>
      apply Program.Meets.bind
      apply (meets_work (.application lock) v' hr).mono
      exact fun _ v'' owns => meets_dropApplication lock v'' owns
  | adminCreate databaseUrl =>
    exact meets_withMaintenance _ _ (keeps_maintenanceLock _ _ databaseUrl)
  | adminResetPassword databaseUrl =>
    exact meets_withMaintenance _ _ (keeps_maintenanceLock _ _ databaseUrl)
  | doctor databaseUrl => exact meets_withMaintenance _ _ (keeps_maintenanceLock _ _ databaseUrl)

end HostMonitoring.Locks
