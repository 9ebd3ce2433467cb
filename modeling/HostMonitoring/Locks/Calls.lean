import HostMonitoring.Locks.Kernel

namespace HostMonitoring.Locks

open Framework Release

/-- The directory a database lies in, held open, and its name there. -/
structure DatabaseLocation where
  parent : Fd
  databaseName : OsString
deriving DecidableEq

structure ApplicationLock where
  location : DatabaseLocation
  instanceLock : Fd
  maintenance : Fd
deriving DecidableEq

structure MaintenanceLock where
  location : DatabaseLocation
  lock : Fd
deriving DecidableEq

/-- What a command holds while it works on the database. -/
inductive Held where
  | application (lock : ApplicationLock)
  | maintenance (mode : LockMode) (lock : MaintenanceLock)
deriving DecidableEq

/-- Without `Mode` and the flags that never differ. `openEntry` is `openat2` with `O_PATH`,
`openLock` with `O_CREAT`; `work` is all a command does between taking its locks and dropping
them. -/
inductive Call where
  | currentDir
  | openRoot
  | openDirectory (dir : Fd) (path : RelativePath)
  | openEntry (dir : Fd) (name : OsString)
  | openLock (dir : Fd) (name : OsString)
  | fstat (fd : Fd)
  | flock (fd : Fd) (mode : LockMode)
  | close (fd : Fd)
  | work (held : Held)

structure Stat where
  fileType : FileType
  nlink : Nat
deriving DecidableEq

abbrev Answer : Call → Type
  | .currentDir => Except Errno OsString
  | .openRoot | .openDirectory .. | .openEntry .. | .openLock .. => Except Errno Fd
  | .fstat _ => Except Errno Stat
  | .flock .. => Except Errno Unit
  | .close _ | .work _ => Unit

namespace Kernel

/-- Runs on an open file of the client. -/
def on {α : Type} (c : Client) (fd : Fd) (k : Kernel)
    (f : (d : Description) → d ∈ k.files → Except Errno α × Kernel) : Except Errno α × Kernel :=
  match h : k.file c fd with
  | none => (.error .badf, k)
  | some d => f d ((k.view_sublist c).mem (List.mem_of_find?_eq_some h))

def openFound (c : Client) (k : Kernel) (found : Except Errno Inode) : Except Errno Fd × Kernel :=
  match found with
  | .error e => (.error e, k)
  | .ok i => (.ok k.next, k.opened c i none)

def openLock (c : Client) (k : Kernel) (dir : Inode) (name : OsString) :
    Except Errno Fd × Kernel :=
  match k.fs.entry dir name with
  | none =>
    (.ok k.next, { k with fs := k.fs.create dir name }.opened c k.fs.next (some (dir, name)))
  | some i =>
    match k.fs.kind i with
    | .symlink => (.error .loop, k)
    | .directory => (.error .isdir, k)
    | _ => (.ok k.next, k.opened c i (some (dir, name)))

def flock (k : Kernel) (d : Description) (hd : d ∈ k.files) (mode : LockMode) :
    Except Errno Unit × Kernel :=
  if free : k.files.Blocked d mode then (.error .wouldblock, k)
  else (.ok (), k.locked d hd mode free)

/-- The answer to a call that meets with no other trouble. -/
def answer (c : Client) : (o : Call) → Kernel → Answer o × Kernel
  | .currentDir, k => (.ok (k.cwd c), k)
  | .openRoot, k => k.openFound c (.ok root)
  | .openDirectory dir path, k =>
    k.on c dir fun d _ => k.openFound c (k.fs.walk d.file path)
  | .openEntry dir name, k => k.on c dir fun d _ => k.openFound c (k.fs.lookup d.file name)
  | .openLock dir name, k => k.on c dir fun d _ => k.openLock c d.file name
  | .fstat fd, k => k.on c fd fun d _ => (.ok ⟨k.fs.kind d.file, k.fs.links d.file⟩, k)
  | .flock fd mode, k => k.on c fd fun d hd => k.flock d hd mode
  | .close fd, k =>
    match k.file c fd with
    | none => ((), k)
    | some d => ((), k.closed d.id)
  | .work _, k => ((), k)

end Kernel

/-- What may go wrong besides: no rights, no memory, a name too long. -/
def Call.Fault : (o : Call) → Answer o → Prop
  | .currentDir, a => ∃ code, a = .error (.other code)
  | .openRoot, a => ∃ code, a = .error (.other code)
  | .openDirectory .., a => ∃ code, a = .error (.other code)
  | .openEntry .., a => ∃ code, a = .error (.other code)
  | .openLock .., a => ∃ code, a = .error (.other code)
  | .fstat _, a => ∃ code, a = .error (.other code)
  | .flock .., a => ∃ code, a = .error (.other code)
  | .close _, _ => False
  | .work _, _ => False

/-- Everybody else may change the files and directories in any way. -/
def world : World Client Call Answer Kernel where
  exec c o k a k' := k.answer c o = (a, k') ∨ o.Fault a ∧ k' = k
  reap c k k' := ∃ d ∈ k.view c, k' = k.closed d.id
  outside k k' := ∃ fs cwd, k' = { k with fs, cwd }

/-- The open files of a client before and after an open. -/
def Opens (v v' : FileTable Fd Inode Opened) (lockOf : Option (Inode × OsString)) (fd : Fd) :
    Prop :=
  ∃ d : Description, d.id = fd ∧ d.info.lockOf = lockOf ∧ d.lock = none ∧ fd ∉ v.ids ∧ v' = d :: v

/-- An open file beside those the client had, or an error and nothing new. -/
def OpenAnswer (v v' : FileTable Fd Inode Opened) (lockOf : Option (Inode × OsString)) :
    Except Errno Fd → Prop
  | .ok fd => Opens v v' lockOf fd
  | .error _ => v' = v

/-- The lock a command keeps: taken, on the file it found under the lock's name. -/
structure IsLock (d : Description) (fd : Fd) (dir : Inode) (name : OsString) (mode : LockMode) :
    Prop where
  id : d.id = fd
  lockOf : d.info.lockOf = some (dir, name)
  mode : d.lock = some mode

/-- The directory of a location: no lock file. -/
structure IsParent (d : Description) (location : DatabaseLocation) : Prop where
  id : d.id = location.parent
  lockOf : d.info.lockOf = none

def lockName (databaseName : OsString) (suffix : String) : OsString :=
  bytes "." ++ databaseName ++ bytes suffix

def instanceSuffix : String := ".host-monitoring.instance.lock"

def maintenanceSuffix : String := ".host-monitoring.maintenance.lock"

/-- Exactly what belongs to a held lock is open. -/
def Held.Owns : Held → FileTable Fd Inode Opened → Prop
  | .application lock, v => ∃ m i p, v = [m, i, p] ∧ v.ids.Nodup ∧ IsParent p lock.location ∧
      IsLock i lock.instanceLock p.file (lockName lock.location.databaseName instanceSuffix)
        .exclusive ∧
      IsLock m lock.maintenance p.file (lockName lock.location.databaseName maintenanceSuffix)
        .shared
  | .maintenance mode lock, v => ∃ m p, v = [m, p] ∧ v.ids.Nodup ∧ IsParent p lock.location ∧
      IsLock m lock.lock p.file (lockName lock.location.databaseName maintenanceSuffix) mode

def contract : Contract Call Answer (FileTable Fd Inode Opened) where
  requires
    | .currentDir, _ => True
    | .openRoot, _ => True
    | .openDirectory dir _, v => dir ∈ v.ids
    | .openEntry dir _, v => dir ∈ v.ids
    | .openLock dir _, v => dir ∈ v.ids
    | .fstat fd, v => fd ∈ v.ids
    | .flock fd _, v => fd ∈ v.ids
    | .close fd, v => fd ∈ v.ids
    | .work held, v => held.Owns v
  ensures
    | .currentDir, v, _, v' => v' = v
    | .openRoot, v, a, v' => OpenAnswer v v' none a
    | .openDirectory _ _, v, a, v' => OpenAnswer v v' none a
    | .openEntry _ _, v, a, v' => OpenAnswer v v' none a
    | .openLock dir name, v, a, v' =>
      ∀ d ∈ v, d.id = dir → OpenAnswer v v' (some (d.file, name)) a
    | .fstat _, v, _, v' => v' = v
    | .flock fd mode, v, a, v' =>
      match a with
      | .ok _ => v' = v.setLock fd mode
      | .error _ => v' = v
    | .close fd, v, _, v' => v' = v.close fd
    | .work _, v, _, v' => v' = v

end HostMonitoring.Locks
