import HostMonitoring.Framework.FileLocks
import HostMonitoring.Framework.Threads
import HostMonitoring.Release.Paths

namespace HostMonitoring.Locks

open Framework Release

/-- Whoever takes locks: a command of the server binary. -/
abbrev Client := Nat

/-- An open file by the number it was opened under; numbers are not used twice. -/
abbrev Fd := Nat

/-- A file itself, whatever names it has. -/
abbrev Inode := Nat

inductive FileType where
  | regular
  | directory
  | symlink
  | special
deriving DecidableEq

structure FileSystem where
  kind : Inode → FileType
  links : Inode → Nat
  entry : Inode → OsString → Option Inode
  next : Inode
  below : ∀ dir name i, entry dir name = some i → i < next
  /-- A file with one link has one name. -/
  single : ∀ i, links i = 1 → ∀ dir name dir' name', entry dir name = some i →
    entry dir' name' = some i → dir = dir' ∧ name = name'

def root : Inode := 0

inductive Errno where
  | noent
  | loop
  | notdir
  | isdir
  | wouldblock
  | badf
  | other (code : Nat)
deriving DecidableEq

namespace FileSystem

variable (fs : FileSystem)

/-- One step down that follows no symbolic link. -/
def enter (dir : Inode) (name : OsString) : Except Errno Inode :=
  match fs.entry dir name with
  | none => .error .noent
  | some i =>
    match fs.kind i with
    | .directory => .ok i
    | .symlink => .error .loop
    | _ => .error .notdir

/-- The entry itself, a symbolic link included. -/
def lookup (dir : Inode) (name : OsString) : Except Errno Inode :=
  match fs.entry dir name with
  | none => .error .noent
  | some i => .ok i

def walk (dir : Inode) (path : RelativePath) : Except Errno Inode := path.foldlM fs.enter dir

/-- A new empty file under a free name. -/
def create (dir : Inode) (name : OsString) : FileSystem where
  kind i := if i = fs.next then .regular else fs.kind i
  links i := if i = fs.next then 1 else fs.links i
  entry d n := if d = dir ∧ n = name then some fs.next else fs.entry d n
  next := fs.next + 1
  below := by
    intro d n i h
    split_ifs at h with new
    · rw [← Option.some.inj h]
      exact Nat.lt_succ_self fs.next
    · exact Nat.lt_succ_of_lt (fs.below d n i h)
  single := by
    intro i hi d n d' n' h h'
    by_cases new : i = fs.next
    · have only : ∀ d n, (if d = dir ∧ n = name then some fs.next else fs.entry d n) = some i →
          d = dir ∧ n = name := by
        intro d n hd
        split_ifs at hd with here
        · exact here
        · exact absurd (new ▸ fs.below d n i hd) (Nat.lt_irrefl _)
      rw [(only d n h).1, (only d n h).2, (only d' n' h').1, (only d' n' h').2]
      exact ⟨rfl, rfl⟩
    · have old : ∀ d n, (if d = dir ∧ n = name then some fs.next else fs.entry d n) = some i →
          fs.entry d n = some i := by
        intro d n hd
        split_ifs at hd with here
        · exact absurd (Option.some.inj hd).symm new
        · exact hd
      rw [if_neg new] at hi
      exact fs.single i hi d n d' n' (old d n h) (old d' n' h')

end FileSystem

/-- For a lock file the directory it was looked up in and its name there. -/
structure Opened where
  client : Client
  lockOf : Option (Inode × OsString)
deriving DecidableEq

abbrev Description := OpenFile Fd Inode Opened

structure Kernel where
  fs : FileSystem
  cwd : Client → OsString
  files : FileTable Fd Inode Opened
  next : Fd
  consistent : files.Consistent
  below : ∀ d ∈ files, d.id < next

namespace Kernel

theorem fresh (k : Kernel) : k.next ∉ k.files.ids := by
  intro h
  obtain ⟨d, hd, hid⟩ := List.mem_map.mp h
  exact absurd (hid ▸ k.below d hd) (Nat.lt_irrefl _)

/-- What a client has open. -/
def view (c : Client) (k : Kernel) : FileTable Fd Inode Opened :=
  k.files.filter fun d => d.info.client = c

theorem view_sublist (c : Client) (k : Kernel) : List.Sublist (k.view c) k.files :=
  List.filter_sublist

theorem mem_view {c : Client} {k : Kernel} {d : Description} :
    d ∈ k.view c ↔ d ∈ k.files ∧ d.info.client = c := by simp [view]

def file (k : Kernel) (c : Client) (fd : Fd) : Option Description := FileTable.find (k.view c) fd

def opened (k : Kernel) (c : Client) (file : Inode) (lockOf : Option (Inode × OsString)) :
    Kernel where
  fs := k.fs
  cwd := k.cwd
  files := ⟨k.next, file, ⟨c, lockOf⟩, none⟩ :: k.files
  next := k.next + 1
  consistent := k.consistent.open _ k.fresh rfl
  below := by
    intro d hd
    rcases List.mem_cons.mp hd with rfl | hd
    · exact Nat.lt_succ_self _
    · exact Nat.lt_succ_of_lt (k.below d hd)

def closed (k : Kernel) (fd : Fd) : Kernel where
  fs := k.fs
  cwd := k.cwd
  files := k.files.close fd
  next := k.next
  consistent := k.consistent.close fd
  below := fun d hd => k.below d (List.mem_filter.mp hd).1

/-- `flock` with `LOCK_NB`: at once or not at all. -/
def locked (k : Kernel) (d : Description) (hd : d ∈ k.files) (mode : LockMode)
    (free : ¬k.files.Blocked d mode) : Kernel where
  fs := k.fs
  cwd := k.cwd
  files := k.files.setLock d.id mode
  next := k.next
  consistent := k.consistent.setLock d hd mode free
  below := by
    intro e he
    obtain ⟨e', he', hid, _⟩ := FileTable.mem_setLock he
    rw [hid]
    exact k.below e' he'

end Kernel

/-- A machine on which no command has run yet. -/
def boot (fs : FileSystem) (cwd : Client → OsString) : Kernel where
  fs := fs
  cwd := cwd
  files := []
  next := 0
  consistent := FileTable.consistent_nil
  below := by simp

/-- An empty root directory. -/
def emptyRoot : FileSystem where
  kind i := if i = root then .directory else .regular
  links i := if i = root then 2 else 0
  entry _ _ := none
  next := 1
  below := by simp
  single := by simp

end HostMonitoring.Locks
