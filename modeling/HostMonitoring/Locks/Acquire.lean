import HostMonitoring.Locks.Calls

namespace HostMonitoring.Locks

open Framework Release

/-- A cause, or what was being done when it came up. -/
inductive Failure where
  | message (text : String)
  | os (errno : Errno)
deriving DecidableEq

/-- An error with its contexts, the outermost first. -/
abbrev Error := List Failure

def ask (o : Call) : Program Call Answer (Answer o) := Program.ask o

abbrev Fallible (α : Type) := Framework.Fallible Call Answer Error α

namespace Fallible

variable {α : Type}

def ofAnswer (p : Program Call Answer (Except Errno α)) : Fallible α :=
  ExceptT.mk do
    let answer ← p
    return answer.mapError fun errno => [.os errno]

def context (text : String) (x : Fallible α) : Fallible α :=
  x.handle fun e => throw (.message text :: e)

def close (fd : Fd) : Fallible Unit :=
  ExceptT.lift (ask (.close fd))

/-- The file goes on to the result; on an error it is closed. -/
def owning (fd : Fd) (x : Fallible α) : Fallible α :=
  x.handle fun e => do
    close fd
    throw e

/-- The file is closed at the end, whatever the end. -/
def within (fd : Fd) (x : Fallible α) : Fallible α := do
  let a ← owning fd x
  close fd
  return a

end Fallible

open Fallible

def ensure (good : Prop) [Decidable good] (text : String) : Fallible Unit :=
  if good then pure () else throw [.message text]

def ofOption {α : Type} (found : Option α) (text : String) : Fallible α :=
  match found with
  | some a => pure a
  | none => throw [.message text]

def currentDir : Fallible OsString := ofAnswer (ask .currentDir)

def openRoot : Fallible Fd := ofAnswer (ask .openRoot)

def openDirectory (dir : Fd) (path : RelativePath) : Fallible Fd :=
  ofAnswer (ask (.openDirectory dir path))

def openEntry (dir : Fd) (name : OsString) : Fallible Fd :=
  ofAnswer (ask (.openEntry dir name))

def openLock (dir : Fd) (name : OsString) : Fallible Fd :=
  ofAnswer (ask (.openLock dir name))

def fstat (fd : Fd) : Fallible Stat := ofAnswer (ask (.fstat fd))

def flock (fd : Fd) (mode : LockMode) : Fallible Unit := ofAnswer (ask (.flock fd mode))

def stripPrefix (lead value : OsString) : Option OsString :=
  if lead.isPrefixOf value then some (value.drop lead.length) else none

/-- `PathBuf::join` of a relative path that is not empty. -/
def join (base path : OsString) : OsString :=
  if base.getLast? = some slash ∨ base = [] then base ++ path else base ++ slash :: path

/-- The names of a path from the root on. -/
def normalize : List Component → Except Error RelativePath
  | [] => .ok []
  | .rootDir :: rest => normalize rest
  | .curDir :: rest => normalize rest
  | .normal name :: rest => (normalize rest).map (name :: ·)
  | .parentDir :: _ =>
    .error [.message "SQLite database path must not contain parent traversal"]

/-- The path of a URL without query, fragment or escapes. -/
def plainPath (databaseUrl : OsString) : Fallible OsString := do
  let value ← ofOption ((stripPrefix (bytes "sqlite://") databaseUrl).or
    (stripPrefix (bytes "sqlite:") databaseUrl)) "database URL must use the sqlite scheme"
  ensure (value ≠ []) "SQLite database path must not be empty"
  ensure (value ≠ bytes ":memory:") "in-memory databases cannot be locked"
  ensure (value.any (bytes "?#%\x00").contains = false)
    "database locks require a plain, unescaped SQLite file URL without query or fragment"
  return value

def absolutePath (value : OsString) : Fallible OsString :=
  if value.head? = some slash then pure value
  else do
    let cwd ← context "resolve SQLite database working directory" currentDir
    return join cwd value

def normalizedDatabasePath (databaseUrl : OsString) : Fallible RelativePath := do
  let value ← plainPath databaseUrl
  let absolute ← absolutePath value
  let normalized ← ExceptT.mk (pure (normalize (components absolute)))
  ensure (normalized ≠ []) "SQLite database path must name a file"
  return normalized

def validateDatabaseEntry (parent : Fd) (databaseName : OsString) : Fallible Unit := do
  match ← ask (.openEntry parent databaseName) with
  | .ok fd =>
    let metadata ← within fd (fstat fd)
    ensure (metadata.fileType = .regular ∧ metadata.nlink = 1)
      "SQLite database path must be one regular file"
  | .error .noent => return ()
  | .error errno =>
    throw [.message "validate SQLite database without following symbolic links", .os errno]

def DatabaseLocation.resolve (databaseUrl : OsString) : Fallible DatabaseLocation := do
  let database ← normalizedDatabasePath databaseUrl
  match database.getLast? with
  | none => throw [.message "SQLite database path must name a file"]
  | some databaseName =>
    let filesystemRoot ← openRoot
    within filesystemRoot do
      let parent ← context "open SQLite database parent without following symbolic links"
        (openDirectory filesystemRoot database.dropLast)
      owning parent (validateDatabaseEntry parent databaseName)
      return ⟨parent, databaseName⟩

/-- `acquire` once the lock file is open. -/
def lockOpened (fd : Fd) (kind : LockMode) : Fallible Fd := do
  let metadata ← fstat fd
  ensure (metadata.fileType = .regular ∧ metadata.nlink = 1)
    "Host Monitoring database lock must be one regular file"
  match ← ask (.flock fd kind) with
  | .ok () => return fd
  | .error .wouldblock => throw [.message "database lock is already held"]
  | .error errno => throw [.message "acquire Host Monitoring database lock", .os errno]

def DatabaseLocation.acquire (location : DatabaseLocation) (suffix : String) (kind : LockMode) :
    Fallible Fd := do
  let fd ← context "open Host Monitoring database lock without following symbolic links"
    (openLock location.parent (lockName location.databaseName suffix))
  owning fd (lockOpened fd kind)

def ApplicationLock.acquire (databaseUrl : OsString) : Fallible ApplicationLock := do
  let location ← DatabaseLocation.resolve databaseUrl
  owning location.parent do
    let instanceLock ← context "another Host Monitoring process already owns this database"
      (location.acquire instanceSuffix .exclusive)
    owning instanceLock do
      let maintenance ← context "exclusive Host Monitoring database maintenance is active"
        (location.acquire maintenanceSuffix .shared)
      return ⟨location, instanceLock, maintenance⟩

/-- `shared` and `exclusive` but for the mode and the context. -/
def MaintenanceLock.acquire (kind : LockMode) (text : String) (databaseUrl : OsString) :
    Fallible MaintenanceLock := do
  let location ← DatabaseLocation.resolve databaseUrl
  owning location.parent do
    let file ← context text (location.acquire maintenanceSuffix kind)
    return ⟨location, file⟩

def MaintenanceLock.shared : OsString → Fallible MaintenanceLock :=
  MaintenanceLock.acquire .shared "exclusive Host Monitoring database maintenance is active"

def MaintenanceLock.exclusive : OsString → Fallible MaintenanceLock :=
  MaintenanceLock.acquire .exclusive
    "Host Monitoring is running or offline database maintenance is active"

/-- The fields of a lock go in their order. -/
def ApplicationLock.drop (lock : ApplicationLock) : Program Call Answer Unit := do
  ask (.close lock.location.parent)
  ask (.close lock.instanceLock)
  ask (.close lock.maintenance)

def MaintenanceLock.drop (lock : MaintenanceLock) : Program Call Answer Unit := do
  ask (.close lock.location.parent)
  ask (.close lock.lock)

def withMaintenance (mode : LockMode) (acquire : Fallible MaintenanceLock) :
    Program Call Answer Unit := do
  match ← acquire.run with
  | .error _ => return ()
  | .ok lock => do
    ask (.work (.maintenance mode lock))
    lock.drop

/-- The commands that come to the database. -/
inductive Command where
  | serve (databaseUrl : OsString)
  | adminCreate (databaseUrl : OsString)
  | adminResetPassword (databaseUrl : OsString)
  | doctor (databaseUrl : OsString)

def Command.program : Command → Program Call Answer Unit
  | .serve databaseUrl => do
    match ← (ApplicationLock.acquire databaseUrl).run with
    | .error _ => return ()
    | .ok lock => do
      ask (.work (.application lock))
      lock.drop
  | .adminCreate databaseUrl => withMaintenance .exclusive (MaintenanceLock.exclusive databaseUrl)
  | .adminResetPassword databaseUrl =>
    withMaintenance .exclusive (MaintenanceLock.exclusive databaseUrl)
  | .doctor databaseUrl => withMaintenance .shared (MaintenanceLock.shared databaseUrl)

end HostMonitoring.Locks
