import HostMonitoring.Framework.AssocMap
import HostMonitoring.Framework.FileTree
import HostMonitoring.Release.Paths
import Mathlib.Algebra.Ring.Nat

namespace HostMonitoring.Release

open Framework Framework.Checks

abbrev Node := Framework.Node OsString

def releaseManifestName : String := "RELEASE-MANIFEST.json"
def serverBinary : String := "bin/host-monitoring-server"
def maxManifestBytes : Nat := 8 * 1024 * 1024
def maxEntries : Nat := 10000
def maxFileBytes : Nat := 512 * 1024 * 1024
def maxReleaseBytes : Nat := 1024 * 1024 * 1024

inductive ReleaseEntry where
  | directory (path mode : String)
  | file (path mode : String) (size : UInt64) (sha256 : String)
deriving DecidableEq

namespace ReleaseEntry

def path : ReleaseEntry → String
  | .directory path _ => path
  | .file path _ _ _ => path

def mode : ReleaseEntry → String
  | .directory _ mode => mode
  | .file _ mode _ _ => mode

end ReleaseEntry

def relativePath (path : String) : RelativePath := PathBuf.names ⟨bytes path⟩

def manifestPath : RelativePath := relativePath releaseManifestName

/-- The manifest's entries by path, which compare by their components. -/
abbrev Expected := AssocMap RelativePath ReleaseEntry

/-- What `parse_entries` asks of an entry by its kind. -/
def checkKind (entry : ReleaseEntry) (mode : Nat) : Except String Unit :=
  match entry with
  | .directory .. => ensure (mode = 0o555) "release directories must have mode 0555"
  | .file path _ size sha256 => do
    let requiredMode := if path = serverBinary then 0o555 else 0o444
    ensure (mode = requiredMode)
      "release files must have exact mode 0444 or executable mode 0555"
    ensure (size.toNat ≤ maxFileBytes) "release file exceeds size limit"
    validateSha256 sha256

def checkSorted (previous : Option String) (path : String) : Except String Unit :=
  ensure (∀ p ∈ previous, bytes p < bytes path) "release entries are not strictly sorted"

def parseEntry (state : Expected × Option String) (entry : ReleaseEntry) :
    Except String (Expected × Option String) := do
  let (expected, previous) := state
  let path ← validatedRelativePath entry.path
  ensure (entry.path ≠ releaseManifestName) "release manifest must not list itself"
  checkSorted previous entry.path
  let mode ← parseMode entry.mode
  checkKind entry mode
  ensure (expected.get? path.names = none) "release manifest contains a duplicate path"
  return (expected.insert path.names entry, some entry.path)

def parseEntries (entries : List ReleaseEntry) : Except String Expected := do
  let (expected, _) ← entries.foldlM parseEntry (AssocMap.empty, none)
  return expected

def directories : List String := ["bin", "systemd", "web", "web/assets"]

def fixedFiles : List String :=
  ["README.md", serverBinary, "systemd/host-monitoring-server.service", "web/index.html"]

def isDirectory (mode : String) : Option ReleaseEntry → Bool
  | some (.directory _ m) => m == mode
  | _ => false

def isFile (mode : String) : Option ReleaseEntry → Bool
  | some (.file _ m _ _) => m == mode
  | _ => false

/-- `Path::display`, for names of ASCII bytes. -/
def display (path : RelativePath) : String := ofAscii ([slash].intercalate path)

def layoutEntry (javascriptFiles : Nat) (item : RelativePath × ReleaseEntry) :
    Except String Nat := do
  let (path, entry) := item
  let shown := display path
  match entry with
  | .directory .. => do
    ensure (path ∈ directories.map relativePath) s!"release contains an unexpected directory: {shown}"
    return javascriptFiles
  | .file .. =>
    if path ∈ fixedFiles.map relativePath then return javascriptFiles
    else do
      ensure (path ≠ [] ∧ path.dropLast = relativePath "web/assets")
        s!"release contains an unexpected file: {shown}"
      let ext := path.getLast?.bind extension
      ensure (ext ∈ [some (bytes "js"), some (bytes "css"), some (bytes "woff2")])
        s!"release contains an unexpected compiled asset type: {shown}"
      return if ext = some (bytes "js") then javascriptFiles + 1 else javascriptFiles

def validateExactLayout (expected : Expected) : Except String Unit := do
  directories.forM fun directory =>
    ensure (isDirectory "0555" (expected.get? (relativePath directory)))
      s!"release manifest is missing required directory {directory}"
  fixedFiles.forM fun file =>
    ensure (isFile (if file = serverBinary then "0555" else "0444") (expected.get? (relativePath file)))
      s!"release manifest is missing required file {file}"
  let javascriptFiles ← expected.entries.foldlM layoutEntry 0
  ensure (0 < javascriptFiles) "release manifest must contain a compiled JavaScript asset"

structure Counters where
  entries : Nat
  files : Nat
  bytes : Nat
deriving DecidableEq

/-- What a walk carries: a `HashSet` of the paths it met, and its counters. -/
structure Walk where
  seen : List RelativePath
  counters : Counters

def Walk.start : Walk := ⟨[], ⟨0, 0, 0⟩⟩

def Walk.insert (w : Walk) (path : RelativePath) : Except String Walk := do
  ensure (path ∉ w.seen) "duplicate release path"
  return { w with seen := path :: w.seen }

def Walk.countEntry (w : Walk) : Except String Walk := do
  let entries := w.counters.entries + 1
  ensure (entries ≤ maxEntries) "release contains too many entries"
  return { w with counters := { w.counters with entries := entries } }

def permissionMode (mode : Nat) : Nat := mode &&& 0o7777

def ensureRegularMetadata (label : String) : Node → Except String Unit
  | .file _ nlink _ => ensure (nlink = 1) s!"{label} must have exactly one hard link"
  | _ => .error s!"{label} must be a regular file"

/-- Nothing changes while the file is read, so the repeated looks at it agree. -/
def readVerifiedFile (maximum : Nat) : Node → Except String (List UInt8)
  | .file mode nlink content => do
    ensureRegularMetadata "release file" (.file mode nlink content)
    ensure (content.length ≤ maximum) "release file is too large"
    return content.take (maximum + 1)
  | n => do
    ensureRegularMetadata "release file" n
    return []

section Walking

variable (sha : Digest) (expected : Expected)

def validateFile (mode nlink : Nat) (content : List UInt8) (relative : RelativePath) (w : Walk) :
    Except String Walk := do
  let shown := display relative
  match expected.get? relative with
  | some (.file _ required size sha256) => do
    ensureRegularMetadata "release file" (.file mode nlink content)
    let required ← parseMode required
    ensure (permissionMode mode = required) s!"release file mode mismatch: {shown}"
    ensure (content.length = size.toNat) s!"release file size mismatch: {shown}"
    let contents ← readVerifiedFile maxFileBytes (.file mode nlink content)
    ensure (encodeHex (sha contents).toList = sha256) s!"release file digest mismatch: {shown}"
    let total := w.counters.bytes + size.toNat
    ensure (total < 2 ^ 64) "release byte count overflow"
    ensure (total ≤ maxReleaseBytes) "release exceeds total size limit"
    Walk.insert
      { w with counters := { w.counters with files := w.counters.files + 1, bytes := total } }
      relative
  | _ => .error s!"release contains an unexpected file: {shown}"

/-- `validate_directory` up to its listing. -/
def enterDirectory (mode : Nat) (relative : RelativePath) (w : Walk) : Except String Walk :=
  if relative = [] then .ok w
  else do
    let shown := display relative
    match expected.get? relative with
    | some (.directory _ required) => do
      let required ← parseMode required
      ensure (permissionMode mode = required) s!"release directory mode mismatch: {shown}"
      w.insert relative
    | _ => .error s!"release contains an unexpected directory: {shown}"

/-- One child of a listing; `validate` is what its own node goes through. -/
def validateChild (relative : RelativePath) (name : OsString)
    (validate : RelativePath → Walk → Except String Walk) (w : Walk) : Except String Walk := do
  let name ← toStr "release contains a non-UTF-8 name" name
  validateName name
  if relative ++ [name] = manifestPath then return w
  else do
    let w ← w.countEntry
    validate (relative ++ [name]) w

/-- The order of file names. -/
def nameLe (a b : OsString) : Bool := decide (a ≤ b)

mutual

def validateNode : Node → RelativePath → Walk → Except String Walk
  | .symlink, _, _ => .error "release contains a symbolic link"
  | .special, _, _ => .error "release contains a special file"
  | .file mode nlink content, relative, w => validateFile sha expected mode nlink content relative w
  | .directory mode children, relative, w => do
    let w ← enterDirectory expected mode relative w
    (Node.sortByName nameLe (validateNodes children)).foldlM
      (fun w child => validateChild relative child.1 child.2 w) w

/-- Each child with what its node goes through. -/
def validateNodes :
    List (OsString × Node) → List (OsString × (RelativePath → Walk → Except String Walk))
  | [] => []
  | (name, child) :: rest => (name, validateNode child) :: validateNodes rest

end

/-- `validate_directory`; `validateNode` calls it again on a directory's children. -/
def validateDirectory (n : Node) (relative : RelativePath) (w : Walk) : Except String Walk :=
  match n with
  | .directory .. => validateNode sha expected n relative w
  | _ => .error "release contains an invalid directory"

end Walking

/-- `verify_release_with_options` from `parse_entries` on. -/
def verifyEntries (sha : Digest) (entries : List ReleaseEntry) (root : Node) :
    Except String Counters := do
  let expected ← parseEntries entries
  validateExactLayout expected
  let w ← validateDirectory sha expected root [] .start
  ensure (w.seen.length = expected.size) "release is missing one or more manifest entries"
  return w.counters

end HostMonitoring.Release
