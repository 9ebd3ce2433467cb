import HostMonitoring.Framework.Checks
import HostMonitoring.Framework.Utf8

namespace HostMonitoring.Release

open Framework Framework.Checks

/-- A file name or a path, as the system gives it. -/
abbrev OsString := List UInt8

/-- A relative path as its names, from the outermost. -/
abbrev RelativePath := List OsString

def slash : UInt8 := 0x2f

def dot : UInt8 := 0x2e

inductive Component where
  | rootDir
  | curDir
  | parentDir
  | normal (name : OsString)
deriving DecidableEq

def Component.name? : Component → Option OsString
  | .normal name => some name
  | _ => none

/-- A part between separators, after the first. -/
def component? (part : OsString) : Option Component :=
  if part = [] ∨ part = [dot] then none
  else if part = [dot, dot] then some .parentDir
  else some (.normal part)

/-- `Path::components`: repeated separators and inner `.` parts disappear. -/
def components (path : OsString) : List Component :=
  match path.splitOn slash with
  | [] :: [] => []
  | [] :: parts => .rootDir :: parts.filterMap component?
  | part :: parts =>
    if part = [dot] then .curDir :: parts.filterMap component?
    else (part :: parts).filterMap component?
  | [] => []

/-- A path keeps its text and compares by its components. -/
structure PathBuf where
  inner : OsString

namespace PathBuf

def components (path : PathBuf) : List Component := Release.components path.inner

def isAbsolute (path : PathBuf) : Bool := path.inner.head? == some slash

def names (path : PathBuf) : RelativePath := path.components.filterMap Component.name?

end PathBuf

/-- `into_string` and `to_str`. -/
def toStr (message : String) (name : OsString) : Except String OsString :=
  if (utf8 name).isSome then .ok name else .error message

def portableByte (b : UInt8) : Bool :=
  (0x30 ≤ b && b ≤ 0x39) || (0x41 ≤ b && b ≤ 0x5a) || (0x61 ≤ b && b ≤ 0x7a) ||
    b == dot || b == 0x5f || b == 0x2d

/-- A name of ASCII letters, digits, `.`, `_` and `-` that is no step to another directory. -/
def Portable (name : OsString) : Prop :=
  name ≠ [] ∧ name ≠ [dot] ∧ name ≠ [dot, dot] ∧ ∀ b ∈ name, portableByte b

instance (name : OsString) : Decidable (Portable name) :=
  decidable_of_iff (name ≠ [] ∧ name ≠ [dot] ∧ name ≠ [dot, dot] ∧ name.all portableByte)
    (by simp only [Portable, List.all_eq_true])

def validateName (value : OsString) : Except String Unit :=
  ensure (Portable value) "release contains a non-portable name"

def validatedRelativePath (value : String) : Except String PathBuf := do
  ensure (bytes value ≠ [] ∧ (bytes value).length ≤ 1024) "invalid release path"
  let path : PathBuf := ⟨bytes value⟩
  ensure (¬path.isAbsolute) "release paths must be relative"
  ensure (∀ c ∈ path.components, c.name?.isSome) "release path contains an unsafe component"
  path.names.forM fun name => do
    let name ← toStr "release path is not UTF-8" name
    validateName name
  ensure (path.inner = bytes value) "release path is not canonical"
  return path

/-- `Path::file_name`. -/
def fileName (path : List Component) : Option OsString := path.getLast?.bind Component.name?

/-- `Path::extension` of a last name: what follows its last dot, unless the name begins
with that dot. -/
def extension (name : OsString) : Option OsString :=
  match (name.reverse.span (· != dot)) with
  | (_, []) => none
  | (_, [_]) => none
  | (after, _ :: _) => if name = [dot, dot] then none else some after.reverse

example : extension (bytes "app.min.js") = some (bytes "js") := by decide +kernel
example : extension (bytes ".js") = none := by decide +kernel

def octalDigit (b : UInt8) : Bool := 0x30 ≤ b && b ≤ 0x37

def parseMode (value : String) : Except String Nat := do
  ensure ((bytes value).length = 4 ∧ (bytes value).all octalDigit)
    "release mode must be four octal digits"
  return (bytes value).foldl (fun mode b => mode * 8 + (b.toNat - 0x30)) 0

def lowerHex (b : UInt8) : Bool := (0x30 ≤ b && b ≤ 0x39) || (0x61 ≤ b && b ≤ 0x66)

def validateSha256 (value : String) : Except String Unit :=
  ensure ((bytes value).length = 64 ∧ (bytes value).all lowerHex)
    "SHA-256 values must contain 64 lowercase hexadecimal digits"

def isFullGitRevision (value : String) : Bool :=
  (bytes value).length == 40 && (bytes value).all lowerHex

/-- SHA-256 stands for any function to 32 bytes. -/
abbrev Digest := List UInt8 → Vector UInt8 32

def encodeHex (digest : List UInt8) : String :=
  String.ofList (digest.flatMap fun b => [hexDigit (b.toNat / 16), hexDigit (b.toNat % 16)])

end HostMonitoring.Release
