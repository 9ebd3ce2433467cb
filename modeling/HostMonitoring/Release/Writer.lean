import HostMonitoring.Framework.Decimal
import HostMonitoring.Release.Manifest
import Mathlib.Data.List.Sort

namespace HostMonitoring.Release.Writer

open Framework Framework.Checks

/-- A Python string as its code points. A file name's stray bytes become lone surrogates. -/
abbrev PyStr := List Nat

def fsdecode (name : OsString) : PyStr :=
  (decodeFrom (fun b => some (0xdc00 + b.toNat)) 0 name).getD []

def portablePoint (p : Nat) : Bool :=
  (0x30 ≤ p && p ≤ 0x39) || (0x41 ≤ p && p ≤ 0x5a) || (0x61 ≤ p && p ≤ 0x7a) ||
    p == 0x2e || p == 0x5f || p == 0x2d

/-- `PORTABLE_NAME.fullmatch`. -/
def fullmatch (part : PyStr) : Bool := part ≠ [] ∧ part.all portablePoint

def asPosix (relative : RelativePath) : PyStr := [0x2f].intercalate (relative.map fsdecode)

def ofPoints (points : PyStr) : String := String.ofList (points.map Char.ofNat)

def portableRelative (relative : RelativePath) : Except String String := do
  let parts := relative.map fsdecode
  let shown := ofPoints (asPosix relative)
  ensure (parts ≠ [] ∧ ∀ part ∈ parts, part ∉ [[], [0x2e], [0x2e, 0x2e]] ∧ fullmatch part)
    s!"non-portable release path: {shown}"
  let value := asPosix relative
  ensure (value.length ≤ 1024) "release path exceeds 1024 characters"
  return ofPoints value

/-- What running `bin/host-monitoring-server identity` gave. -/
structure IdentityRun where
  returncode : Int
  stdout : List UInt8
  stderr : List UInt8

def newline : UInt8 := 0x0a

/-- A dictionary keeps the last value of a key. -/
def item (fields : List (String × Value)) (key : String) : Option Value :=
  Json.get? fields.reverse key

def identityKeys : List String :=
  ["manifest_format", "application", "version", "api_prefix", "schema_revision", "schema_sha256",
    "target", "source_revision"]

def isText (text : String) : Option Value → Bool
  | some (.str s) => s == text
  | _ => false

/-- The text of a number whose nearest double is 4. -/
def readsAsFour (text : List Char) : Bool :=
  let mantissa := text.takeWhile fun c => c != 'e' && c != 'E'
  let exponent := text.dropWhile fun c => c != 'e' && c != 'E'
  let whole := mantissa.takeWhile (· != '.')
  let fraction := (mantissa.dropWhile (· != '.')).drop 1
  let power := Decimal.value (exponent.filter Char.isDigit)
  let small := exponent.contains '-'
  let scaled := Decimal.value (whole ++ fraction) * 10 ^ (if small then 0 else power) * 2 ^ 52
  let unit := 10 ^ (fraction.length + if small then power else 0)
  -- between the doubles next to 4, at half the way
  text.head? != some '-' && decide ((2 ^ 54 - 1) * unit ≤ scaled ∧ scaled ≤ (2 ^ 54 + 2) * unit)

/-- `== 4` -/
def isFour : Option Value → Bool
  | some (.num n) => readsAsFour n.toList
  | _ => false

example : ["4", "4.0", "4e0", "40E-1", "0.4e+1"].all (readsAsFour ·.toList) = true := by
  decide +kernel

example : ["-4", "5", "4.1", "40", "4e1"].any (readsAsFour ·.toList) = false := by
  decide +kernel

def isSha256 : Option Value → Bool
  | some (.str s) => (bytes s).length == 64 && (bytes s).all lowerHex
  | _ => false

/-- The nesting `json.loads` puts up with. -/
def loadsDepth : Nat := 1000

/-- `json.loads` of bytes in UTF-8. -/
def loads (text : List UInt8) : Option Value := (utf8 text).bind (JsonText.parse loadsDepth)

/-- The source revision of an exact bound identity. -/
def boundRevision : Value → Except String String
  | .obj fields => do
    ensure ((∀ f ∈ fields, f.1 ∈ identityKeys) ∧ ∀ key ∈ identityKeys, Json.hasOwn fields key)
      "release binary identity has the wrong field set"
    ensure (isText contractFormat (item fields "manifest_format") ∧
        isText application (item fields "application") ∧
        isText applicationVersion (item fields "version") ∧
        isText "/api/v2" (item fields "api_prefix") ∧ isFour (item fields "schema_revision") ∧
        isText supportedServerTarget (item fields "target") ∧
        isSha256 (item fields "schema_sha256"))
      "release binary is not the exact bound Host Monitoring identity"
    match item fields "source_revision" with
    | some (.str revision) => do
      ensure (isFullGitRevision revision)
        "release binary is not the exact bound Host Monitoring identity"
      return revision
    | _ => .error "release binary is not the exact bound Host Monitoring identity"
  | _ => .error "release binary identity has the wrong field set"

/-- The identity line the binary printed, with its source revision. -/
def readIdentity (run : IdentityRun) : Except String (String × List UInt8) := do
  ensure (run.returncode = 0 ∧ run.stderr = [])
    "release binary could not report a clean identity"
  ensure (run.stdout.getLast? = some newline ∧ newline ∉ run.stdout.dropLast)
    "release binary identity must be exactly one JSON line"
  let encoded := run.stdout.dropLast
  let identity ← orFail "release binary identity is not JSON" (loads encoded)
  let revision ← boundRevision identity
  return (revision, encoded)

/-- A mode as four octal digits. -/
def octal (mode : Nat) : String :=
  let digits := Nat.toDigits 8 mode
  String.ofList (List.replicate (4 - digits.length) '0' ++ digits)

structure Progress where
  entries : List Value
  totalBytes : Nat

def Progress.start : Progress := ⟨[], 0⟩

def Progress.append (p : Progress) (entry : Value) (totalBytes : Nat) : Except String Progress := do
  let entries := p.entries ++ [entry]
  ensure (entries.length ≤ maxEntries) "release contains too many entries"
  return ⟨entries, totalBytes⟩

def directoryEntry (relative : String) : Value :=
  .obj [("kind", .str "directory"), ("path", .str relative), ("mode", .str "0555")]

def fileEntry (relative mode : String) (size : Nat) (sha256 : String) : Value :=
  .obj [("kind", .str "file"), ("path", .str relative), ("mode", .str mode),
    ("size", .num size.repr), ("sha256", .str sha256)]

/-- One path of the traversal. -/
def addPath (sha : Digest) (p : Progress) (found : RelativePath × Node) :
    Except String Progress := do
  let relative ← portableRelative found.1
  ensure (relative ≠ releaseManifestName) "release manifest appeared during traversal"
  match found.2 with
  | .symlink => .error s!"release contains a symbolic link: {relative}"
  | .special => .error s!"release contains a special file: {relative}"
  | .directory mode _ => do
    ensure (permissionMode mode = 0o555) s!"release directory must have mode 0555: {relative}"
    p.append (directoryEntry relative) p.totalBytes
  | .file mode nlink content => do
    let requiredMode := if relative = serverBinary then 0o555 else 0o444
    ensure (permissionMode mode = requiredMode) s!"release file has the wrong exact mode: {relative}"
    ensure (nlink = 1) s!"release file must have exactly one hard link: {relative}"
    ensure (content.length ≤ maxFileBytes) s!"release file exceeds size limit: {relative}"
    let totalBytes := p.totalBytes + content.length
    ensure (totalBytes ≤ maxReleaseBytes) "release exceeds total size limit"
    p.append (fileEntry relative (octal (permissionMode mode)) content.length
      (encodeHex (sha content).toList)) totalBytes

/-- `sorted(root.rglob("*"))` by the relative path's text. -/
def traversal (root : Node) : List (RelativePath × Node) :=
  (root.descendants []).mergeSort fun a b => decide (¬asPosix b.1 < asPosix a.1)

mutual

/-- What `sort_keys` makes of a value. -/
def sortKeys : Value → Value
  | .obj fields => .obj ((sortFields fields).insertionSort fun a b => a.1 ≤ b.1)
  | .arr elems => .arr (sortAll elems)
  | .null => .null
  | .bool b => .bool b
  | .num n => .num n
  | .str s => .str s

def sortAll : List Value → List Value
  | [] => []
  | v :: rest => sortKeys v :: sortAll rest

def sortFields : List (String × Value) → List (String × Value)
  | [] => []
  | (key, v) :: rest => (key, sortKeys v) :: sortFields rest

end

def dumps (v : Value) : List Char := JsonText.render (sortKeys v)

def manifestValue (sha : Digest) (revision : String) (encodedIdentity : List UInt8)
    (entries : List Value) : Value :=
  .obj [("manifest_format", .str manifestFormat), ("application", .str application),
    ("version", .str applicationVersion), ("source_revision", .str revision),
    ("binary_identity_sha256", .str (encodeHex (sha encodedIdentity).toList)),
    ("entries", .arr entries)]

def checkRoot (site : Site) : Except String Unit := do
  let path : PathBuf := ⟨site.root⟩
  ensure (path.isAbsolute ∧ fileName path.components = some (bytes applicationVersion) ∧
      fileName path.components.dropLast = some (bytes "releases"))
    "root must be an absolute releases/0.9.10 directory"
  let names ← orFail "release root cannot be resolved" (site.canonicalize path.components)
  -- a path that begins with two slashes is no path that begins with one
  ensure (canonical names = path.components ∧
      (site.root.take 2 = [slash, slash] → site.root.take 3 = [slash, slash, slash]))
    "release root must not traverse symbolic links"

/-- A regular file of mode 0444, as `lstat` shows it. -/
def regular0444 : Nat := 0o100444

/-- Writes the manifest of the tree at a release root and gives the tree with it. -/
def main (sha : Digest) (site : Site) (run : IdentityRun) : Except String Node := do
  checkRoot site
  match site.node with
  | .directory mode children => do
    ensure (rootChild site (bytes releaseManifestName) = none) "release manifest already exists"
    let (revision, encodedIdentity) ← readIdentity run
    let progress ← (traversal site.node).foldlM (addPath sha) .start
    let manifest := manifestValue sha revision encodedIdentity progress.entries
    let encoded := bytes (String.ofList (dumps manifest)) ++ [newline]
    return .directory mode (children ++ [(bytes releaseManifestName, .file regular0444 1 encoded)])
  | _ => .error "release root must be a real directory"

end HostMonitoring.Release.Writer
