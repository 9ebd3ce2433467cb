import HostMonitoring.Framework.JsonText
import HostMonitoring.Release.Bundle

namespace HostMonitoring.Release

open Framework Framework.Checks

abbrev Value := Json String

def application : String := "host-monitoring"
def applicationVersion : String := "0.9.10"
def manifestFormat : String := "host-monitoring-files-v1"
def contractFormat : String := "host-monitoring-release-v1"
def supportedServerTarget : String := "x86_64-unknown-linux-gnu"
def schemaSha256 : String := "138b1e3d3b2fa329d130a1ac646cf08d23ae69c8edb64f55f54fb070c2645dd0"

structure ReleaseManifest where
  manifestFormat : String
  application : String
  version : String
  sourceRevision : String
  binaryIdentitySha256 : String
  entries : List ReleaseEntry
deriving DecidableEq

section Strict

/-- A struct that denies unknown fields: each of its fields once, or an array of them in order. -/
def strictFields (names : List String) : Value → Option (List Value)
  | .obj fields =>
    if (fields.map Prod.fst).Nodup ∧ ∀ f ∈ fields, f.1 ∈ names then names.mapM (Json.get? fields)
    else none
  | .arr elems => if elems.length = names.length then some elems else none
  | _ => none

/-- A number without sign, fraction and exponent, in the range of a `u64`. -/
def u64 : Value → Option UInt64
  | .num n =>
    let value := Nat.ofDigitChars 10 n.toList 0
    if n.toList.all Char.isDigit ∧ value < 2 ^ 64 then some (UInt64.ofNat value) else none
  | _ => none

/-- The fields of a variant, after its tag is known. -/
def variant (kind : String) (body : Value) : Option ReleaseEntry :=
  if kind = "directory" then
    match strictFields ["path", "mode"] body with
    | some [.str path, .str mode] => some (.directory path mode)
    | _ => none
  else if kind = "file" then
    match strictFields ["path", "mode", "size", "sha256"] body with
    | some [.str path, .str mode, size, .str sha256] =>
      (u64 size).map fun size => .file path mode size sha256
    | _ => none
  else none

/-- An entry is tagged by its field `kind`, given once. -/
def entryOf : Value → Option ReleaseEntry
  | .obj fields =>
    match fields.filter (fun f => f.1 = "kind") with
    | [(_, .str kind)] => variant kind (.obj (fields.filter fun f => f.1 ≠ "kind"))
    | _ => none
  | .arr (.str kind :: rest) => variant kind (.arr rest)
  | _ => none

def manifestOf (v : Value) : Option ReleaseManifest :=
  match strictFields ["manifest_format", "application", "version", "source_revision",
      "binary_identity_sha256", "entries"] v with
  | some [.str manifestFormat, .str application, .str version, .str sourceRevision,
      .str binaryIdentitySha256, .arr entries] =>
    (entries.mapM entryOf).map fun entries =>
      ⟨manifestFormat, application, version, sourceRevision, binaryIdentitySha256, entries⟩
  | _ => none

/-- `serde_json` gives up on values nested deeper than this. -/
def serdeDepth : Nat := 127

def parseManifest (text : List UInt8) : Option ReleaseManifest :=
  (utf8 text).bind fun cs => (JsonText.parse serdeDepth cs).bind manifestOf

end Strict

/-- What the build of a server fixes, as its build script checks it. -/
structure Build where
  target : String
  sourceRevision : String
  supported : target = supportedServerTarget
  revision : sourceRevision = "unbound" ∨ isFullGitRevision sourceRevision = true

structure ReleaseContract where
  manifestFormat : String
  application : String
  version : String
  apiPrefix : String
  schemaRevision : Nat
  schemaSha256 : String
  target : String
deriving DecidableEq

/-- The contract in `release.json`. -/
def releaseJson : ReleaseContract :=
  ⟨"host-monitoring-release-v1", "host-monitoring", "0.9.10", "/api/v2", 4,
    "138b1e3d3b2fa329d130a1ac646cf08d23ae69c8edb64f55f54fb070c2645dd0", "x86_64-unknown-linux-gnu"⟩

def ReleaseContract.current (build : Build) : ReleaseContract :=
  ⟨contractFormat, Release.application, applicationVersion, "/api/v2", 4, Release.schemaSha256,
    build.target⟩

def embedded (build : Build) : Except String ReleaseContract := do
  ensure (releaseJson = ReleaseContract.current build)
    "release contract is not the exact current Host Monitoring contract"
  return releaseJson

structure BinaryIdentity where
  contract : ReleaseContract
  sourceRevision : String

def BinaryIdentity.current (build : Build) : Except String BinaryIdentity := do
  let contract ← embedded build
  return ⟨contract, build.sourceRevision⟩

def BinaryIdentity.isReleaseBound (identity : BinaryIdentity) : Bool :=
  isFullGitRevision identity.sourceRevision

def BinaryIdentity.toJson (identity : BinaryIdentity) : Value :=
  .obj [("manifest_format", .str identity.contract.manifestFormat),
    ("application", .str identity.contract.application),
    ("version", .str identity.contract.version),
    ("api_prefix", .str identity.contract.apiPrefix),
    ("schema_revision", .num identity.contract.schemaRevision.repr),
    ("schema_sha256", .str identity.contract.schemaSha256),
    ("target", .str identity.contract.target),
    ("source_revision", .str identity.sourceRevision)]

def currentJson (build : Build) : Except String (List UInt8) := do
  let identity ← BinaryIdentity.current build
  return bytes (String.ofList (JsonText.render identity.toJson))

/-- Where a release stands: the given path of its root with the tree there, and what the system
says of paths. -/
structure Site where
  root : OsString
  node : Node
  /-- The names of a path's real directories, from the file system's root. -/
  canonicalize : List Component → Option (List OsString)
  currentExe : Option (List Component)

def canonical (names : List OsString) : List Component := .rootDir :: names.map .normal

def orFail {α : Type} (message : String) (o : Option α) : Except String α :=
  o.elim (.error message) .ok

def validateReleaseRoot (site : Site) : Except String Unit := do
  let path : PathBuf := ⟨site.root⟩
  ensure (path.isAbsolute) "release root must be absolute"
  ensure (∀ c ∈ path.components, c = .rootDir ∨ c.name?.isSome)
    "release root must be a normalized absolute path"
  ensure (fileName path.components = some (bytes applicationVersion) ∧
      fileName path.components.dropLast = some (bytes "releases"))
    s!"release root must be releases/{applicationVersion}"
  let names ← orFail "release root cannot be resolved" (site.canonicalize path.components)
  ensure (canonical names = path.components)
    "release root and every parent component must be real directories"
  match site.node with
  | .directory mode _ => ensure (permissionMode mode = 0o555) "release root must have mode 0555"
  | _ => .error "release root must be a real directory"

def rootChild (site : Site) (name : OsString) : Option Node :=
  match site.node with
  | .directory _ children => children.lookup name
  | _ => none

def checkManifestMode : Node → Except String Unit
  | .file mode _ _ =>
    ensure (permissionMode mode = 0o444) "release manifest must have mode 0444"
  | _ => .ok ()

def readManifest (site : Site) : Except String ReleaseManifest := do
  let n ← orFail "release manifest is missing" (rootChild site (bytes releaseManifestName))
  ensureRegularMetadata "release manifest" n
  checkManifestMode n
  let text ← readVerifiedFile maxManifestBytes n
  orFail "release manifest must be strict JSON" (parseManifest text)

def serverPath (site : Site) : List Component :=
  components site.root ++ (relativePath serverBinary).map .normal

def checkExecutable (site : Site) : Except String Unit := do
  let exe ← orFail "current executable is unknown" site.currentExe
  let current ← orFail "current executable cannot be resolved" (site.canonicalize exe)
  let expected ← orFail "server binary cannot be resolved" (site.canonicalize (serverPath site))
  ensure (current = expected) "release must be verified by its own Host Monitoring server binary"

structure ReleaseVerification where
  status : String
  application : String
  version : String
  sourceRevision : String
  files : Nat
  bytes : Nat
deriving DecidableEq

def checkManifest (sha : Digest) (build : Build) (requireBoundSource : Bool)
    (manifest : ReleaseManifest) : Except String Unit := do
  let identity ← BinaryIdentity.current build
  ensure (requireBoundSource → identity.isReleaseBound)
    "release binary has no exact source revision binding"
  ensure (manifest.manifestFormat = manifestFormat ∧ manifest.application = application ∧
      manifest.version = applicationVersion ∧ manifest.sourceRevision = identity.sourceRevision)
    "release manifest does not match the exact current binary identity"
  validateSha256 manifest.binaryIdentitySha256
  let line ← currentJson build
  ensure (manifest.binaryIdentitySha256 = encodeHex (sha line).toList)
    "release manifest binary identity fingerprint mismatch"
  ensure (requireBoundSource → isFullGitRevision manifest.sourceRevision)
    "release manifest source revision is not a full lowercase Git commit"
  ensure (manifest.entries ≠ [] ∧ manifest.entries.length ≤ maxEntries)
    "release manifest entry count is invalid"

def verifyReleaseWithOptions (sha : Digest) (build : Build) (site : Site)
    (requireCurrentExecutable requireBoundSource : Bool) : Except String ReleaseVerification := do
  validateReleaseRoot site
  let manifest ← readManifest site
  checkManifest sha build requireBoundSource manifest
  if requireCurrentExecutable then checkExecutable site
  let counters ← verifyEntries sha manifest.entries site.node
  return ⟨"ok", application, applicationVersion, manifest.sourceRevision, counters.files,
    counters.bytes⟩

def verifyRelease (sha : Digest) (build : Build) (site : Site) :
    Except String ReleaseVerification :=
  verifyReleaseWithOptions sha build site true true

end HostMonitoring.Release
