import HostMonitoring.Workflow.Lines

namespace HostMonitoring.Workflow

open Framework Framework.Checks Framework.PyText

def allowedRunners : List (List Char) :=
  ["ubuntu-24.04".toList, "macos-26".toList, "$\x7b\x7b matrix.os \x7d\x7d".toList]

def matrixRunner : List Char := "$\x7b\x7b matrix.os \x7d\x7d".toList

def exactDesktopMatrix : List Char := "os: [ubuntu-24.04, windows-2025, macos-26]".toList

def maxTimeoutMinutes : Nat := 60

/-- `[A-Za-z0-9_-]+:`. -/
def jobHeader : Regex := .seq (.plus isWord) (.lit ":".toList)

/-- `runs-on:\s*(.+)`. -/
def runsOn : Regex :=
  .seq (.lit "runs-on:".toList) (.seq (.star isSpace) (.group (.plus dot)))

/-- `timeout-minutes: ([0-9]+)`. -/
def timeoutMinutes : Regex := .seq (.lit "timeout-minutes: ".toList) (.group (.plus Char.isDigit))

def oneExactTopLevelPermissions (source : String) (lines : List Line) : Except String Unit :=
  let candidates := lines.filter fun line => line.indent == 0 && permissionsKey.matchStart line.content
  ensure (candidates.map (·.content) = ["permissions: \x7b\x7d".toList])
    (fail source candidates.head?
      "top-level permissions must appear exactly once as permissions: \x7b\x7d")

def isJobHeader (line : Line) : Bool := line.indent == 2 && (jobHeader.fullmatch line.content).isSome

/-- Each header with the lines up to the next one. -/
def segments : List Line → List (Line × List Line)
  | [] => []
  | line :: rest =>
    if isJobHeader line then (line, rest.takeWhile (!isJobHeader ·)) :: segments rest
    else segments rest

def jobSegments (source : String) (lines : List Line) :
    Except String (List (Line × List Line)) := do
  let isJobs (line : Line) : Bool := line.indent == 0 && line.content == "jobs:".toList
  ensure ((lines.filter isJobs).length = 1)
    (fail source none "workflow must contain exactly one block-style jobs mapping")
  let start := lines.findIdx isJobs + 1
  let body := (lines.drop start).takeWhile (·.indent != 0)
  ensure (body.any isJobHeader)
    (fail source (lines.find? isJobs) "jobs mapping must contain at least one job")
  body.forM fun line =>
    reject (line.indent = 2 ∧ !isJobHeader line)
      (fail source (some line) "jobs must use an explicit block mapping")
  return segments body

def matchingJobProperty (segment : List Line) (pattern : Regex) : List Line :=
  segment.filter fun line => line.indent == 4 && pattern.matchStart line.content

/-- The most digits `int` takes. -/
def maxIntDigits : Nat := 4300

def int (digits : List Char) : Except String Nat := do
  ensure (digits.length ≤ maxIntDigits)
    (s!"Exceeds the limit ({maxIntDigits} digits) for integer string conversion: value has " ++
      s!"{digits.length} digits; use sys.set_int_max_str_digits() to increase the limit")
  return Nat.ofDigitChars 10 digits 0

def validateRunner (source : String) (header : Line) (segment : List Line) :
    Except String Unit := do
  let runners := matchingJobProperty segment runnerKey
  let runner : Option (List Char) := match runners with
    | [line] => (runsOn.fullmatch line.content).bind List.head?
    | _ => none
  ensure (allowedRunners.any fun allowed => runner == some allowed)
    (fail source (some (runners.head?.getD header))
      "every job must use an allowlisted immutable runner")
  let desktopMatrices := segment.filter (·.content == exactDesktopMatrix)
  reject (runner = some matrixRunner ∧ desktopMatrices.length ≠ 1)
    (fail source runners.head? "matrix.os must use the exact fixed desktop runner matrix")
  reject (runner ≠ some matrixRunner ∧ desktopMatrices ≠ [])
    (fail source desktopMatrices.head? "desktop runner matrix is unused")

def validateTimeout (source : String) (header : Line) (segment : List Line) :
    Except String Unit := do
  let timeouts := matchingJobProperty segment timeoutKey
  match timeouts with
  | [line] =>
    match timeoutMinutes.fullmatch line.content with
    | some [digits] => do
      let timeout ← int digits
      ensure (1 ≤ timeout ∧ timeout ≤ maxTimeoutMinutes)
        (fail source (some line) s!"timeout-minutes must be between 1 and {maxTimeoutMinutes}")
    | _ => .error (fail source (some line) "timeout-minutes must be a literal integer")
  | _ =>
    .error (fail source (some (timeouts.head?.getD header))
      "every job must declare exactly one timeout-minutes value")

def isReleasePublisher (source : String) (header : Line) : Bool :=
  source == ".github/workflows/release-build.yml" && header.content == "publish:".toList

def validatePermissions (source : String) (header : Line) (segment : List Line) :
    Except String Unit := do
  let permissions := matchingJobProperty segment permissionsKey
  ensure (permissions.map (·.content) = ["permissions:".toList])
    (fail source (some (permissions.head?.getD header))
      "every job must declare one block-style minimal permissions mapping")
  let permissionIndex := permissions.head?.elim 0 fun permission => segment.idxOf permission
  let entries := (segment.drop (permissionIndex + 1)).takeWhile (4 < ·.indent)
  let expectedPermission :=
    if isReleasePublisher source header then "contents: write" else "contents: read"
  ensure (entries.map (fun line => (line.indent, line.content)) = [(6, expectedPermission.toList)])
    (fail source (some ((entries.head? <|> permissions.head?).getD header))
      s!"job permissions must contain only {expectedPermission}")
  if isReleasePublisher source header then
    ensure ((segment.filter fun line =>
        line.indent == 4 && line.content == "needs: build".toList).length = 1)
      (fail source (some header)
        "the privileged publish job must depend directly on the read-only build job")

def validateJob (source : String) (header : Line) (segment : List Line) : Except String Unit := do
  validateRunner source header segment
  validateTimeout source header segment
  validatePermissions source header segment

end HostMonitoring.Workflow
