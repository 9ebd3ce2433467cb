import HostMonitoring.Framework.Indices
import HostMonitoring.Workflow.Jobs

namespace HostMonitoring.Workflow

open Framework Framework.Checks Framework.PyText

def pinnedOfficialActions : List (List Char × List Char) :=
  [("actions/download-artifact".toList, "3e5f45b2cfb9172054b4087a40e8e0b5a5461e7c".toList),
    ("actions/upload-artifact".toList, "043fb46d1a93c77aae656e7c1c64a875d1fc6a0a".toList),
    ("actions/checkout".toList, "3d3c42e5aac5ba805825da76410c181273ba90b1".toList),
    ("actions/setup-node".toList, "820762786026740c76f36085b0efc47a31fe5020".toList)]

def lowerHexDigit (c : Char) : Bool := c.isDigit || ('a' ≤ c && c ≤ 'f')

/-- `(?P<name>actions/[A-Za-z0-9_.-]+)@(?P<sha>[0-9a-f]{40})`. -/
def pinnedAction : Regex :=
  .seq (.group (.seq (.lit "actions/".toList) (.plus fun c => isWord c || c == '.')))
    (.seq (.lit "@".toList) (.group (.times 40 lowerHexDigit)))

/-- `(?:-\s*)?uses:\s*(\S+)`. -/
def simpleUses : Regex :=
  .seq (.opt (.seq (.lit "-".toList) (.star isSpace)))
    (.seq (.lit "uses:".toList) (.seq (.star isSpace) (.group (.plus (!isSpace ·)))))

/-- `image:\s*[^\s@]+@sha256:[0-9a-f]{64}`. -/
def pinnedServiceImage : Regex :=
  .seq (.lit "image:".toList) (.seq (.star isSpace) (.seq (.plus fun c => !isSpace c && c != '@')
    (.seq (.lit "@sha256:".toList) (.times 64 lowerHexDigit))))

/-- A line that starts with `- `. -/
def Line.dashed (line : Line) : Bool := "- ".toList.isPrefixOf line.content

def indentAt (lines : List Line) (i : Nat) : Nat := (lines[i]?.map (·.indent)).getD 0

/-- The loop that steps back from the line with the index `n - 1`. -/
def stepStart (lines : List Line) (usesLine : Line) : Nat → Option Nat
  | 0 => none
  | n + 1 =>
    if holdsAt lines (fun candidate => candidate.indent ≤ usesLine.indent && candidate.dashed) n then
      some n
    else stepStart lines usesLine n

def propertyIndent (usesLine : Line) : Nat :=
  usesLine.indent + if usesLine.dashed then 2 else 0

def isWith (indent : Nat) (line : Line) : Bool :=
  line.indent == indent && line.content == "with:".toList

def isCredentials (line : Line) : Bool := persistCredentialsKey.matchStart line.content

def validateCheckoutCredentials (source : String) (lines : List Line) (usesIndex : Nat)
    (usesLine : Line) : Except String Unit :=
  match stepStart lines usesLine (usesIndex + 1) with
  | none => .error (fail source (some usesLine) "checkout must appear in an explicit step")
  | some start => do
    let stepIndent := indentAt lines start
    let stepEnd := nextIndex lines (start + 1) fun line => line.indent == stepIndent && line.dashed
    let step := slice lines start stepEnd
    let withBlocks := step.filter (isWith (propertyIndent usesLine))
    ensure (withBlocks.length = 1)
      (fail source (some (withBlocks.head?.getD usesLine))
        "actions/checkout must contain one explicit block-style with mapping")
    let withIndex := step.findIdx (isWith (propertyIndent usesLine))
    let withEnd := nextIndex step (withIndex + 1) (·.indent ≤ propertyIndent usesLine)
    let credentials := step.filter isCredentials
    let expectedCredentials := slice step (withIndex + 1) withEnd
    ensure (credentials.length = 1 ∧ credentials.all fun line =>
        line.content == "persist-credentials: false".toList &&
          line.indent == propertyIndent usesLine + 2 && expectedCredentials.contains line)
      (fail source (credentials.head? <|> withBlocks.head?)
        "actions/checkout with mapping must set persist-credentials: false exactly once")

/-- One line of the loop of `validate_actions`: whether it counts as an action. -/
def validateAction (source : String) (lines : List Line) (index : Nat) (line : Line) :
    Except String Bool :=
  if !usesKey.search line.content then .ok false
  else match simpleUses.fullmatch line.content with
    | some [reference] =>
      match pinnedAction.fullmatch reference with
      | some [actionName, sha] => do
        ensure (pinnedOfficialActions.lookup actionName = some sha)
          (fail source (some line) "action and commit SHA are not in the verified official allowlist")
        if actionName == "actions/checkout".toList then
          validateCheckoutCredentials source lines index line
        return true
      | _ => .error (fail source (some line)
          "actions must use an allowlisted official action at a full 40-character commit SHA")
    | _ => .error (fail source (some line) "uses must be a simple literal action reference")

def validateActions (source : String) (lines : List Line) : Except String Unit := do
  let actionCount ← lines.zipIdx.foldlM (fun count (line, index) => do
    let counted ← validateAction source lines index line
    return if counted then count + 1 else count) 0
  reject (actionCount = 0)
    (fail source none "workflow must contain at least one pinned official action")

def validateServiceImages (source : String) (lines : List Line) : Except String Unit :=
  lines.forM fun line =>
    reject ("image:".toList.isPrefixOf line.content &&
        (pinnedServiceImage.fullmatch line.content).isNone)
      (fail source (some line) "service images must use a literal name and full sha256 digest")

def validateWorkflow (source : String) (text : List Char) : Except String Unit := do
  let lines ← logicalLines source text
  oneExactTopLevelPermissions source lines
  let jobs ← jobSegments source lines
  jobs.forM fun (header, segment) => validateJob source header segment
  validateActions source lines
  validateServiceImages source lines

/-- A text of lines with their indentation. -/
def written (rows : List (Nat × String)) : List Char :=
  rows.flatMap fun (indent, content) => List.replicate indent ' ' ++ content.toList ++ ['\n']

def numbered (rows : List (Nat × String)) : List Line :=
  rows.zipIdx.map fun ((indent, content), i) => ⟨i + 1, indent, content.toList⟩

/-- The workflow that the self-tests start from, without its service. -/
def base : List (Nat × String) :=
  [(0, "name: fixture"), (0, "permissions: \x7b\x7d"), (0, "jobs:"), (2, "test:"),
    (4, "permissions:"), (6, "contents: read"), (4, "runs-on: ubuntu-24.04"),
    (4, "timeout-minutes: 10"), (4, "steps:"),
    (6, "- uses: actions/checkout@3d3c42e5aac5ba805825da76410c181273ba90b1"), (8, "with:"),
    (10, "persist-credentials: false")]

theorem logicalLines_base : logicalLines "positive-fixture.yml" (written base) =
    .ok (numbered base) := by decide +kernel

theorem validateWorkflow_base :
    validateWorkflow "positive-fixture.yml" (written base) = .ok () := by decide +kernel

end HostMonitoring.Workflow
