import HostMonitoring.Framework.Checks
import HostMonitoring.Framework.PyText
import HostMonitoring.Framework.Regex

namespace HostMonitoring.Workflow

open Framework Framework.Checks Framework.PyText

def maxWorkflowBytes : Nat := 1024 * 1024

structure Line where
  number : Nat
  indent : Nat
  content : List Char
deriving DecidableEq

def isQuote (c : Char) : Bool := c == '"' || c == '\''

/-- `[A-Za-z0-9_-]`. -/
def isWord (c : Char) : Bool := c.isAlphanum || c == '_' || c == '-'

/-- The characters but the newline, as `.` reads. -/
def dot (c : Char) : Bool := c != '\n'

/-- `["']?name["']?\s*:`. -/
def quotedKey (name : String) : Regex :=
  .seq (.opt (.one isQuote)) (.seq (.lit name.toList) (.seq (.opt (.one isQuote))
    (.seq (.star isSpace) (.lit ":".toList))))

/-- `(?:^|[,{\s-])["']?uses["']?\s*:`. -/
def usesKey : Regex :=
  .seq (.alt .bos (.one fun c => c == ',' || c == '\x7b' || isSpace c || c == '-'))
    (quotedKey "uses")

def permissionsKey : Regex := .seq .bos (quotedKey "permissions")
def runnerKey : Regex := .seq .bos (quotedKey "runs-on")
def timeoutKey : Regex := .seq .bos (quotedKey "timeout-minutes")
def persistCredentialsKey : Regex := .seq .bos (quotedKey "persist-credentials")

/-- `\s+#.*$`. -/
def comment : Regex :=
  .seq (.plus isSpace) (.seq (.lit "#".toList) (.seq (.star dot) .eos))

/-- `(?:^|[\s:{,\[])(?:&|\*)[A-Za-z0-9_-]+`. -/
def anchor : Regex :=
  .seq (.alt .bos (.one fun c => isSpace c || c == ':' || c == '\x7b' || c == ',' || c == '['))
    (.seq (.alt (.lit "&".toList) (.lit "*".toList)) (.plus isWord))

def fail (source : String) (line : Option Line) (message : String) : String :=
  match line with
  | none => s!"{source}: {message}"
  | some line => s!"{source}:{line.number}: {message}"

/-- A raw line without its comment. -/
def uncommented (raw : List Char) : List Char := rstrip (comment.erase raw)

/-- What `logical_lines` passes over. -/
def passedOver (text : List Char) : Bool :=
  (strip text).isEmpty || (lstrip text).head? == some '#'

def logicalLine (source : String) (number : Nat) (raw : List Char) :
    Except String (Option Line) := do
  reject ('\t' ∈ raw) (fail source (some ⟨number, 0, raw⟩) "tabs are forbidden in workflows")
  let text := uncommented raw
  if passedOver text then
    return none
  else
    let content := text.dropWhile (· == ' ')
    let indent := text.length - content.length
    reject ("<<:".toList.isPrefixOf content || anchor.search content)
      (fail source (some ⟨number, indent, content⟩)
        "YAML anchors, aliases, and merge keys are forbidden")
    return some ⟨number, indent, content⟩

def readLines (source : String) : Nat → List (List Char) → Except String (List Line)
  | _, [] => .ok []
  | number, raw :: rest => do
    let line ← logicalLine source number raw
    let lines ← readLines source (number + 1) rest
    return line.toList ++ lines

def utf8Length (text : List Char) : Nat := text.foldl (fun n c => n + c.utf8Size) 0

def logicalLines (source : String) (text : List Char) : Except String (List Line) := do
  ensure (utf8Length text ≤ maxWorkflowBytes)
    (fail source none "workflow exceeds the 1 MiB policy limit")
  readLines source 1 (splitlines text)

end HostMonitoring.Workflow
