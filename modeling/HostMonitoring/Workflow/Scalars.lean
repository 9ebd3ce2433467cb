import HostMonitoring.Workflow.Lines

/-!
How YAML reads one line: where its quoted scalars and its keys are.
-/

namespace HostMonitoring.Workflow

open Framework.PyText

inductive Mode where
  /-- A node may start here, and a key when `key` is set. -/
  | start (key : Bool)
  | tag (key : Bool)
  | plain
  /-- Inside a quoted scalar, opened on this line or on an earlier one. -/
  | quoted (quote : Char) (here : Bool)
  /-- Behind a character that takes the next one along. -/
  | escaped (quote : Char) (here : Bool)
  /-- Behind a quoted scalar or a flow collection. -/
  | closed
  | comment
  /-- Inside a block scalar. -/
  | literal
deriving DecidableEq

structure Scan where
  mode : Mode
  /-- How many flow collections are open. -/
  depth : Nat
  /-- Nothing or white space stands before. -/
  blank : Bool
deriving DecidableEq

def isFlowIndicator (c : Char) : Bool :=
  c == ',' || c == '[' || c == ']' || c == '\x7b' || c == '\x7d'

/-- A flow indicator inside a flow collection, or one that opens a collection. -/
def flow (depth : Nat) (c : Char) : Mode × Nat :=
  if c == '[' || c == '\x7b' then (.start true, depth + 1)
  else if c == ',' then (.start true, depth)
  else (.closed, depth - 1)

def startNode (key : Bool) (depth : Nat) (c : Char) (ahead : Option Char) : Mode × Nat :=
  if isSpace c then (.start key, depth)
  else if isQuote c then (.quoted c true, depth)
  else if c == '!' || c == '&' then (.tag key, depth)
  else if c == '[' || c == '\x7b' || (0 < depth && isFlowIndicator c) then flow depth c
  else if (c == '-' || c == '?' || c == ':') && ahead.all isSpace then (.start true, depth)
  else (.plain, depth)

/-- What the character `c` with `ahead` behind it makes of a mode. -/
def advance (mode : Mode) (depth : Nat) (c : Char) (ahead : Option Char) : Mode × Nat :=
  match mode with
  | .start key => startNode key depth c ahead
  | .tag key =>
    if isSpace c then (.start key, depth)
    else if 0 < depth && isFlowIndicator c then flow depth c
    else (.tag key, depth)
  | .plain =>
    if c == ':' && (ahead.all isSpace || (0 < depth && ahead.any isFlowIndicator)) then
      (.start false, depth)
    else if 0 < depth && isFlowIndicator c then flow depth c
    else (.plain, depth)
  | .quoted quote here =>
    if (quote == '"' && c == '\\') || (quote == '\'' && c == '\'' && ahead == some '\'') then
      (.escaped quote here, depth)
    else if c == quote then (.closed, depth)
    else (.quoted quote here, depth)
  | .escaped quote here => (.quoted quote here, depth)
  | .closed =>
    if c == ':' && (ahead.all isSpace || 0 < depth) then (.start false, depth)
    else if 0 < depth && isFlowIndicator c then flow depth c
    else (.closed, depth)
  | .comment => (.comment, depth)
  | .literal => (.literal, depth)

def Mode.inText : Mode → Bool
  | .quoted _ _ | .escaped _ _ | .literal => true
  | _ => false

/-- Inside a quoted scalar that was opened on this line. -/
def Mode.inScalar : Mode → Bool
  | .quoted _ here | .escaped _ here => here
  | _ => false

def Scan.step (s : Scan) (c : Char) (ahead : Option Char) : Scan :=
  if c == '#' && s.blank && !s.mode.inText then ⟨.comment, s.depth, false⟩
  else
    let next := advance s.mode s.depth c ahead
    ⟨next.1, next.2, isSpace c⟩

/-- Reads `before`, with `after` behind it. -/
def Scan.read (s : Scan) : List Char → List Char → Scan
  | [], _ => s
  | c :: before, after => (s.step c (before ++ after).head?).read before after

/-- What a line continues from the lines before it: nothing, or a scalar; and in how
many flow collections it starts. -/
inductive Context where
  | nothing (depth : Nat)
  | plain (depth : Nat)
  | quoted (quote : Char) (depth : Nat)
  | literal

def Context.enter : Context → Scan
  | .nothing depth => ⟨.start true, depth, true⟩
  | .plain depth => ⟨.plain, depth, true⟩
  | .quoted quote depth => ⟨.quoted quote false, depth, true⟩
  | .literal => ⟨.literal, 0, true⟩

theorem Scan.read_concat (s : Scan) (before : List Char) (c : Char) (after : List Char) :
    s.read (before ++ [c]) after = (s.read before (c :: after)).step c after.head? := by
  induction before generalizing s with
  | nil => rfl
  | cons d before ih =>
    rw [List.cons_append, read, ih, read, List.append_assoc, List.singleton_append]

theorem flow_start (depth : Nat) (c : Char) (h : (flow depth c).1 = .start true) :
    c = '[' ∨ c = '\x7b' ∨ c = ',' := by
  rw [flow] at h
  split at h
  · next opens =>
    simp only [Bool.or_eq_true, beq_iff_eq] at opens
    exact opens.imp_right Or.inl
  · split at h
    · next separates => exact Or.inr (Or.inr (beq_iff_eq.mp separates))
    · cases h

theorem startNode_start (key : Bool) (depth : Nat) (c : Char) (ahead : Option Char)
    (solid : ahead.all isSpace = false) (h : (startNode key depth c ahead).1 = .start true) :
    isSpace c = true ∨ c = '[' ∨ c = '\x7b' ∨ c = ',' := by
  rw [startNode, solid, Bool.and_false] at h
  split at h
  · exact Or.inl ‹_›
  · split at h
    · cases h
    · split at h
      · cases h
      · split at h
        · exact Or.inr (flow_start depth c h)
        · cases h

/-- A key can start only behind white space or a flow indicator that opens or separates. -/
theorem Scan.step_start (s : Scan) (c : Char) (ahead : Option Char)
    (solid : ahead.all isSpace = false) (h : (s.step c ahead).mode = .start true) :
    isSpace c = true ∨ c = '[' ∨ c = '\x7b' ∨ c = ',' := by
  obtain ⟨mode, depth, blank⟩ := s
  rw [step] at h
  split at h
  · cases h
  · cases mode with
    | start key => exact startNode_start key depth c ahead solid h
    | tag key =>
      simp only [advance] at h
      split at h
      · exact Or.inl ‹_›
      · split at h
        · exact Or.inr (flow_start depth c h)
        · cases h
    | plain =>
      simp only [advance] at h
      split at h
      · cases h
      · split at h
        · exact Or.inr (flow_start depth c h)
        · cases h
    | quoted quote here =>
      simp only [advance] at h
      split at h
      · cases h
      · split at h
        · cases h
        · cases h
    | escaped quote here => cases h
    | closed =>
      simp only [advance] at h
      split at h
      · cases h
      · split at h
        · exact Or.inr (flow_start depth c h)
        · cases h
    | comment => cases h
    | literal => cases h

end HostMonitoring.Workflow
