import Mathlib.Data.List.DropRight

namespace HostMonitoring.Framework.PyText

/-- `str.isspace` of one character, and `\s` of a regular expression. -/
def isSpace (c : Char) : Bool :=
  let n := c.toNat
  (9 ≤ n && n ≤ 13) || (28 ≤ n && n ≤ 32) || n == 0x85 || n == 0xa0 || n == 0x1680 ||
    (0x2000 ≤ n && n ≤ 0x200a) || n == 0x2028 || n == 0x2029 || n == 0x202f || n == 0x205f ||
    n == 0x3000

/-- Where `str.splitlines` ends a line. -/
def isLineBreak (c : Char) : Bool :=
  let n := c.toNat
  (10 ≤ n && n ≤ 13) || (28 ≤ n && n ≤ 30) || n == 0x85 || n == 0x2028 || n == 0x2029

def splitlines : List Char → List (List Char)
  | [] => []
  | '\r' :: '\n' :: rest => [] :: splitlines rest
  | c :: rest =>
    if isLineBreak c then [] :: splitlines rest
    else match splitlines rest with
      | [] => [[c]]
      | line :: lines => (c :: line) :: lines

def rstrip (s : List Char) : List Char := s.rdropWhile isSpace

def lstrip (s : List Char) : List Char := s.dropWhile isSpace

def strip (s : List Char) : List Char := lstrip (rstrip s)

theorem newline_not_mem_splitlines (text line : List Char) (h : line ∈ splitlines text) :
    '\n' ∉ line := by
  induction text using splitlines.induct generalizing line with
  | case1 => simp [splitlines] at h
  | case2 rest ih =>
    rw [splitlines, List.mem_cons] at h
    obtain rfl | h := h
    · simp
    · exact ih line h
  | case3 c rest _ breaks ih =>
    rw [splitlines, if_pos breaks, List.mem_cons] at h
    · obtain rfl | h := h
      · simp
      · exact ih line h
    · assumption
  | case4 c rest _ plain none ih =>
    rw [splitlines, if_neg plain, none, List.mem_singleton] at h
    · rw [h, List.mem_singleton]
      rintro rfl
      exact plain rfl
    · assumption
  | case5 c rest _ plain first others split ih =>
    rw [splitlines, if_neg plain, split, List.mem_cons] at h
    · obtain rfl | h := h
      · rw [List.mem_cons, not_or]
        refine ⟨?_, ih first (by simp [split])⟩
        rintro rfl
        exact plain rfl
      · exact ih line (by simp [split, h])
    · assumption

/-- Only white space is stripped at the end. -/
theorem rstrip_append (s : List Char) :
    ∃ tail, tail.all isSpace = true ∧ s = rstrip s ++ tail := by
  refine ⟨s.rtakeWhile isSpace, ?_, List.rdropWhile_append_rtakeWhile.symm⟩
  rw [List.all_eq_true]
  exact fun c hc => List.mem_rtakeWhile_imp hc

end HostMonitoring.Framework.PyText
