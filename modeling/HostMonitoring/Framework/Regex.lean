import Mathlib.Data.List.Basic

namespace HostMonitoring.Framework

/-- Regular expressions that repeat single characters only. -/
inductive Regex where
  | bos
  | eos
  | lit (text : List Char)
  | one (p : Char → Bool)
  | star (p : Char → Bool)
  | times (n : Nat) (p : Char → Bool)
  | opt (r : Regex)
  | alt (a b : Regex)
  | seq (a b : Regex)
  | group (r : Regex)

namespace Regex

/-- What a part of an expression can make of a text: the groups it captures and the
text behind it. -/
abbrev Found := List (List Char) × List Char

/-- What may follow a greedy repetition, the longest repetition first. -/
def starRests (p : Char → Bool) : List Char → List (List Char)
  | [] => [[]]
  | c :: t => if p c then starRests p t ++ [c :: t] else [c :: t]

/-- The matches at the start of `s`, in the order backtracking finds them; `first`
says whether the searched text starts here. -/
def run : Regex → Bool → List Char → List Found
  | bos, first, s => if first then [([], s)] else []
  | eos, _, s => if s = [] ∨ s = ['\n'] then [([], s)] else []
  | lit text, _, s => if text.isPrefixOf s then [([], s.drop text.length)] else []
  | one _, _, [] => []
  | one p, _, c :: t => if p c then [([], t)] else []
  | star p, _, s => (starRests p s).map fun t => ([], t)
  | times n p, _, s =>
    if (s.take n).length = n ∧ (s.take n).all p = true then [([], s.drop n)] else []
  | opt r, first, s => run r first s ++ [([], s)]
  | alt a b, first, s => run a first s ++ run b first s
  | seq a b, first, s => (run a first s).flatMap fun x =>
      (run b (first && x.2.length == s.length) x.2).map fun y => (x.1 ++ y.1, y.2)
  | group r, first, s => (run r first s).map fun x => (s.take (s.length - x.2.length) :: x.1, x.2)

attribute [local simp] run

/-- One or more. -/
def plus (p : Char → Bool) : Regex := seq (one p) (star p)

theorem mem_starRests (p : Char → Bool) (s t : List Char) :
    t ∈ starRests p s ↔ ∃ m, m.all p = true ∧ s = m ++ t := by
  induction s with
  | nil =>
    constructor
    · intro h
      rw [starRests, List.mem_singleton] at h
      exact ⟨[], rfl, by simp [h]⟩
    · rintro ⟨m, _, h⟩
      have nothing := List.append_eq_nil_iff.mp h.symm
      simp [starRests, nothing.2]
  | cons c u ih =>
    by_cases hc : p c = true
    · rw [starRests, if_pos hc, List.mem_append, ih, List.mem_singleton]
      constructor
      · intro h
        obtain ⟨m, hm, rfl⟩ | rfl := h
        · exact ⟨c :: m, by simp [hc, hm], rfl⟩
        · exact ⟨[], rfl, rfl⟩
      · rintro ⟨m, hm, h⟩
        cases m with
        | nil => exact Or.inr h.symm
        | cons d m =>
          simp only [List.cons_append, List.cons.injEq] at h
          simp only [List.all_cons, Bool.and_eq_true] at hm
          exact Or.inl ⟨m, hm.2, h.2⟩
    · rw [starRests, if_neg hc, List.mem_singleton]
      constructor
      · intro h
        exact ⟨[], rfl, h.symm⟩
      · rintro ⟨m, hm, h⟩
        cases m with
        | nil => exact h.symm
        | cons d m =>
          simp only [List.cons_append, List.cons.injEq] at h
          simp only [List.all_cons, Bool.and_eq_true] at hm
          rw [h.1] at hc
          exact absurd hm.1 hc

variable (first : Bool) (s : List Char) (x : Found)

@[simp] theorem mem_run_bos : x ∈ run bos first s ↔ first = true ∧ x = ([], s) := by
  cases first with
  | false => simp
  | true => simp

@[simp] theorem mem_run_eos : x ∈ run eos first s ↔ (s = [] ∨ s = ['\n']) ∧ x = ([], s) := by
  by_cases h : s = [] ∨ s = ['\n']
  · simp [h]
  · simp [h]

@[simp] theorem mem_run_lit (text : List Char) :
    x ∈ run (lit text) first s ↔ x.1 = [] ∧ s = text ++ x.2 := by
  by_cases h : text.isPrefixOf s = true
  · obtain ⟨t, rfl⟩ := List.isPrefixOf_iff_prefix.mp h
    simp only [run, h, if_true, List.drop_left, List.mem_singleton, List.append_cancel_left_eq]
    exact Prod.ext_iff.trans (and_congr_right fun _ => eq_comm)
  · simp only [run, if_neg h, List.not_mem_nil, false_iff, not_and]
    intro _ same
    rw [List.isPrefixOf_iff_prefix] at h
    exact h ⟨x.2, same.symm⟩

@[simp] theorem mem_run_one (p : Char → Bool) :
    x ∈ run (one p) first s ↔ x.1 = [] ∧ ∃ c, p c = true ∧ s = c :: x.2 := by
  cases s with
  | nil => simp
  | cons c t =>
    by_cases h : p c = true
    · simp only [run, h, if_true, List.mem_singleton, List.cons.injEq]
      rw [Prod.ext_iff]
      refine and_congr_right fun _ => ⟨fun same => ⟨c, h, rfl, same.symm⟩, ?_⟩
      rintro ⟨_, _, _, same⟩
      exact same.symm
    · simp only [run, if_neg h, List.not_mem_nil, false_iff, List.cons.injEq]
      rintro ⟨_, d, hd, rfl, _⟩
      exact h hd

@[simp] theorem mem_run_star (p : Char → Bool) :
    x ∈ run (star p) first s ↔ x.1 = [] ∧ ∃ m, m.all p = true ∧ s = m ++ x.2 := by
  rw [run, List.mem_map]
  constructor
  · rintro ⟨t, ht, rfl⟩
    exact ⟨rfl, (mem_starRests p s t).mp ht⟩
  · rintro ⟨none, h⟩
    exact ⟨x.2, (mem_starRests p s x.2).mpr h, Prod.ext none.symm rfl⟩

@[simp] theorem mem_run_times (n : Nat) (p : Char → Bool) :
    x ∈ run (times n p) first s ↔
      x.1 = [] ∧ ∃ m, m.length = n ∧ m.all p = true ∧ s = m ++ x.2 := by
  constructor
  · intro h
    rw [run] at h
    split at h
    · next fits =>
      rw [List.mem_singleton] at h
      rw [h]
      exact ⟨rfl, s.take n, fits.1, fits.2, (List.take_append_drop n s).symm⟩
    · cases h
  · rintro ⟨none, m, rfl, all, rfl⟩
    rw [run, if_pos (by simp [all])]
    simp [Prod.ext_iff, none]

@[simp] theorem mem_run_opt (r : Regex) :
    x ∈ run (opt r) first s ↔ x ∈ run r first s ∨ x = ([], s) := by
  simp

@[simp] theorem mem_run_alt (a b : Regex) :
    x ∈ run (alt a b) first s ↔ x ∈ run a first s ∨ x ∈ run b first s := by
  simp

@[simp] theorem mem_run_seq (a b : Regex) :
    x ∈ run (seq a b) first s ↔ ∃ y ∈ run a first s,
      ∃ z ∈ run b (first && y.2.length == s.length) y.2, x = (y.1 ++ z.1, z.2) := by
  simp only [run, List.mem_flatMap, List.mem_map, eq_comm (a := x)]

/-- What is found is behind what was read. -/
theorem run_suffix (r : Regex) (h : x ∈ run r first s) : ∃ m, s = m ++ x.2 := by
  induction r generalizing first s x with
  | bos =>
    obtain ⟨_, rfl⟩ := (mem_run_bos first s x).mp h
    exact ⟨[], rfl⟩
  | eos =>
    obtain ⟨_, rfl⟩ := (mem_run_eos first s x).mp h
    exact ⟨[], rfl⟩
  | lit text => exact ⟨text, ((mem_run_lit first s x text).mp h).2⟩
  | one p =>
    obtain ⟨_, c, _, same⟩ := (mem_run_one first s x p).mp h
    exact ⟨[c], same⟩
  | star p =>
    obtain ⟨_, m, _, same⟩ := (mem_run_star first s x p).mp h
    exact ⟨m, same⟩
  | times n p =>
    obtain ⟨_, m, _, _, same⟩ := (mem_run_times first s x n p).mp h
    exact ⟨m, same⟩
  | opt r ih =>
    obtain found | rfl := (mem_run_opt first s x r).mp h
    · exact ih first s x found
    · exact ⟨[], rfl⟩
  | alt a b iha ihb =>
    obtain found | found := (mem_run_alt first s x a b).mp h
    · exact iha first s x found
    · exact ihb first s x found
  | seq a b iha ihb =>
    obtain ⟨y, hy, z, hz, rfl⟩ := (mem_run_seq first s x a b).mp h
    obtain ⟨m, same⟩ := iha first s y hy
    obtain ⟨m', same'⟩ := ihb _ y.2 z hz
    exact ⟨m ++ m', by rw [same, same', List.append_assoc]⟩
  | group r ih =>
    simp only [run, List.mem_map] at h
    obtain ⟨y, hy, rfl⟩ := h
    exact ih first s y hy

@[simp] theorem mem_run_group (r : Regex) :
    x ∈ run (group r) first s ↔ ∃ y ∈ run r first s, ∃ m, s = m ++ y.2 ∧ x = (m :: y.1, y.2) := by
  simp only [run, List.mem_map]
  refine exists_congr fun y => and_congr_right fun hy => ?_
  obtain ⟨m, rfl⟩ := run_suffix first s y r hy
  simp [eq_comm]

/-- What an expression reads: `m`, with `rest` behind it, capturing the groups. -/
def Reads : Regex → Bool → List Char → List (List Char) → List Char → Prop
  | bos, first, _, groups, m => first = true ∧ groups = [] ∧ m = []
  | eos, _, rest, groups, m => (rest = [] ∨ rest = ['\n']) ∧ groups = [] ∧ m = []
  | lit text, _, _, groups, m => groups = [] ∧ m = text
  | one p, _, _, groups, m => groups = [] ∧ ∃ c, p c = true ∧ m = [c]
  | star p, _, _, groups, m => groups = [] ∧ m.all p = true
  | times n p, _, _, groups, m => groups = [] ∧ m.length = n ∧ m.all p = true
  | opt r, first, rest, groups, m => Reads r first rest groups m ∨ (groups = [] ∧ m = [])
  | alt a b, first, rest, groups, m => Reads a first rest groups m ∨ Reads b first rest groups m
  | seq a b, first, rest, groups, m => ∃ g u, ∃ h v, groups = g ++ h ∧ m = u ++ v ∧
      Reads a first (v ++ rest) g u ∧ Reads b (first && u.isEmpty) rest h v
  | group r, first, rest, groups, m => ∃ g, groups = m :: g ∧ Reads r first rest g m

/-- Backtracking finds what the expression reads. -/
theorem mem_run (r : Regex) (first : Bool) (s rest : List Char) (groups : List (List Char)) :
    (groups, rest) ∈ run r first s ↔ ∃ m, s = m ++ rest ∧ Reads r first rest groups m := by
  induction r generalizing first s rest groups with
  | bos =>
    rw [mem_run_bos, Prod.ext_iff]
    constructor
    · rintro ⟨start, none, same⟩
      exact ⟨[], same.symm, start, none, rfl⟩
    · rintro ⟨m, same, start, none, rfl⟩
      exact ⟨start, none, same.symm⟩
  | eos =>
    rw [mem_run_eos, Prod.ext_iff]
    constructor
    · rintro ⟨last, none, same⟩
      have same : rest = s := same
      exact ⟨[], same.symm, by rwa [same], none, rfl⟩
    · rintro ⟨m, same, last, none, rfl⟩
      have same : s = rest := same
      exact ⟨by rwa [same], none, same.symm⟩
  | lit text =>
    rw [mem_run_lit]
    constructor
    · rintro ⟨none, same⟩
      exact ⟨text, same, none, rfl⟩
    · rintro ⟨m, same, none, rfl⟩
      exact ⟨none, same⟩
  | one p =>
    rw [mem_run_one]
    constructor
    · rintro ⟨none, c, hc, same⟩
      exact ⟨[c], same, none, c, hc, rfl⟩
    · rintro ⟨m, same, none, c, hc, rfl⟩
      exact ⟨none, c, hc, same⟩
  | star p =>
    rw [mem_run_star]
    constructor
    · rintro ⟨none, m, hm, same⟩
      exact ⟨m, same, none, hm⟩
    · rintro ⟨m, same, none, hm⟩
      exact ⟨none, m, hm, same⟩
  | times n p =>
    rw [mem_run_times]
    constructor
    · rintro ⟨none, m, count, hm, same⟩
      exact ⟨m, same, none, count, hm⟩
    · rintro ⟨m, same, none, count, hm⟩
      exact ⟨none, m, count, hm, same⟩
  | opt r ih =>
    rw [mem_run_opt, ih, Prod.ext_iff]
    constructor
    · rintro (⟨m, same, reads⟩ | ⟨none, same⟩)
      · exact ⟨m, same, Or.inl reads⟩
      · exact ⟨[], same.symm, Or.inr ⟨none, rfl⟩⟩
    · rintro ⟨m, same, reads | ⟨none, rfl⟩⟩
      · exact Or.inl ⟨m, same, reads⟩
      · exact Or.inr ⟨none, same.symm⟩
  | alt a b iha ihb =>
    rw [mem_run_alt, iha, ihb]
    constructor
    · rintro (⟨m, same, reads⟩ | ⟨m, same, reads⟩)
      · exact ⟨m, same, Or.inl reads⟩
      · exact ⟨m, same, Or.inr reads⟩
    · rintro ⟨m, same, reads | reads⟩
      · exact Or.inl ⟨m, same, reads⟩
      · exact Or.inr ⟨m, same, reads⟩
  | seq a b iha ihb =>
    have start (u t : List Char) : (t.length == (u ++ t).length) = u.isEmpty := by
      cases u with
      | nil => simp
      | cons c u =>
        simp only [List.isEmpty_cons, beq_eq_false_iff_ne, List.length_append, List.length_cons]
        omega
    rw [mem_run_seq]
    constructor
    · rintro ⟨⟨g, t⟩, hg, ⟨h, rest'⟩, hh, same⟩
      obtain ⟨rfl, rfl⟩ := Prod.mk.inj same
      obtain ⟨u, rfl, readsA⟩ := (iha _ _ _ _).mp hg
      obtain ⟨v, rfl, readsB⟩ := (ihb _ _ _ _).mp hh
      rw [start] at readsB
      exact ⟨u ++ v, by rw [List.append_assoc], g, u, h, v, rfl, rfl, readsA, readsB⟩
    · rintro ⟨m, rfl, g, u, h, v, rfl, rfl, readsA, readsB⟩
      refine ⟨(g, v ++ rest), (iha _ _ _ _).mpr ⟨u, by rw [List.append_assoc], readsA⟩,
        (h, rest), (ihb _ _ _ _).mpr ⟨v, rfl, ?_⟩, rfl⟩
      rw [List.append_assoc, start]
      exact readsB
  | group r ih =>
    rw [mem_run_group]
    constructor
    · rintro ⟨⟨g, t⟩, hg, m, rfl, same⟩
      obtain ⟨rfl, rfl⟩ := Prod.mk.inj same
      obtain ⟨m', split, reads⟩ := (ih _ _ _ _).mp hg
      rw [List.append_cancel_right split]
      exact ⟨m', rfl, g, rfl, reads⟩
    · rintro ⟨m, rfl, g, rfl, reads⟩
      exact ⟨(g, rest), (ih _ _ _ _).mpr ⟨m, rfl, reads⟩, m, rfl, rfl⟩

/-- `re.match`. -/
def matchStart (r : Regex) (s : List Char) : Bool := !(run r true s).isEmpty

/-- `re.fullmatch`, with the groups of the match. -/
def fullmatch (r : Regex) (s : List Char) : Option (List (List Char)) :=
  ((run r true s).find? fun x => x.2.isEmpty).map (·.1)

def searchFrom (r : Regex) : Bool → List Char → Bool
  | first, [] => !(run r first []).isEmpty
  | first, c :: t => !(run r first (c :: t)).isEmpty || searchFrom r false t

/-- `re.search`. -/
def search (r : Regex) (s : List Char) : Bool := searchFrom r true s

/-- `re.sub` by nothing, in at most so many steps. -/
def eraseFrom (r : Regex) : Nat → Bool → List Char → List Char
  | 0, _, s => s
  | _ + 1, _, [] => []
  | n + 1, first, c :: t =>
    match (run r first (c :: t)).head? with
    | none => c :: eraseFrom r n false t
    | some (_, rest) =>
      if rest.length < t.length + 1 then eraseFrom r n false rest
      else c :: eraseFrom r n false t

/-- `re.sub` by nothing. -/
def erase (r : Regex) (s : List Char) : List Char := eraseFrom r s.length true s

theorem fullmatch_reads (r : Regex) (s : List Char) (groups : List (List Char))
    (h : fullmatch r s = some groups) : Reads r true [] groups s := by
  obtain ⟨x, found, rfl⟩ := Option.map_eq_some_iff.mp h
  have hx := List.mem_of_find?_eq_some found
  have whole := List.find?_some found
  rw [List.isEmpty_iff] at whole
  obtain ⟨m, same, reads⟩ := (mem_run r true s x.2 x.1).mp hx
  rw [whole, List.append_nil] at same
  rw [same, ← whole]
  exact reads

theorem searchFrom_eq_true (r : Regex) (first : Bool) (s : List Char) :
    searchFrom r first s = true ↔ ∃ before m rest groups, s = before ++ (m ++ rest) ∧
      Reads r (first && before.isEmpty) rest groups m := by
  have here (first : Bool) (s : List Char) : (!(run r first s).isEmpty) = true ↔
      ∃ m rest groups, s = m ++ rest ∧ Reads r first rest groups m := by
    rw [Bool.not_eq_true', List.isEmpty_eq_false_iff_exists_mem]
    constructor
    · rintro ⟨x, hx⟩
      obtain ⟨m, same, reads⟩ := (mem_run r first s x.2 x.1).mp hx
      exact ⟨m, x.2, x.1, same, reads⟩
    · rintro ⟨m, rest, groups, same, reads⟩
      exact ⟨(groups, rest), (mem_run r first s rest groups).mpr ⟨m, same, reads⟩⟩
  induction s generalizing first with
  | nil =>
    rw [searchFrom, here]
    constructor
    · rintro ⟨m, rest, groups, same, reads⟩
      exact ⟨[], m, rest, groups, same, by simpa using reads⟩
    · rintro ⟨before, m, rest, groups, same, reads⟩
      obtain ⟨rfl, nothing⟩ := List.append_eq_nil_iff.mp same.symm
      exact ⟨m, rest, groups, nothing.symm, by simpa using reads⟩
  | cons c t ih =>
    rw [searchFrom, Bool.or_eq_true, here]
    refine (or_congr_right (ih false)).trans ?_
    constructor
    · rintro (⟨m, rest, groups, same, reads⟩ | ⟨before, m, rest, groups, rfl, reads⟩)
      · exact ⟨[], m, rest, groups, same, by simpa using reads⟩
      · exact ⟨c :: before, m, rest, groups, rfl, by simpa using reads⟩
    · rintro ⟨before, m, rest, groups, same, reads⟩
      cases before with
      | nil => exact Or.inl ⟨m, rest, groups, same, by simpa using reads⟩
      | cons d before =>
        rw [List.cons_append, List.cons.injEq] at same
        exact Or.inr ⟨before, m, rest, groups, same.2, by simpa using reads⟩

theorem search_eq_true (r : Regex) (s : List Char) :
    search r s = true ↔ ∃ before m rest groups, s = before ++ (m ++ rest) ∧
      Reads r before.isEmpty rest groups m := by
  rw [search, searchFrom_eq_true]
  simp only [Bool.true_and]

end Regex
end HostMonitoring.Framework
