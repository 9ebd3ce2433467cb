import HostMonitoring.Workflow.Actions

namespace HostMonitoring.Workflow

open Framework Framework.Checks Framework.PyText Framework.Regex

/-- A dash in front of a key, however much space behind it, or none. -/
def IsDash (dash : List Char) : Prop :=
  dash = [] ∨ ∃ blanks, blanks.all isSpace = true ∧ dash = '-' :: blanks

/-- A quote or none. -/
def IsQuoting (q : List Char) : Prop := q = [] ∨ ∃ c, isQuote c = true ∧ q = [c]

theorem reads_plus (p : Char → Bool) (first : Bool) (rest m : List Char)
    (groups : List (List Char)) :
    Reads (plus p) first rest groups m ↔ groups = [] ∧ m ≠ [] ∧ m.all p = true := by
  simp only [plus, Reads]
  constructor
  · rintro ⟨_, _, _, v, rfl, rfl, ⟨rfl, c, hc, rfl⟩, rfl, hv⟩
    exact ⟨rfl, List.cons_ne_nil c v, by simp [hc, hv]⟩
  · rintro ⟨rfl, some_, hm⟩
    obtain ⟨c, v, rfl⟩ := List.exists_cons_of_ne_nil some_
    simp only [List.all_cons, Bool.and_eq_true] at hm
    exact ⟨[], [c], [], v, rfl, rfl, ⟨rfl, c, hm.1, rfl⟩, rfl, hm.2⟩

theorem reads_quote (first : Bool) (rest m : List Char) (groups : List (List Char)) :
    Reads (.opt (.one isQuote)) first rest groups m ↔ groups = [] ∧ IsQuoting m := by
  simp only [Reads, IsQuoting]
  constructor
  · rintro (⟨rfl, c, hc, rfl⟩ | ⟨rfl, rfl⟩)
    · exact ⟨rfl, Or.inr ⟨c, hc, rfl⟩⟩
    · exact ⟨rfl, Or.inl rfl⟩
  · rintro ⟨rfl, rfl | ⟨c, hc, rfl⟩⟩
    · exact Or.inr ⟨rfl, rfl⟩
    · exact Or.inl ⟨rfl, c, hc, rfl⟩

theorem reads_quotedKey (name : String) (first : Bool) (rest q q' blanks : List Char)
    (hq : IsQuoting q) (hq' : IsQuoting q') (hb : blanks.all isSpace = true) :
    Reads (quotedKey name) first rest [] (q ++ (name.toList ++ (q' ++ (blanks ++ [':'])))) := by
  refine ⟨[], q, [], _, rfl, rfl, (reads_quote _ _ _ _).mpr ⟨rfl, hq⟩, ?_⟩
  refine ⟨[], name.toList, [], _, rfl, rfl, ⟨rfl, rfl⟩, ?_⟩
  refine ⟨[], q', [], _, rfl, rfl, (reads_quote _ _ _ _).mpr ⟨rfl, hq'⟩, ?_⟩
  exact ⟨[], blanks, [], _, rfl, rfl, ⟨rfl, hb⟩, rfl, rfl⟩

/-- What may stand before a `uses` key for the gate to see it. -/
def isSeparator (c : Char) : Bool := c == ',' || c == '\x7b' || isSpace c || c == '-'

theorem usesKey_search (before q q' blanks rest : List Char) (hq : IsQuoting q)
    (hq' : IsQuoting q') (hb : blanks.all isSpace = true)
    (separated : before.getLast?.all isSeparator = true) :
    usesKey.search (before ++ (q ++ ("uses".toList ++ (q' ++ (blanks ++ ':' :: rest))))) = true := by
  have key (first : Bool) : Reads (quotedKey "uses") first rest []
      (q ++ ("uses".toList ++ (q' ++ (blanks ++ [':'])))) :=
    reads_quotedKey "uses" first rest q q' blanks hq hq' hb
  rw [search_eq_true]
  obtain rfl | ⟨init, c, rfl⟩ := List.eq_nil_or_concat before
  · refine ⟨[], _, rest, [], ?_, [], [], [], _, rfl, rfl, Or.inl ⟨rfl, rfl, rfl⟩, key _⟩
    simp
  · rw [List.concat_eq_append, List.getLast?_concat, Option.all_some] at separated
    refine ⟨init, _, rest, [], ?_, [], [c], [], _, rfl, rfl,
      Or.inr ⟨rfl, c, separated, rfl⟩, key _⟩
    simp

/-- The text of a line that uses `reference` and has nothing else. -/
structure Uses (content reference : List Char) : Prop where
  written : ∃ dash gap, IsDash dash ∧ gap.all isSpace = true ∧
    content = dash ++ ("uses:".toList ++ (gap ++ reference))
  nonempty : reference ≠ []
  solid : reference.all (!isSpace ·) = true

theorem reads_dash (first : Bool) (rest m : List Char) (groups : List (List Char)) :
    Reads (.opt (.seq (.lit "-".toList) (.star isSpace))) first rest groups m ↔
      groups = [] ∧ IsDash m := by
  simp only [Reads, IsDash]
  constructor
  · rintro (⟨_, _, _, v, rfl, rfl, ⟨rfl, rfl⟩, rfl, hv⟩ | ⟨rfl, rfl⟩)
    · exact ⟨rfl, Or.inr ⟨v, hv, rfl⟩⟩
    · exact ⟨rfl, Or.inl rfl⟩
  · rintro ⟨rfl, rfl | ⟨v, hv, rfl⟩⟩
    · exact Or.inr ⟨rfl, rfl⟩
    · exact Or.inl ⟨[], ['-'], [], v, rfl, rfl, ⟨rfl, rfl⟩, rfl, hv⟩

theorem simpleUses_fullmatch (content : List Char) (groups : List (List Char))
    (h : simpleUses.fullmatch content = some groups) :
    ∃ reference, groups = [reference] ∧ Uses content reference := by
  obtain ⟨_, dash, _, _, rfl, rfl, hdash, _, _, _, _, rfl, rfl, ⟨rfl, rfl⟩, _, gap, _, _, rfl, rfl,
    ⟨rfl, hgap⟩, _, rfl, solid⟩ := fullmatch_reads _ _ _ h
  obtain ⟨rfl, dashed⟩ := (reads_dash _ _ _ _).mp hdash
  obtain ⟨rfl, some_, solid⟩ := (reads_plus _ _ _ _ _).mp solid
  exact ⟨_, rfl, ⟨dash, gap, dashed, hgap, rfl⟩, some_, solid⟩

theorem pinnedAction_fullmatch (reference : List Char) (groups : List (List Char))
    (h : pinnedAction.fullmatch reference = some groups) :
    ∃ name sha, groups = [name, sha] ∧ reference = name ++ '@' :: sha ∧ '@' ∉ name := by
  obtain ⟨_, name, _, _, rfl, rfl, ⟨_, rfl, _, _, _, m, rfl, rfl, ⟨rfl, rfl⟩, reads⟩, _, _, _, sha,
    rfl, rfl, ⟨rfl, rfl⟩, _, rfl, rfl, _⟩ := fullmatch_reads _ _ _ h
  obtain ⟨rfl, _, word⟩ := (reads_plus _ _ _ _ _).mp reads
  refine ⟨_, sha, rfl, rfl, ?_⟩
  rw [List.mem_append, not_or]
  refine ⟨by decide, fun at_ => ?_⟩
  have named := List.all_eq_true.mp word _ at_
  revert named
  decide

/-- The text behind the key, whatever the line is. -/
def referenceOf (content : List Char) : List Char :=
  ((if content.head? = some '-' then content.tail.dropWhile isSpace else content).drop 5).dropWhile
    isSpace

theorem dropWhile_blanks (blanks t : List Char) (hb : blanks.all isSpace = true) :
    (blanks ++ t).dropWhile isSpace = t.dropWhile isSpace :=
  List.dropWhile_append_of_pos (List.all_eq_true.mp hb)

theorem referenceOf_eq (dash gap reference : List Char) (hdash : IsDash dash)
    (hgap : gap.all isSpace = true) (start : reference.dropWhile isSpace = reference) :
    referenceOf (dash ++ ("uses:".toList ++ (gap ++ reference))) = reference := by
  have key : "uses:".toList = ['u', 's', 'e', 's', ':'] := rfl
  have letter : isSpace 'u' = false := by decide
  obtain rfl | ⟨blanks, hb, rfl⟩ := hdash
  · simp [referenceOf, key, dropWhile_blanks gap reference hgap, start]
  · simp [referenceOf, key, dropWhile_blanks blanks _ hb, letter,
      dropWhile_blanks gap reference hgap, start]

theorem Uses.referenceOf_eq {content reference : List Char} (h : Uses content reference) :
    referenceOf content = reference := by
  obtain ⟨⟨dash, gap, hdash, hgap, rfl⟩, some_, solid⟩ := h
  apply Workflow.referenceOf_eq dash gap reference hdash hgap
  obtain ⟨c, r, rfl⟩ := List.exists_cons_of_ne_nil some_
  simp only [List.all_cons, Bool.and_eq_true, Bool.not_eq_true'] at solid
  rw [List.dropWhile_cons_of_neg (by simp [solid.1])]

theorem search_written (dash tail : List Char) (hdash : IsDash dash) :
    usesKey.search (dash ++ ("uses:".toList ++ tail)) = true := by
  have separated : dash.getLast?.all isSeparator = true := by
    obtain rfl | ⟨blanks, hb, rfl⟩ := hdash
    · rfl
    · obtain rfl | ⟨init, c, rfl⟩ := List.eq_nil_or_concat blanks
      · rfl
      · rw [List.concat_eq_append, List.all_append, Bool.and_eq_true] at hb
        rw [List.concat_eq_append, ← List.cons_append, List.getLast?_concat, Option.all_some]
        simpa [isSeparator] using Or.inl (Or.inr hb.2)
  exact usesKey_search dash [] [] [] tail (Or.inl rfl) (Or.inl rfl) rfl separated

theorem mem_of_lookup {α β : Type} [BEq α] [LawfulBEq α] (xs : List (α × β)) (k : α) (v : β)
    (h : xs.lookup k = some v) : (k, v) ∈ xs := by
  obtain ⟨_, _, rfl, _⟩ := List.lookup_eq_some_iff.mp h
  simp

/-- A line on which the gate sees the key passes with one reference, to an action of the
allowlist. -/
theorem validateAction_ok (source : String) (lines : List Line) (i : Nat) (line : Line) (b : Bool)
    (h : validateAction source lines i line = .ok b) (seen : usesKey.search line.content = true) :
    ∃ name sha, Uses line.content (name ++ '@' :: sha) ∧ '@' ∉ name ∧
      (name, sha) ∈ pinnedOfficialActions ∧
      (name = "actions/checkout".toList →
        validateCheckoutCredentials source lines i line = .ok ()) := by
  rw [validateAction, seen, Bool.not_true, if_neg Bool.false_ne_true] at h
  cases simple : simpleUses.fullmatch line.content with
  | none => simp [simple] at h
  | some groups =>
    obtain ⟨reference, rfl, uses⟩ := simpleUses_fullmatch _ _ simple
    simp only [simple] at h
    cases pinned : pinnedAction.fullmatch reference with
    | none => simp [pinned] at h
    | some groups =>
      obtain ⟨name, sha, rfl, rfl, plain⟩ := pinnedAction_fullmatch _ _ pinned
      simp only [pinned, check_bind_ok, ensure_ok] at h
      refine ⟨name, sha, uses, plain, mem_of_lookup _ _ _ h.1, fun checkout => ?_⟩
      have passed := h.2
      rw [if_pos (by rw [checkout]; exact beq_self_eq_true _), check_bind_ok] at passed
      exact passed.1

theorem validateActions_ok (source : String) (lines : List Line)
    (h : validateActions source lines = .ok ()) (i : Nat) (line : Line)
    (found : lines[i]? = some line) : ∃ b, validateAction source lines i line = .ok b := by
  rw [validateActions, bind_ok] at h
  obtain ⟨count, looped, _⟩ := h
  have member : (line, i) ∈ lines.zipIdx := by
    rw [List.mem_zipIdx_iff_getElem?]
    exact found
  obtain ⟨_, _, passed⟩ := foldlM_ok_mem _ _ _ _ looped _ member
  obtain ⟨b, valid, _⟩ := (bind_ok _ _ _).mp passed
  exact ⟨b, valid⟩

theorem validateWorkflow_ok (source : String) (text : List Char) (lines : List Line)
    (read : logicalLines source text = .ok lines) (h : validateWorkflow source text = .ok ()) :
    validateActions source lines = .ok () := by
  rw [validateWorkflow, bind_ok] at h
  obtain ⟨lines', read', h⟩ := h
  obtain rfl : lines = lines' := by
    rw [read, Except.ok.injEq] at read'
    exact read'
  simp only [bind_ok] at h
  obtain ⟨_, _, _, _, _, _, _, actions, _⟩ := h
  exact actions

end HostMonitoring.Workflow
