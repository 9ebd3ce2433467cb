import HostMonitoring.Workflow.Comments

namespace HostMonitoring.Workflow

open Framework Framework.Checks Framework.PyText Framework.Regex

def keyText (quote blanks : List Char) : List Char :=
  quote ++ ("uses".toList ++ (quote ++ (blanks ++ [':'])))

/-- A `uses` key of a block or flow mapping stands behind `before`, outside comments, and
`rest` behind its colon. -/
structure WritesUses (context : Context) (raw before quote blanks rest : List Char) : Prop where
  split : raw = before ++ (keyText quote blanks ++ rest)
  quoting : quote = [] ∨ quote = ['"'] ∨ quote = ['\'']
  blank : blanks.all isSpace = true
  node : (context.enter.read before (keyText quote blanks ++ rest)).mode = .start true
  colon : rest.head?.all isSpace = true ∨
    0 < (context.enter.read before (keyText quote blanks ++ rest)).depth ∧
      (quote ≠ [] ∨ rest.head?.any isFlowIndicator = true)
  commentless : ∀ b a, CommentAt context raw b a → before.length < b.length

/-- The first word behind a colon. -/
def valueOf (rest : List Char) : List Char := (rest.dropWhile isSpace).takeWhile (!isSpace ·)

theorem isQuoting_of {quote : List Char} (h : quote = [] ∨ quote = ['"'] ∨ quote = ['\'']) :
    IsQuoting quote := by
  obtain rfl | rfl | rfl := h
  · exact Or.inl rfl
  · exact Or.inr ⟨'"', rfl, rfl⟩
  · exact Or.inr ⟨'\'', rfl, rfl⟩

theorem hash_not_mem_keyText {quote blanks : List Char}
    (hq : quote = [] ∨ quote = ['"'] ∨ quote = ['\'']) (hb : blanks.all isSpace = true) :
    '#' ∉ keyText quote blanks := by
  have spaces : '#' ∉ blanks := fun mem => by
    have space := List.all_eq_true.mp hb _ mem
    rw [isSpace_hash] at space
    cases space
  obtain rfl | rfl | rfl := hq
  · simp [keyText, spaces]
  · simp [keyText, spaces]
  · simp [keyText, spaces]

variable {context : Context} {raw before quote blanks rest : List Char}

/-- The key and its colon are in the logical line. -/
theorem WritesUses.kept (h : WritesUses context raw before quote blanks rest)
    (unquoted : Unquoted context raw) (source : String) (n : Nat) (line : Option Line)
    (single : '\n' ∉ raw) (read : logicalLine source n raw = .ok line) :
    ∃ value gap tail, Workflow.kept line = before ++ (keyText quote blanks ++ value) ∧
      rest = value ++ (gap ++ tail) ∧ gap.all isSpace = true ∧
      (tail = [] ∨ ∃ after, tail = '#' :: after ∧ Hash raw (Workflow.kept line ++ gap) after) := by
  obtain ⟨gap, tail, whole, space, first⟩ := kept_spec source n raw line single read
  have same : (before ++ keyText quote blanks) ++ rest = (Workflow.kept line ++ gap) ++ tail := by
    rw [List.append_assoc, List.append_assoc, ← h.split, whole]
  have reaches : ∃ m, Workflow.kept line ++ gap = (before ++ keyText quote blanks) ++ m ∧
      rest = m ++ tail := by
    obtain ⟨m, left, right⟩ | ⟨m, left, right⟩ := List.append_eq_append_iff.mp same
    · exact ⟨m, left, right⟩
    · cases m with
      | nil => exact ⟨[], by simpa using left.symm, by simpa using right.symm⟩
      | cons c m =>
        obtain ⟨rfl, _⟩ | ⟨after, rfl, hash, first⟩ := first
        · simp at right
        · rw [List.cons_append, List.cons.injEq] at right
          obtain ⟨rfl, rfl⟩ := right
          have shorter : before.length < (Workflow.kept line ++ gap).length := by
            apply h.commentless _ (m ++ rest)
            refine ⟨hash, ?_⟩
            rw [Bool.eq_false_iff]
            intro inside
            obtain ⟨b, a, comment, less⟩ := unquoted _ _ hash inside
            have later := first b a comment.toHash
            omega
          obtain ⟨u, _, mem⟩ | ⟨u, early, _⟩ := List.append_eq_append_iff.mp left
          · exact absurd (by rw [mem]; simp) (hash_not_mem_keyText h.quoting h.blank)
          · rw [early, List.length_append] at shorter
            omega
  obtain ⟨m, left, right⟩ := reaches
  obtain ⟨u, front, back⟩ | ⟨value, front, back⟩ := List.append_eq_append_iff.mp left
  · obtain rfl | ⟨init, c, rfl⟩ := List.eq_nil_or_concat u
    · refine ⟨[], gap, tail, by simpa using front.symm, by rw [right, back]; rfl, space, ?_⟩
      exact first.imp (·.1) fun ⟨after, same, hash, _⟩ => ⟨after, same, hash⟩
    · -- the colon would be among the white space
      have colon : before ++ keyText quote blanks =
          (before ++ (quote ++ ("uses".toList ++ (quote ++ blanks)))) ++ [':'] := by simp [keyText]
      have last := congrArg List.getLast? front
      rw [colon, List.getLast?_concat, List.concat_eq_append, ← List.append_assoc,
        List.getLast?_concat, Option.some.injEq] at last
      have mem : ':' ∈ gap := by
        rw [back, ← last]
        simp
      exact absurd (List.all_eq_true.mp space _ mem) (by decide)
  · refine ⟨value, gap, tail, by rw [front, List.append_assoc],
      by rw [right, back, List.append_assoc], space, ?_⟩
    exact first.imp (·.1) fun ⟨after, same, hash, _⟩ => ⟨after, same, hash⟩

/-- A key can stand at the start of a line, or behind white space, `{`, `,` or `[`. -/
theorem WritesUses.separated (h : WritesUses context raw before quote blanks rest)
    (bracket : before.getLast? ≠ some '[') : before.getLast?.all isSeparator = true := by
  obtain rfl | ⟨init, c, rfl⟩ := List.eq_nil_or_concat before
  · rfl
  · have node := h.node
    rw [List.concat_eq_append] at bracket node ⊢
    rw [List.getLast?_concat, ne_eq, Option.some.injEq] at bracket
    rw [List.getLast?_concat, Option.all_some]
    rw [Scan.read_concat] at node
    have solid : (keyText quote blanks ++ rest).head?.all isSpace = false := by
      obtain rfl | rfl | rfl := h.quoting
      · rfl
      · rfl
      · rfl
    obtain space | rfl | rfl | rfl := Scan.step_start _ c _ solid node
    · simp [isSeparator, space]
    · exact absurd rfl bracket
    · rfl
    · rfl

theorem dropWhile_append_solid (xs ys : List Char) (solid : ys.dropWhile (· == ' ') = ys) :
    (xs ++ ys).dropWhile (· == ' ') = xs.dropWhile (· == ' ') ++ ys := by
  rw [List.dropWhile_append]
  split
  · next nothing => rw [List.isEmpty_iff.mp nothing, solid, List.nil_append]
  · rfl

theorem keyText_solid (hq : quote = [] ∨ quote = ['"'] ∨ quote = ['\'']) (value : List Char) :
    (keyText quote blanks ++ value).dropWhile (· == ' ') = keyText quote blanks ++ value := by
  obtain rfl | rfl | rfl := hq
  · rfl
  · rfl
  · rfl

theorem getLast?_dropWhile (xs : List Char) (p q : Char → Bool)
    (h : xs.getLast?.all q = true) : (xs.dropWhile p).getLast?.all q = true := by
  by_cases nothing : xs.dropWhile p = []
  · rw [nothing]
    rfl
  · rw [← List.takeWhile_append_dropWhile (p := p) (l := xs),
      List.getLast?_append_of_ne_nil _ nothing] at h
    exact h

/-- The texts of the allowlist have no brackets, colons or space. -/
theorem pinned_plain {name sha : List Char} (h : (name, sha) ∈ pinnedOfficialActions) :
    ':' ∉ name ++ '@' :: sha ∧ '[' ∉ name ++ '@' :: sha := by
  have all : pinnedOfficialActions.all (fun x => !(x.1 ++ '@' :: x.2).contains ':' &&
      !(x.1 ++ '@' :: x.2).contains '[') = true := by decide +kernel
  have plain := List.all_eq_true.mp all _ h
  simpa using plain

theorem readLines_ok (source : String) (n : Nat) (raws : List (List Char)) (lines : List Line)
    (h : readLines source n raws = .ok lines) (i : Nat) (raw : List Char)
    (found : raws[i]? = some raw) :
    ∃ line, logicalLine source (n + i) raw = .ok line ∧ ∀ l, line = some l → l ∈ lines := by
  induction raws generalizing n lines i with
  | nil => simp at found
  | cons first raws ih =>
    simp only [readLines, bind_ok, pure_ok] at h
    obtain ⟨line, read, others, reads, rfl⟩ := h
    cases i with
    | zero =>
      rw [List.getElem?_cons_zero, Option.some.injEq] at found
      subst found
      refine ⟨line, read, ?_⟩
      rintro l rfl
      simp
    | succ i =>
      rw [List.getElem?_cons_succ] at found
      obtain ⟨line', read', member⟩ := ih (n + 1) others reads i found
      rw [Nat.add_assoc, Nat.add_comm 1] at read'
      exact ⟨line', read', fun l same => List.mem_append_right _ (member l same)⟩

theorem logicalLines_ok (source : String) (text : List Char) (lines : List Line)
    (h : logicalLines source text = .ok lines) (i : Nat) (raw : List Char)
    (found : (splitlines text)[i]? = some raw) :
    ∃ line, logicalLine source (i + 1) raw = .ok line ∧ ∀ l, line = some l → l ∈ lines := by
  rw [logicalLines, check_bind_ok] at h
  obtain ⟨line, read, member⟩ := readLines_ok source 1 _ lines h.2 i raw found
  rw [Nat.add_comm] at read
  exact ⟨line, read, member⟩

/-- The raw line is seen by `validate_actions`, and its reference is a pinned official action. -/
def IsPinned (source : String) (lines : List Line) (n : Nat) (raw rest : List Char) : Prop :=
  ∃ line ∈ lines, logicalLine source n raw = .ok (some line) ∧
    usesKey.search line.content = true ∧
    ∃ name sha, (name, sha) ∈ pinnedOfficialActions ∧ valueOf rest = name ++ '@' :: sha

/-- The lines of an accepted workflow on which the gate sees a key. -/
theorem accepted_uses (source : String) (text : List Char) (lines : List Line)
    (read : logicalLines source text = .ok lines) (accepted : validateWorkflow source text = .ok ())
    (line : Line) (member : line ∈ lines) (seen : usesKey.search line.content = true) :
    ∃ name sha, Uses line.content (name ++ '@' :: sha) ∧ (name, sha) ∈ pinnedOfficialActions := by
  obtain ⟨i, found⟩ := List.mem_iff_getElem?.mp member
  have actions := validateWorkflow_ok source text lines read accepted
  obtain ⟨b, valid⟩ := validateActions_ok source lines actions i line found
  obtain ⟨name, sha, uses, _, pinned, _⟩ := validateAction_ok source lines i line b valid seen
  exact ⟨name, sha, uses, pinned⟩

theorem not_mem_of_all {xs : List Char} {c : Char} (p : Char → Bool) (all : xs.all p = true)
    (hc : p c = false) : c ∉ xs := by
  intro mem
  rw [List.all_eq_true.mp all c mem] at hc
  cases hc

theorem not_mem_of_dash {dash : List Char} {c : Char} (h : IsDash dash) (space : isSpace c = false)
    (other : c ≠ '-') : c ∉ dash := by
  obtain rfl | ⟨blanks, hb, rfl⟩ := h
  · exact List.not_mem_nil
  · rw [List.mem_cons, not_or]
    exact ⟨other, not_mem_of_all isSpace hb space⟩

theorem valueOf_eq (gap reference tail : List Char) (hgap : gap.all isSpace = true)
    (some_ : reference ≠ []) (solid : reference.all (!isSpace ·) = true)
    (behind : tail.head?.all isSpace = true) : valueOf (gap ++ reference ++ tail) = reference := by
  have first : (reference ++ tail).dropWhile isSpace = reference ++ tail := by
    obtain ⟨c, rest, rfl⟩ := List.exists_cons_of_ne_nil some_
    simp only [List.all_cons, Bool.and_eq_true, Bool.not_eq_true'] at solid
    rw [List.cons_append, List.dropWhile_cons_of_neg (by simp [solid.1])]
  have last : tail.takeWhile (!isSpace ·) = [] := by
    cases tail with
    | nil => rfl
    | cons c tail =>
      have space : isSpace c = true := behind
      rw [List.takeWhile_cons_of_neg (by simp [space])]
  rw [valueOf, List.append_assoc, dropWhile_blanks gap _ hgap, first,
    List.takeWhile_append_of_pos (List.all_eq_true.mp solid), last, List.append_nil]

/-- A seen key is the one key of its line. -/
theorem value_of_uses {b quote blanks value reference : List Char}
    (uses : Uses (b ++ (keyText quote blanks ++ value)) reference) (plain : ':' ∉ reference) :
    ∃ gap, gap.all isSpace = true ∧ value = gap ++ reference := by
  obtain ⟨dash, gap, hdash, hgap, written⟩ := uses.written
  have colon : isSpace ':' = false := by decide
  have front : ':' ∉ dash ++ "uses".toList := by
    rw [List.mem_append, not_or]
    exact ⟨not_mem_of_dash hdash colon (by decide), by decide⟩
  have back : ':' ∉ gap ++ reference := by
    rw [List.mem_append, not_or]
    exact ⟨not_mem_of_all isSpace hgap colon, plain⟩
  have same : (dash ++ "uses".toList) ++ ':' :: (gap ++ reference) =
      (b ++ (quote ++ ("uses".toList ++ (quote ++ blanks)))) ++ ':' :: value := by
    have key : "uses:".toList = "uses".toList ++ [':'] := rfl
    rw [key] at written
    simpa [keyText] using written.symm
  exact ⟨gap, hgap, ((List.append_cons_inj_of_notMem front back).mp same).2.2.symm⟩

theorem bracket_not_mem_of_uses {content reference : List Char} (uses : Uses content reference)
    (plain : '[' ∉ reference) : '[' ∉ content := by
  obtain ⟨dash, gap, hdash, hgap, rfl⟩ := uses.written
  have bracket : isSpace '[' = false := by decide
  simp only [List.mem_append, not_or]
  exact ⟨not_mem_of_dash hdash bracket (by decide), by decide,
    not_mem_of_all isSpace hgap bracket, plain⟩

theorem WritesUses.isPinned (h : WritesUses context raw before quote blanks rest)
    (unquoted : Unquoted context raw) (source : String) (text : List Char) (lines : List Line)
    (read : logicalLines source text = .ok lines) (accepted : validateWorkflow source text = .ok ())
    (i : Nat) (found : (splitlines text)[i]? = some raw) :
    IsPinned source lines (i + 1) raw rest ↔ before.getLast? ≠ some '[' := by
  obtain ⟨line, readLine, member⟩ := logicalLines_ok source text lines read i raw found
  have single := newline_not_mem_splitlines text raw (List.mem_of_getElem? found)
  obtain ⟨value, gap, tail, kept_, rest_, space, ends⟩ :=
    h.kept unquoted source (i + 1) line single readLine
  obtain ⟨_, rfl⟩ | ⟨_, same, l, rfl, _, content⟩ := logicalLine_ok source (i + 1) raw line readLine
  · have nothing := congrArg List.length kept_
    simp [Workflow.kept, keyText] at nothing
  · rw [← same, kept_, dropWhile_append_solid _ _ (keyText_solid h.quoting value)] at content
    constructor
    · rintro ⟨line, hline, sameLine, seen, _⟩ bracket
      rw [readLine, Except.ok.injEq, Option.some.injEq] at sameLine
      subst sameLine
      obtain ⟨name, sha, uses, pinned⟩ := accepted_uses source text lines read accepted l hline seen
      have absent := bracket_not_mem_of_uses uses (pinned_plain pinned).2
      have mem := List.mem_of_getLast? bracket
      rw [← List.takeWhile_append_dropWhile (p := (· == ' ')) (l := before), List.mem_append] at mem
      rw [content, List.mem_append, not_or] at absent
      obtain early | late := mem
      · exact absurd (List.mem_takeWhile_imp early) (by decide)
      · exact absent.1 late
    · intro bracket
      have seen : usesKey.search l.content = true := by
        rw [content]
        have separated := getLast?_dropWhile before (· == ' ') _ (h.separated bracket)
        have quoting := isQuoting_of h.quoting
        have key := usesKey_search (before.dropWhile (· == ' ')) quote quote blanks value quoting
          quoting h.blank separated
        simpa [keyText] using key
      obtain ⟨name, sha, uses, pinned⟩ :=
        accepted_uses source text lines read accepted l (member l rfl) seen
      refine ⟨l, member l rfl, readLine, seen, name, sha, pinned, ?_⟩
      rw [content] at uses
      obtain ⟨gap', hgap', rfl⟩ := value_of_uses uses (pinned_plain pinned).1
      rw [rest_]
      apply valueOf_eq gap' _ _ hgap' uses.nonempty uses.solid
      cases gap with
      | cons c gap =>
        rw [List.all_cons, Bool.and_eq_true] at space
        exact space.1
      | nil =>
        obtain rfl | ⟨after, rfl, hash⟩ := ends
        · rfl
        · -- a comment needs white space behind the reference
          have blank := hash.blank
          rw [List.append_nil, kept_, ← List.append_assoc, ← List.append_assoc,
            List.getLast?_append_of_ne_nil _ uses.nonempty] at blank
          cases last : (name ++ '@' :: sha).getLast? with
          | none => exact absurd (List.getLast?_eq_none_iff.mp last) uses.nonempty
          | some c =>
            have solid := List.all_eq_true.mp uses.solid c (List.mem_of_getLast? last)
            rw [last, Option.all_some] at blank
            rw [blank] at solid
            cases solid

/-- What `logical_lines` drops are comments, and the gate sees every `uses` key outside
them. `context` says what each line continues. -/
structure HidesNothing (context : Nat → Context) (source : String) (text : List Char)
    (lines : List Line) : Prop where
  comments : ∀ (i : Nat) raw, (splitlines text)[i]? = some raw →
    ∀ line, logicalLine source (i + 1) raw = .ok line →
      StripsComment (context (i + 1)) raw (kept line)
  actions : ∀ (i : Nat) raw, (splitlines text)[i]? = some raw →
    ∀ before quote blanks rest, WritesUses (context (i + 1)) raw before quote blanks rest →
      IsPinned source lines (i + 1) raw rest

/-- No `#` behind white space is quoted, and no `uses` key stands right behind a bracket. -/
structure Legible (context : Nat → Context) (text : List Char) : Prop where
  unquoted : ∀ (i : Nat) raw, (splitlines text)[i]? = some raw → Unquoted (context (i + 1)) raw
  unbracketed : ∀ (i : Nat) raw, (splitlines text)[i]? = some raw →
    ∀ before quote blanks rest, WritesUses (context (i + 1)) raw before quote blanks rest →
      before.getLast? ≠ some '['

/-- In an accepted workflow, whatever its lines continue, the gate's comments hide nothing
exactly when no `#` behind white space is quoted and no key follows a bracket. -/
theorem comments_hide_no_action_iff (context : Nat → Context) (source : String) (text : List Char)
    (lines : List Line) (read : logicalLines source text = .ok lines)
    (accepted : validateWorkflow source text = .ok ()) :
    HidesNothing context source text lines ↔ Legible context text := by
  have strips (i : Nat) (raw : List Char) (found : (splitlines text)[i]? = some raw) :
      (∀ line, logicalLine source (i + 1) raw = .ok line →
        StripsComment (context (i + 1)) raw (kept line)) ↔ Unquoted (context (i + 1)) raw := by
    obtain ⟨line, readLine, _⟩ := logicalLines_ok source text lines read i raw found
    have single := newline_not_mem_splitlines text raw (List.mem_of_getElem? found)
    have here := strips_iff (context (i + 1)) source (i + 1) raw line single readLine
    constructor
    · exact fun h => here.mp (h line readLine)
    · intro h line' readLine'
      rw [readLine, Except.ok.injEq] at readLine'
      rw [← readLine']
      exact here.mpr h
  constructor
  · intro h
    have unquoted (i : Nat) (raw : List Char) (found : (splitlines text)[i]? = some raw) :=
      (strips i raw found).mp (h.comments i raw found)
    refine ⟨unquoted, fun i raw found before quote blanks rest writes => ?_⟩
    exact (writes.isPinned (unquoted i raw found) source text lines read accepted i found).mp
      (h.actions i raw found before quote blanks rest writes)
  · intro h
    refine ⟨fun i raw found => (strips i raw found).mpr (h.unquoted i raw found),
      fun i raw found before quote blanks rest writes => ?_⟩
    exact (writes.isPinned (h.unquoted i raw found) source text lines read accepted i found).mpr
      (h.unbracketed i raw found before quote blanks rest writes)

theorem unquoted_of_places (context : Context) (raw : List Char)
    (places : ∀ n < raw.length, (raw.drop n).head? = some '#' →
      (raw.take n).getLast?.all isSpace = true →
        (context.enter.read (raw.take n) (raw.drop n)).mode.inScalar = false) :
    Unquoted context raw := by
  intro before after hash scalar
  have front : raw.take before.length = before := by simp [hash.split]
  have back : raw.drop before.length = '#' :: after := by simp [hash.split]
  have inside : before.length < raw.length := by simp [hash.split]
  have plain := places before.length inside (by rw [back]; rfl) (by rw [front]; exact hash.blank)
  rw [front, back, scalar] at plain
  cases plain

/-- The fixture under a quoted name with a `#` in it and a comment. -/
def commented : List (Nat × String) := (0, "name: \"fix#ture\"  # of the self-tests") :: base.tail

/-- Every line of the fixture starts afresh. -/
theorem comments_hide_no_action_iff_base :
    HidesNothing (fun _ => .nothing 0) "positive-fixture.yml" (written commented)
      (numbered ((0, "name: \"fix#ture\"") :: base.tail)) := by
  refine (comments_hide_no_action_iff _ "positive-fixture.yml" (written commented) _
    (by decide +kernel) (by decide +kernel)).mpr ?_
  have places : ∀ raw ∈ splitlines (written commented), ∀ n < raw.length,
      (raw.drop n).head? = some '#' → (raw.take n).getLast?.all isSpace = true →
        ((Context.nothing 0).enter.read (raw.take n) (raw.drop n)).mode.inScalar = false := by
    decide +kernel
  have plain : ∀ raw ∈ splitlines (written commented), '[' ∉ raw := by
    decide +kernel
  constructor
  · intro i raw found
    exact unquoted_of_places _ raw (places raw (List.mem_of_getElem? found))
  · intro i raw found before quote blanks rest writes bracket
    have absent := plain raw (List.mem_of_getElem? found)
    rw [writes.split, List.mem_append, not_or] at absent
    exact absent.1 (List.mem_of_getLast? bracket)

/-- A step in a flow mapping, whose name has a `#` behind a space. -/
def hiddenStep : String := "- \x7bname: \"a #b\", uses: evil/x@v1\x7d"

theorem quoted_hash_hides_uses : ¬∀ (source : String) (text : List Char) (lines : List Line),
    logicalLines source text = .ok lines → validateWorkflow source text = .ok () →
      HidesNothing (fun _ => .nothing 0) source text lines := by
  intro claim
  have read : logicalLines "ci.yml" (written (base ++ [(6, hiddenStep)])) =
      .ok (numbered (base ++ [(6, "- \x7bname: \"a")])) := by decide +kernel
  have accepted : validateWorkflow "ci.yml" (written (base ++ [(6, hiddenStep)])) = .ok () := by
    decide +kernel
  have hides := claim _ _ _ read accepted
  have found : (splitlines (written (base ++ [(6, hiddenStep)])))[12]? =
      some ("      - \x7bname: \"a ".toList ++ '#' :: "b\", uses: evil/x@v1\x7d".toList) := by
    decide +kernel
  obtain ⟨line, readLine, _⟩ := logicalLines_ok _ _ _ read 12 _ found
  have single := newline_not_mem_splitlines _ _ (List.mem_of_getElem? found)
  have unquoted := (strips_iff (.nothing 0) _ _ _ line single readLine).mp
    (hides.comments 12 _ found line readLine)
  obtain ⟨b, a, comment, shorter⟩ := unquoted _ _ ⟨rfl, by decide +kernel⟩ (by decide +kernel)
  have absent : '#' ∉ "      - \x7bname: \"a ".toList := by decide +kernel
  obtain ⟨u, front, _⟩ | ⟨u, front, back⟩ := List.append_eq_append_iff.mp comment.split
  · rw [front, List.length_append] at shorter
    omega
  · cases u with
    | nil => simp [front] at shorter
    | cons c u =>
      rw [List.cons_append, List.cons.injEq] at back
      rw [front, ← back.1] at absent
      simp at absent

end HostMonitoring.Workflow
