import HostMonitoring.Workflow.References
import HostMonitoring.Workflow.Scalars

namespace HostMonitoring.Workflow

open Framework Framework.Checks Framework.PyText Framework.Regex

/-- A `#` at the start of the line or behind white space. -/
structure Hash (raw before after : List Char) : Prop where
  split : raw = before ++ '#' :: after
  blank : before.getLast?.all isSpace = true

/-- A line up to the white space in front of its first such `#`. -/
def cut : List Char → List Char
  | [] => []
  | c :: t =>
    if isSpace c && (t.dropWhile isSpace).head? == some '#' then [] else c :: cut t

theorem reads_comment (first : Bool) (rest m : List Char) (groups : List (List Char)) :
    Reads comment first rest groups m ↔ groups = [] ∧ (rest = [] ∨ rest = ['\n']) ∧
      ∃ blanks text, blanks ≠ [] ∧ blanks.all isSpace = true ∧ text.all dot = true ∧
        m = blanks ++ '#' :: text := by
  simp only [comment, Reads, reads_plus]
  constructor
  · rintro ⟨_, blanks, _, _, rfl, rfl, ⟨rfl, some_, space⟩, _, _, _, _, rfl, rfl, ⟨rfl, rfl⟩, _, text,
      _, _, rfl, rfl, ⟨rfl, dots⟩, last, rfl, rfl⟩
    exact ⟨rfl, last, blanks, text, some_, space, dots, by simp⟩
  · rintro ⟨rfl, last, blanks, text, some_, space, dots, rfl⟩
    exact ⟨[], blanks, [], '#' :: text, rfl, rfl, ⟨rfl, some_, space⟩, [], ['#'], [], text, rfl, rfl,
      ⟨rfl, rfl⟩, [], text, [], [], rfl, by simp, ⟨rfl, dots⟩, last, rfl, rfl⟩

theorem reads_comment_cons (c : Char) (t rest m : List Char) (first : Bool)
    (groups : List (List Char)) (whole : c :: t = m ++ rest)
    (reads : Reads comment first rest groups m) :
    isSpace c = true ∧ (t.dropWhile isSpace).head? = some '#' := by
  obtain ⟨_, _, blanks, text, some_, space, _, rfl⟩ := (reads_comment _ _ _ _).mp reads
  obtain ⟨d, blanks, rfl⟩ := List.exists_cons_of_ne_nil some_
  simp only [List.cons_append, List.append_assoc, List.cons.injEq] at whole
  simp only [List.all_cons, Bool.and_eq_true] at space
  obtain ⟨rfl, rfl⟩ := whole
  refine ⟨space.1, ?_⟩
  have hash : isSpace '#' = false := by decide
  rw [dropWhile_blanks _ _ space.2, List.dropWhile_cons_of_neg (by simp [hash])]
  rfl

/-- What backtracking finds first of a comment is the comment up to the end. -/
theorem run_comment (first : Bool) (c : Char) (t : List Char) (single : '\n' ∉ c :: t) :
    (run comment first (c :: t)).head? =
      if isSpace c && (t.dropWhile isSpace).head? == some '#' then some ([], []) else none := by
  split
  · next starts =>
    rw [Bool.and_eq_true, beq_iff_eq] at starts
    obtain ⟨text, behind⟩ := List.head?_eq_some_iff.mp starts.2
    have split := List.takeWhile_append_dropWhile (p := isSpace) (l := t)
    rw [behind] at split
    have found : (([] : List (List Char)), ([] : List Char)) ∈ run comment first (c :: t) := by
      refine (mem_run _ _ _ _ _).mpr ⟨c :: t, (List.append_nil _).symm, (reads_comment _ _ _ _).mpr
        ⟨rfl, Or.inl rfl, c :: t.takeWhile isSpace, text, List.cons_ne_nil _ _, ?_, ?_, ?_⟩⟩
      · rw [List.all_cons, starts.1, Bool.true_and, List.all_eq_true]
        exact fun d hd => List.mem_takeWhile_imp hd
      · rw [List.all_eq_true]
        intro d hd
        rw [dot, bne_iff_ne]
        rintro rfl
        apply single
        rw [← split]
        simp [hd]
      · rw [List.cons_append, split]
    cases results : run comment first (c :: t) with
    | nil =>
      rw [results] at found
      cases found
    | cons x others =>
      have hx : x ∈ run comment first (c :: t) := by simp [results]
      obtain ⟨m, whole, reads⟩ := (mem_run _ _ _ x.2 x.1).mp hx
      obtain ⟨none, last, _⟩ := (reads_comment _ _ _ _).mp reads
      obtain last | last := last
      · rw [List.head?_cons, Option.some.injEq]
        exact Prod.ext none last
      · rw [last] at whole
        rw [whole] at single
        simp at single
  · next none =>
    rw [List.head?_eq_none_iff, List.eq_nil_iff_forall_not_mem]
    intro x hx
    obtain ⟨m, whole, reads⟩ := (mem_run _ _ _ x.2 x.1).mp hx
    obtain ⟨space, hash⟩ := reads_comment_cons c t x.2 m first x.1 whole reads
    rw [space, hash] at none
    exact none rfl

theorem eraseFrom_comment (n : Nat) (first : Bool) (s : List Char) (single : '\n' ∉ s)
    (enough : s.length ≤ n) : eraseFrom comment n first s = cut s := by
  induction s generalizing n first with
  | nil => cases n <;> rfl
  | cons c t ih =>
    cases n with
    | zero => simp at enough
    | succ n =>
      rw [List.mem_cons, not_or] at single
      rw [List.length_cons] at enough
      have later := ih n false single.2 (by omega)
      rw [eraseFrom, run_comment first c t (by simpa using single), cut]
      split
      · next ends =>
        split at ends
        · cases ends
        · rw [if_neg ‹_›, later]
      · next rest ends =>
        split at ends
        · rw [Option.some.injEq, Prod.mk.injEq] at ends
          obtain ⟨_, rfl⟩ := ends
          rw [if_pos (by simp), if_pos ‹_›]
          cases n <;> rfl
        · cases ends

theorem erase_comment (s : List Char) (single : '\n' ∉ s) : comment.erase s = cut s :=
  eraseFrom_comment s.length true s single (Nat.le_refl _)

theorem Hash.cons {c : Char} {t before after : List Char} (h : Hash t before after)
    (some_ : before ≠ []) : Hash (c :: t) (c :: before) after where
  split := by rw [h.split, List.cons_append]
  blank := by
    rw [List.getLast?_cons_of_ne_nil some_]
    exact h.blank

theorem Hash.of_cons {c : Char} {t before after : List Char}
    (h : Hash (c :: t) (c :: before) after) (some_ : before ≠ []) : Hash t before after where
  split := by
    have split := h.split
    rw [List.cons_append, List.cons.injEq] at split
    exact split.2
  blank := by
    have blank := h.blank
    rwa [List.getLast?_cons_of_ne_nil some_] at blank

theorem isSpace_hash : isSpace '#' = false := by decide

/-- A `#` is no white space. -/
theorem length_le_of_blanks (gap rest before after : List Char) (space : gap.all isSpace = true)
    (same : gap ++ rest = before ++ '#' :: after) : gap.length ≤ before.length := by
  by_contra short
  have here : (gap ++ rest)[before.length]? = some '#' := by simp [same]
  rw [List.getElem?_append_left (by omega)] at here
  have hash := List.all_eq_true.mp space _ (List.mem_of_getElem? here)
  rw [isSpace_hash] at hash
  cases hash

theorem dropWhile_hash (gap after : List Char) (space : gap.all isSpace = true) :
    ((gap ++ '#' :: after).dropWhile isSpace).head? = some '#' := by
  rw [dropWhile_blanks gap _ space, List.dropWhile_cons_of_neg (by simp [isSpace_hash])]
  rfl

/-- The places of a `#` in a line that does not start with white space before one. -/
theorem hash_cons_cases {c : Char} {t before after : List Char}
    (none : (isSpace c && (t.dropWhile isSpace).head? == some '#') = false)
    (h : Hash (c :: t) before after) :
    before = [] ∨ ∃ b, b ≠ [] ∧ before = c :: b ∧ Hash t b after := by
  cases before with
  | nil => exact Or.inl rfl
  | cons d b =>
    have split := h.split
    rw [List.cons_append, List.cons.injEq] at split
    obtain ⟨rfl, rest⟩ := split
    cases b with
    | nil =>
      have space : isSpace c = true := h.blank
      rw [space, rest, dropWhile_hash [] after rfl] at none
      simp at none
    | cons e b =>
      exact Or.inr ⟨e :: b, List.cons_ne_nil e b, rfl, h.of_cons (List.cons_ne_nil e b)⟩

/-- What is cut off: nothing of a line without such a `#` behind its start, else the white
space before the first one and what follows. -/
theorem cut_spec (s : List Char) :
    (cut s = s ∧ ∀ before after, Hash s before after → before = []) ∨
    ∃ gap after, gap ≠ [] ∧ gap.all isSpace = true ∧ s = cut s ++ (gap ++ '#' :: after) ∧
      (cut s).getLast?.all (!isSpace ·) = true ∧
      ∀ before after, Hash s before after → before = [] ∨ (cut s ++ gap).length ≤ before.length := by
  induction s with
  | nil =>
    left
    refine ⟨rfl, fun before after h => ?_⟩
    have split := h.split
    simp at split
  | cons c t ih =>
    cases starts : (isSpace c && (t.dropWhile isSpace).head? == some '#') with
    | true =>
      rw [cut, if_pos starts]
      rw [Bool.and_eq_true, beq_iff_eq] at starts
      obtain ⟨text, behind⟩ := List.head?_eq_some_iff.mp starts.2
      have split := List.takeWhile_append_dropWhile (p := isSpace) (l := t)
      rw [behind] at split
      have space : (c :: t.takeWhile isSpace).all isSpace = true := by
        rw [List.all_cons, starts.1, Bool.true_and, List.all_eq_true]
        exact fun d hd => List.mem_takeWhile_imp hd
      have whole : c :: t = (c :: t.takeWhile isSpace) ++ '#' :: text := by
        rw [List.cons_append, split]
      refine Or.inr ⟨c :: t.takeWhile isSpace, text, List.cons_ne_nil _ _, space, whole, rfl,
        fun before after h => Or.inr ?_⟩
      exact length_le_of_blanks _ _ before after space (whole.symm.trans h.split)
    | false =>
      rw [cut, if_neg (by rw [starts]; exact Bool.false_ne_true)]
      obtain ⟨same, only⟩ | ⟨gap, after, some_, space, whole, last, first⟩ := ih
      · left
        refine ⟨by rw [same], fun before after h => ?_⟩
        obtain none | ⟨b, longer, rfl, here⟩ := hash_cons_cases starts h
        · exact none
        · exact absurd (only b after here) longer
      · right
        refine ⟨gap, after, some_, space, by rw [List.cons_append, ← whole], ?_, fun before text h => ?_⟩
        · by_cases nothing : cut t = []
          · rw [nothing, List.nil_append] at whole
            rw [whole, dropWhile_hash gap after space, beq_self_eq_true, Bool.and_true] at starts
            simp [nothing, starts]
          · rw [List.getLast?_cons_of_ne_nil nothing]
            exact last
        · obtain none | ⟨b, longer, rfl, here⟩ := hash_cons_cases starts h
          · exact Or.inl none
          · right
            have later := (first b text here).resolve_left longer
            simpa using later

/-- What of a raw line is in its logical line. -/
def kept (line : Option Line) : List Char :=
  line.elim [] fun line => List.replicate line.indent ' ' ++ line.content

theorem indent_append_content (text : List Char) :
    List.replicate (text.length - (text.dropWhile (· == ' ')).length) ' ' ++
      text.dropWhile (· == ' ') = text := by
  have split := List.takeWhile_append_dropWhile (p := (· == ' ')) (l := text)
  have count : text.length - (text.dropWhile (· == ' ')).length =
      (text.takeWhile (· == ' ')).length := by
    have lengths := congrArg List.length split
    rw [List.length_append] at lengths
    omega
  have spaces : text.takeWhile (· == ' ') = List.replicate (text.takeWhile (· == ' ')).length ' ' :=
    List.eq_replicate_of_mem fun c hc => by simpa using List.mem_takeWhile_imp hc
  rw [count, ← spaces, split]

theorem logicalLine_ok (source : String) (n : Nat) (raw : List Char) (line : Option Line)
    (h : logicalLine source n raw = .ok line) :
    (passedOver (uncommented raw) = true ∧ line = none) ∨
    (passedOver (uncommented raw) = false ∧ kept line = uncommented raw ∧
      ∃ l, line = some l ∧ l.number = n ∧ l.content = (uncommented raw).dropWhile (· == ' ')) := by
  simp only [logicalLine, check_bind_ok] at h
  obtain ⟨_, h⟩ := h
  split at h
  · next passed =>
    left
    exact ⟨passed, (pure_ok _ _).mp h⟩
  · next stays =>
    right
    rw [check_bind_ok, pure_ok] at h
    obtain ⟨_, rfl⟩ := h
    exact ⟨Bool.eq_false_iff.mpr stays, indent_append_content _, _, rfl, rfl, rfl⟩

theorem passedOver_iff (text : List Char) : passedOver text = true ↔
    text.all isSpace = true ∨ ∃ blanks rest, blanks.all isSpace = true ∧ text = blanks ++ '#' :: rest := by
  rw [passedOver, Bool.or_eq_true, List.isEmpty_iff, beq_iff_eq]
  refine or_congr ?_ ?_
  · obtain ⟨tail, space, split⟩ := rstrip_append text
    rw [strip, lstrip, List.dropWhile_eq_nil_iff]
    constructor
    · intro blank
      rw [split, List.all_append, space, Bool.and_true, List.all_eq_true]
      exact blank
    · intro blank c hc
      rw [split, List.all_append, Bool.and_eq_true] at blank
      exact List.all_eq_true.mp blank.1 c hc
  · rw [lstrip]
    constructor
    · intro starts
      obtain ⟨rest, behind⟩ := List.head?_eq_some_iff.mp starts
      refine ⟨text.takeWhile isSpace, rest, ?_, ?_⟩
      · rw [List.all_eq_true]
        exact fun c hc => List.mem_takeWhile_imp hc
      · rw [← behind, List.takeWhile_append_dropWhile]
    · rintro ⟨blanks, rest, space, rfl⟩
      exact dropWhile_hash blanks rest space

theorem last_blank (blanks : List Char) (space : blanks.all isSpace = true) :
    blanks.getLast?.all isSpace = true := by
  cases last : blanks.getLast? with
  | none => rfl
  | some c => exact List.all_eq_true.mp space c (List.mem_of_getLast? last)

theorem hash_of_blanks {raw blanks rest : List Char} (space : blanks.all isSpace = true)
    (split : raw = blanks ++ '#' :: rest) : Hash raw blanks rest :=
  ⟨split, last_blank blanks space⟩

theorem hash_behind_blanks {raw text blanks rest : List Char} (space : blanks.all isSpace = true)
    (some_ : blanks ≠ []) (split : raw = text ++ (blanks ++ '#' :: rest)) :
    Hash raw (text ++ blanks) rest where
  split := by rw [split, List.append_assoc]
  blank := by
    rw [List.getLast?_append_of_ne_nil _ some_]
    exact last_blank blanks space

theorem rstrip_of_last (text : List Char) (last : text.getLast?.all (!isSpace ·) = true) :
    rstrip text = text := by
  rw [rstrip, List.rdropWhile_eq_self_iff]
  intro some_
  rw [List.getLast?_eq_getLast_of_ne_nil some_, Option.all_some, Bool.not_eq_true'] at last
  simp [last]

theorem rstrip_hash (text : List Char) : ∃ rest, rstrip ('#' :: text) = '#' :: rest := by
  obtain ⟨tail, space, split⟩ := rstrip_append ('#' :: text)
  cases left : rstrip ('#' :: text) with
  | nil =>
    rw [left, List.nil_append] at split
    rw [← split, List.all_cons, isSpace_hash] at space
    cases space
  | cons c rest =>
    rw [left, List.cons_append, List.cons.injEq] at split
    exact ⟨rest, by rw [split.1]⟩

/-- What is dropped of a line is white space, or begins at its first `#` that is at the
start or behind white space. -/
theorem kept_spec (source : String) (n : Nat) (raw : List Char) (line : Option Line)
    (single : '\n' ∉ raw) (h : logicalLine source n raw = .ok line) :
    ∃ blanks tail, raw = kept line ++ (blanks ++ tail) ∧ blanks.all isSpace = true ∧
      ((tail = [] ∧ ∀ before after, ¬Hash raw before after) ∨
        ∃ after, tail = '#' :: after ∧ Hash raw (kept line ++ blanks) after ∧
          ∀ b a, Hash raw b a → (kept line ++ blanks).length ≤ b.length) := by
  have read : uncommented raw = rstrip (cut raw) := by rw [uncommented, erase_comment raw single]
  by_cases starts : ∃ after, raw = '#' :: after
  · obtain ⟨after, rfl⟩ := starts
    have comment : passedOver (uncommented ('#' :: after)) = true := by
      have none : ¬(isSpace '#' && (after.dropWhile isSpace).head? == some '#') = true := by
        simp [isSpace_hash]
      rw [read, cut, if_neg none, passedOver_iff]
      obtain ⟨rest, same⟩ := rstrip_hash (cut after)
      exact Or.inr ⟨[], rest, rfl, same⟩
    obtain ⟨_, rfl⟩ | ⟨stays, _⟩ := logicalLine_ok source n _ line h
    · exact ⟨[], '#' :: after, rfl, rfl, Or.inr ⟨after, rfl, ⟨rfl, rfl⟩, fun b a _ => Nat.zero_le _⟩⟩
    · rw [comment] at stays
      cases stays
  · have behind (before after : List Char) (hash : Hash raw before after) : before ≠ [] := by
      rintro rfl
      exact starts ⟨after, hash.split⟩
    obtain ⟨same, only⟩ | ⟨gap, after, some_, space, whole, last, first⟩ := cut_spec raw
    · have none (before after : List Char) : ¬Hash raw before after :=
        fun hash => behind before after hash (only before after hash)
      obtain ⟨tail, space, split⟩ := rstrip_append raw
      rw [same] at read
      obtain ⟨passed, rfl⟩ | ⟨_, whole, _⟩ := logicalLine_ok source n raw line h
      · rw [read, passedOver_iff] at passed
        obtain blank | ⟨blanks, rest, hb, begins⟩ := passed
        · refine ⟨raw, [], by simp [kept], ?_, Or.inl ⟨rfl, none⟩⟩
          rw [split, List.all_append, blank, space]
          rfl
        · rw [begins, List.append_assoc, List.cons_append] at split
          exact absurd (hash_of_blanks hb split) (none _ _)
      · exact ⟨tail, [], by rw [whole, read, List.append_nil]; exact split, space, Or.inl ⟨rfl, none⟩⟩
    · have kept_ : kept line = cut raw := by
        rw [rstrip_of_last _ last] at read
        obtain ⟨passed, rfl⟩ | ⟨_, same, _⟩ := logicalLine_ok source n raw line h
        · rw [read, passedOver_iff] at passed
          obtain blank | ⟨blanks, rest, hb, begins⟩ := passed
          · have end_ := last_blank _ blank
            cases final : (cut raw).getLast? with
            | none => exact (List.getLast?_eq_none_iff.mp final).symm
            | some c =>
              simp only [final, Option.all_some] at last end_
              simp [end_] at last
          · have split : raw = blanks ++ '#' :: (rest ++ (gap ++ '#' :: after)) := by
              rw [whole, begins]
              simp
            have later := (first _ _ (hash_of_blanks hb split)).resolve_left
              (behind _ _ (hash_of_blanks hb split))
            rw [begins] at later
            simp only [List.length_append, List.length_cons] at later
            omega
        · rw [same, read]
      refine ⟨gap, '#' :: after, by rw [kept_]; exact whole, space, Or.inr ⟨after, rfl, ?_, ?_⟩⟩
      · rw [kept_]
        exact hash_behind_blanks space some_ whole
      · rw [kept_]
        exact fun b a hash => (first b a hash).resolve_left (behind b a hash)

/-- A comment begins behind `before`, outside every quoted scalar opened on the line. -/
structure CommentAt (context : Context) (raw before after : List Char) : Prop extends
    Hash raw before after where
  outside : (context.enter.read before ('#' :: after)).mode.inScalar = false

/-- What is dropped of a line, with the white space in front of it, is such a comment. -/
def StripsComment (context : Context) (raw kept : List Char) : Prop :=
  ∃ blanks tail, raw = kept ++ (blanks ++ tail) ∧ blanks.all isSpace = true ∧
    (tail = [] ∨ ∃ after, tail = '#' :: after ∧ CommentAt context raw (kept ++ blanks) after)

/-- No `#` behind white space is inside a quoted scalar opened on the line, but behind a
comment. -/
def Unquoted (context : Context) (raw : List Char) : Prop :=
  ∀ before after, Hash raw before after →
    (context.enter.read before ('#' :: after)).mode.inScalar = true →
      ∃ b a, CommentAt context raw b a ∧ b.length < before.length

theorem dropWhile_tail (blanks tail : List Char) (space : blanks.all isSpace = true)
    (hash : tail = [] ∨ ∃ after, tail = '#' :: after) : (blanks ++ tail).dropWhile isSpace = tail := by
  rw [dropWhile_blanks blanks tail space]
  obtain rfl | ⟨after, rfl⟩ := hash
  · rfl
  · rw [List.dropWhile_cons_of_neg (by simp [isSpace_hash])]

theorem strips_iff (context : Context) (source : String) (n : Nat) (raw : List Char)
    (line : Option Line) (single : '\n' ∉ raw) (h : logicalLine source n raw = .ok line) :
    StripsComment context raw (kept line) ↔ Unquoted context raw := by
  obtain ⟨blanks, tail, whole, space, first⟩ := kept_spec source n raw line single h
  constructor
  · rintro ⟨blanks', tail', whole', space', strips⟩ before after hash inside
    obtain ⟨rfl, none⟩ | ⟨text, rfl, _, first⟩ := first
    · exact absurd hash (none before after)
    · have same : blanks' ++ tail' = blanks ++ '#' :: text :=
        List.append_cancel_left (whole'.symm.trans whole)
      have tails := congrArg (List.dropWhile isSpace) same
      rw [dropWhile_tail blanks _ space (Or.inr ⟨text, rfl⟩), dropWhile_tail blanks' tail' space'
        (strips.imp_right fun ⟨a, ha, _⟩ => ⟨a, ha⟩)] at tails
      subst tails
      obtain rfl := List.append_cancel_right same
      obtain none | ⟨a, same, comment⟩ := strips
      · cases none
      · refine ⟨_, _, comment, Nat.lt_of_le_of_ne (first before after hash) fun equal => ?_⟩
        obtain ⟨rfl, rest⟩ := List.append_inj (comment.split.symm.trans hash.split) equal
        rw [List.cons.injEq] at rest
        rw [← rest.2, comment.outside] at inside
        cases inside
  · intro unquoted
    refine ⟨blanks, tail, whole, space, ?_⟩
    obtain ⟨rfl, _⟩ | ⟨text, rfl, hash, first⟩ := first
    · exact Or.inl rfl
    · refine Or.inr ⟨text, rfl, hash, ?_⟩
      rw [Bool.eq_false_iff]
      intro inside
      obtain ⟨b, a, comment, shorter⟩ := unquoted _ _ hash inside
      have later := first b a comment.toHash
      omega

end HostMonitoring.Workflow
