import HostMonitoring.Framework.Indented
import HostMonitoring.Workflow.References

namespace HostMonitoring.Workflow

open Framework Framework.Checks Framework.PyText Framework.Indented

/-- A `- ` line whose block has line `i`: the step that contains it. -/
abbrev IsStep (lines : List Line) : Nat → Nat → Prop :=
  Innermost (indentAt lines) fun s => holdsAt lines Line.dashed s = true

def isDisabled (line : Line) : Bool := line.content == "persist-credentials: false".toList

/-- The step that starts at line `s` has a `with:` mapping whose child is
`persist-credentials: false`, and no other line with that key. -/
def OwnSettings (lines : List Line) (indent s : Nat) : Prop :=
  ∃ w p, Covers (indentAt lines) s w ∧ holdsAt lines (isWith indent) w = true ∧
    Covers (indentAt lines) s p ∧ holdsAt lines isDisabled p = true ∧
    IsChild (indentAt lines) w p ∧
    ∀ q, Covers (indentAt lines) s q → holdsAt lines isCredentials q = true → q = p

def startsAt (indent : Nat) (line : Line) : Bool := line.indent == indent && line.dashed

/-- The gate reads on from line `c` to line `j`. -/
structure Scans (lines : List Line) (c j : Nat) : Prop where
  le : c ≤ j
  inside : j < lines.length
  open_ : ∀ m, c < m → m ≤ j → holdsAt lines (startsAt (indentAt lines c)) m = false

def opensFor (usesLine : Line) (line : Line) : Bool :=
  line.indent ≤ usesLine.indent && line.dashed

/-- What the gate has found when it lets a checkout pass. -/
structure Looked (lines : List Line) (usesLine : Line) (i c w p : Nat) : Prop where
  le : c ≤ i
  opens : holdsAt lines (opensFor usesLine) c = true
  nearest : ∀ j, c < j → j ≤ i → holdsAt lines (opensFor usesLine) j = false
  with_iff : ∀ j, Scans lines c j →
    (holdsAt lines (isWith (propertyIndent usesLine)) j = true ↔ j = w)
  credentials_iff : ∀ j, Scans lines c j → (holdsAt lines isCredentials j = true ↔ j = p)
  scanned : Scans lines c p
  disabled : holdsAt lines isDisabled p = true
  indent : indentAt lines p = propertyIndent usesLine + 2
  first : c ≤ w
  before : w < p
  below : ∀ j, w < j → j ≤ p → propertyIndent usesLine < indentAt lines j

theorem stepStart_eq_some (lines : List Line) (usesLine : Line) (n c : Nat)
    (h : stepStart lines usesLine n = some c) :
    c < n ∧ holdsAt lines (opensFor usesLine) c = true ∧
      ∀ j, c < j → j < n → holdsAt lines (opensFor usesLine) j = false := by
  induction n with
  | zero => cases h
  | succ n ih =>
    rw [stepStart] at h
    split at h
    · next found =>
      rw [Option.some.injEq] at h
      subst h
      exact ⟨n.lt_succ_self, found, fun j after before => by omega⟩
    · next skipped =>
      obtain ⟨before, found, none⟩ := ih h
      refine ⟨by omega, found, fun j after hj => ?_⟩
      obtain earlier | rfl := Nat.lt_succ_iff_lt_or_eq.mp hj
      · exact none j after earlier
      · exact Bool.eq_false_iff.mpr skipped

theorem indentAt_of_getElem? {lines : List Line} {i : Nat} {line : Line}
    (h : lines[i]? = some line) : indentAt lines i = line.indent := by
  rw [indentAt, h]
  rfl

theorem scans_iff (lines : List Line) (c j : Nat) (le : c ≤ j) (start : c < lines.length) :
    Scans lines c j ↔
      j < nextIndex lines (c + 1) fun line => line.indent == indentAt lines c && line.dashed := by
  obtain rfl | after := Nat.eq_or_lt_of_le le
  · constructor
    · intro _
      rw [nextIndex]
      omega
    · intro _
      exact ⟨Nat.le_refl c, start, fun m hm hm' => by omega⟩
  · rw [lt_nextIndex_iff _ _ _ _ after]
    exact ⟨fun h => ⟨h.inside, fun m first last => h.open_ m first last⟩,
      fun h => ⟨le, h.1, fun m first last => h.2 m first last⟩⟩

theorem isCredentials_of_isDisabled (line : Line) (h : isDisabled line = true) :
    isCredentials line = true := by
  rw [isDisabled, beq_iff_eq] at h
  rw [isCredentials, h]
  decide

theorem holdsAt_scanned (lines : List Line) (p : Line → Bool) (c j : Nat) (scans : Scans lines c j)
    (start : c < lines.length) : holdsAt (slice lines c (nextIndex lines (c + 1) fun line =>
      line.indent == indentAt lines c && line.dashed)) p (j - c) = holdsAt lines p j := by
  have inside := (scans_iff lines c j scans.le start).mp scans
  rw [Bool.eq_iff_iff, holdsAt_slice, Nat.add_sub_cancel' scans.le]
  exact and_iff_right inside

/-- Of the lines the gate reads, the one of a kind. -/
theorem sole_scanned (lines : List Line) (p : Line → Bool) (c : Nat) (start : c < lines.length)
    (sole : ((slice lines c (nextIndex lines (c + 1) fun line =>
      line.indent == indentAt lines c && line.dashed)).filter p).length = 1) :
    ∃ k, (∀ j, holdsAt (slice lines c (nextIndex lines (c + 1) fun line =>
        line.indent == indentAt lines c && line.dashed)) p j = true ↔ j = k) ∧
      Scans lines c (c + k) ∧ ∀ j, Scans lines c j → (holdsAt lines p j = true ↔ j = c + k) := by
  obtain ⟨k, only⟩ := sole_index _ p sole
  have here := ((holdsAt_slice _ _ _ _ _).mp ((only k).mpr rfl)).1
  refine ⟨k, only, (scans_iff lines c _ (Nat.le_add_right c k) start).mpr here, fun j scans => ?_⟩
  have le := scans.le
  rw [← holdsAt_scanned lines p c j scans start, only]
  omega

/-- A checkout passes only when the gate has found its settings behind a `- ` line. -/
theorem validateCheckoutCredentials_ok (source : String) (lines : List Line) (i : Nat)
    (usesLine : Line) (h : validateCheckoutCredentials source lines i usesLine = .ok ()) :
    ∃ c w p, Looked lines usesLine i c w p := by
  rw [validateCheckoutCredentials] at h
  cases started : stepStart lines usesLine (i + 1) with
  | none => simp [started] at h
  | some c =>
    simp only [started, check_bind_ok, ensure_ok] at h
    obtain ⟨oneWith, oneCredentials, found⟩ := h
    obtain ⟨before, opens, nearest⟩ := stepStart_eq_some lines usesLine (i + 1) c started
    have start := holdsAt_lt opens
    obtain ⟨w, onlyWith, scannedWith, with_iff⟩ := sole_scanned lines _ c start oneWith
    obtain ⟨p, onlyCredentials, scanned, credentials_iff⟩ :=
      sole_scanned lines _ c start oneCredentials
    rw [findIdx_of_sole _ _ w onlyWith] at found
    obtain ⟨x, at_, key⟩ := (holdsAt_eq_true _ _ _).mp ((onlyCredentials p).mpr rfl)
    have settings := List.all_eq_true.mp found x
      (List.mem_filter.mpr ⟨List.mem_of_getElem? at_, key⟩)
    simp only [Bool.and_eq_true, beq_iff_eq, List.contains_iff_mem] at settings
    obtain ⟨⟨disabled, indent⟩, expected⟩ := settings
    obtain ⟨k, after, inside, same⟩ := (mem_slice _ _ _ _).mp expected
    have place : k = p := (onlyCredentials k).mp ((holdsAt_eq_true _ _ _).mpr ⟨x, same, key⟩)
    subst place
    rw [lt_nextIndex_iff _ _ _ _ after] at inside
    have line : lines[c + k]? = some x := by
      rw [getElem?_slice] at same
      split at same
      · exact same
      · cases same
    refine ⟨c, c + w, c + k, by omega, opens, fun j hj hj' => nearest j hj (by omega), with_iff,
      credentials_iff, scanned, (holdsAt_eq_true _ _ _).mpr ⟨x, line, beq_iff_eq.mpr disabled⟩,
      by rw [indentAt_of_getElem? line, indent], by omega, by omega, fun j hj hj' => ?_⟩
    have reached : Scans lines c j := ⟨by omega, by have := scanned.inside; omega,
      fun m hm hm' => scanned.open_ m hm (by omega)⟩
    have deep := inside.2 (j - c) (by omega) (by omega)
    rw [holdsAt_scanned lines _ c j reached start] at deep
    rw [indentAt, List.getElem?_eq_getElem reached.inside]
    simpa [holdsAt, reached.inside] using deep

/-- A line `uses: actions/checkout@...`, also behind the dash of its step. -/
def UsesCheckout (content : List Char) : Prop :=
  ∃ dash gap rest, IsDash dash ∧ gap.all isSpace = true ∧
    content = dash ++ ("uses:".toList ++ (gap ++ ("actions/checkout".toList ++ '@' :: rest)))

theorem checkout_looked (source : String) (text : List Char) (lines : List Line)
    (read : logicalLines source text = .ok lines) (accepted : validateWorkflow source text = .ok ())
    (i : Nat) (line : Line) (found : lines[i]? = some line) (uses : UsesCheckout line.content) :
    ∃ c w p, Looked lines line i c w p := by
  obtain ⟨dash, gap, rest, hdash, hgap, written⟩ := uses
  have actions := validateWorkflow_ok source text lines read accepted
  obtain ⟨b, valid⟩ := validateActions_ok source lines actions i line found
  have seen : usesKey.search line.content = true := by
    rw [written]
    exact search_written dash _ hdash
  obtain ⟨name, sha, simple, plain, _, settings⟩ := validateAction_ok source lines i line b valid seen
  have same : name ++ '@' :: sha = "actions/checkout".toList ++ '@' :: rest := by
    rw [← simple.referenceOf_eq, written]
    exact referenceOf_eq dash gap _ hdash hgap rfl
  have checkout : name = "actions/checkout".toList := by
    have first (a b : List Char) (h : '@' ∉ a) : (a ++ '@' :: b).takeWhile (· != '@') = a := by
      rw [List.takeWhile_append_of_pos fun c hc => ?_]
      · simp
      · rw [bne_iff_ne]
        rintro rfl
        exact h hc
    rw [← first name sha plain, same, first _ _ (by decide)]
  exact validateCheckoutCredentials_ok source lines i line (settings checkout)

/-- The gate reads the checkout's step from line `c` on. -/
structure ReadsFrom (lines : List Line) (usesLine : Line) (c i : Nat) : Prop where
  le : c ≤ i
  opens : holdsAt lines (opensFor usesLine) c = true
  nearest : ∀ j, c < j → j ≤ i → holdsAt lines (opensFor usesLine) j = false

/-- The credentials lines that the gate reads from line `c` on are those of the step from
line `s`, and nothing stands one column below the gate's `with:`. -/
structure Enclosed (lines : List Line) (usesLine : Line) (s c : Nat) : Prop where
  inside : ∀ q, Scans lines c q → holdsAt lines isCredentials q = true →
    Covers (indentAt lines) s q
  alone : ∀ q, Covers (indentAt lines) s q → holdsAt lines isCredentials q = true →
    Scans lines c q
  nests : ∀ w j q, holdsAt lines (isWith (propertyIndent usesLine)) w = true → c ≤ w → w < j →
    j < q → Scans lines c q → holdsAt lines isCredentials q = true →
      indentAt lines j ≠ propertyIndent usesLine + 1

/-- The step has a credentials line that the gate does not read, and none that it reads. -/
def Unread (lines : List Line) (s c : Nat) : Prop :=
  (∃ q, Covers (indentAt lines) s q ∧ holdsAt lines isCredentials q = true ∧ ¬Scans lines c q) ∧
    ∀ q, Scans lines c q → holdsAt lines isCredentials q = true → ¬Covers (indentAt lines) s q

theorem holdsAt_mono {lines : List Line} {p q : Line → Bool} {i : Nat}
    (le : ∀ line, p line = true → q line = true) (h : holdsAt lines p i = true) :
    holdsAt lines q i = true := by
  obtain ⟨line, found, here⟩ := (holdsAt_eq_true _ _ _).mp h
  exact (holdsAt_eq_true _ _ _).mpr ⟨line, found, le line here⟩

theorem lt_length_of_indent {lines : List Line} {i : Nat} (h : 0 < indentAt lines i) :
    i < lines.length := by
  by_contra outside
  rw [indentAt, List.getElem?_eq_none (by omega)] at h
  cases h

theorem scans_of_covers {lines : List Line} {s j : Nat} (start : s < lines.length)
    (h : Covers (indentAt lines) s j) : Scans lines s j where
  le := h.le
  inside := by
    obtain rfl | after := Nat.eq_or_lt_of_le h.le
    · exact start
    · have deep := h.deeper j after (Nat.le_refl j)
      exact lt_length_of_indent (by omega)
  open_ m after before := by
    rw [Bool.eq_false_iff]
    intro opens
    obtain ⟨line, found, same⟩ := (holdsAt_eq_true _ _ _).mp opens
    rw [startsAt, Bool.and_eq_true, beq_iff_eq, ← indentAt_of_getElem? found] at same
    have deep := h.deeper m after before
    omega

theorem Scans.earlier {lines : List Line} {c j m : Nat} (h : Scans lines c j) (le : c ≤ m)
    (before : m ≤ j) : Scans lines c m where
  le := le
  inside := Nat.lt_of_le_of_lt before h.inside
  open_ k after last := h.open_ k after (Nat.le_trans last before)

theorem indentAt_isWith {lines : List Line} {indent w : Nat}
    (mapping : holdsAt lines (isWith indent) w = true) : indentAt lines w = indent := by
  obtain ⟨line, found, same⟩ := (holdsAt_eq_true _ _ _).mp mapping
  rw [isWith, Bool.and_eq_true, beq_iff_eq] at same
  rw [indentAt_of_getElem? found]
  exact same.1

namespace Looked

variable {lines : List Line} {usesLine : Line} {i c w p : Nat}

theorem readsFrom (looked : Looked lines usesLine i c w p) : ReadsFrom lines usesLine c i :=
  ⟨looked.le, looked.opens, looked.nearest⟩

theorem key (looked : Looked lines usesLine i c w p) : holdsAt lines isCredentials p = true :=
  (looked.credentials_iff p looked.scanned).mpr rfl

/-- The gate starts at the step's own `- ` line or behind it. -/
theorem starts_behind (looked : Looked lines usesLine i c w p) (found : lines[i]? = some usesLine)
    (s : Nat) (step : IsStep lines s i) : s ≤ c := by
  by_contra after
  obtain ⟨line, here, dashed⟩ := (holdsAt_eq_true _ _ _).mp step.opening
  have deep := step.covers.le_depth
  rw [indentAt_of_getElem? here, indentAt_of_getElem? found] at deep
  have candidate : holdsAt lines (opensFor usesLine) s = true :=
    (holdsAt_eq_true _ _ _).mpr ⟨line, here, by simp [opensFor, deep, dashed]⟩
  have skipped := looked.nearest s (by omega) step.covers.le
  rw [candidate] at skipped
  cases skipped

/-- Where the credentials lines of the gate and of the step are the same, the one that the
gate found is the step's own. -/
theorem own_of_enclosed (looked : Looked lines usesLine i c w p) (s : Nat) (le : s ≤ c)
    (enclosed : Enclosed lines usesLine s c) : OwnSettings lines (propertyIndent usesLine) s := by
  have hp := enclosed.inside p looked.scanned looked.key
  have hw := hp.earlier (Nat.le_trans le looked.first) (Nat.le_of_lt looked.before)
  have scannedWith := looked.scanned.earlier looked.first (Nat.le_of_lt looked.before)
  have mapping := (looked.with_iff w scannedWith).mpr rfl
  have shallow := indentAt_isWith mapping
  have indent := looked.indent
  refine ⟨w, p, hw, mapping, hp, looked.disabled, ⟨looked.before, by omega, fun j after before => ?_⟩,
    fun q inside key => ?_⟩
  · have deep := looked.below j after (Nat.le_of_lt before)
    have nested := enclosed.nests w j p mapping looked.first after before looked.scanned looked.key
    omega
  · exact (looked.credentials_iff q (enclosed.alone q inside key)).mp key

/-- The credentials line of a step that has its settings is the one that the gate found, unless
the gate reads none of the step's. -/
theorem enclosed_of_own (looked : Looked lines usesLine i c w p) (s : Nat)
    (own : OwnSettings lines (propertyIndent usesLine) s) (seen : ¬Unread lines s c) :
    Enclosed lines usesLine s c := by
  obtain ⟨w', p', hw, mapping, hp, disabled, child, only⟩ := own
  have key := holdsAt_mono isCredentials_of_isDisabled disabled
  have scanned : Scans lines c p' := by
    by_contra unread
    refine seen ⟨⟨p', hp, key, unread⟩, fun q scans credentials covered => ?_⟩
    have same := only q covered credentials
    subst same
    exact unread scans
  have same := (looked.credentials_iff p' scanned).mp key
  subst same
  refine ⟨fun q scans credentials => ?_, fun q covered credentials => ?_,
    fun v j q opened first after before scans credentials => ?_⟩
  · rw [(looked.credentials_iff q scans).mp credentials]
    exact hp
  · rw [only q covered credentials]
    exact scanned
  · have sameQ := (looked.credentials_iff q scans).mp credentials
    subst sameQ
    have indent := looked.indent
    -- The gate's `- ` line is no deeper than `with:`, so the `with:` of the step is not above it.
    have behind : c ≤ w' := by
      by_contra above
      have deep := child.nearest c (by omega) (Nat.lt_of_le_of_lt looked.first looked.before)
      obtain ⟨line, here, opens⟩ := (holdsAt_eq_true _ _ _).mp looked.opens
      rw [opensFor, Bool.and_eq_true, decide_eq_true_eq, ← indentAt_of_getElem? here] at opens
      have shallow : usesLine.indent ≤ propertyIndent usesLine := Nat.le_add_right _ _
      omega
    have sameW := (looked.with_iff w' (scanned.earlier behind (Nat.le_of_lt child.before))).mp mapping
    have sameV := (looked.with_iff v (scanned.earlier first (by omega))).mp opened
    subst sameW sameV
    have deep := child.nearest j after before
    omega

end Looked

/-- A gate that starts at the step's own `- ` line reads all of the step. -/
theorem not_unread_of_start (lines : List Line) (s : Nat) (start : s < lines.length) :
    ¬Unread lines s s := by
  intro unread
  obtain ⟨⟨q, covered, _, unscanned⟩, _⟩ := unread
  exact unscanned (scans_of_covers start covered)

/-- Of an accepted workflow: the step of a checkout has its own settings when the gate, which
reads from the nearest `- ` line up to the next of the same indentation, has read the step's
credentials lines and no others; and unless it has read none of them, only then. It cannot
have read none where it starts at the step's own `- ` line. -/
theorem checkout_credentials_iff (source : String) (text : List Char) (lines : List Line)
    (read : logicalLines source text = .ok lines) (accepted : validateWorkflow source text = .ok ())
    (i : Nat) (line : Line) (found : lines[i]? = some line) (uses : UsesCheckout line.content) :
    ∃ c, ReadsFrom lines line c i ∧ ¬Unread lines c c ∧
      ((∃ s, IsStep lines s i ∧ Enclosed lines line s c) →
        ∃ s, IsStep lines s i ∧ OwnSettings lines (propertyIndent line) s) ∧
      ∀ s, IsStep lines s i → ¬Unread lines s c →
        (OwnSettings lines (propertyIndent line) s ↔ Enclosed lines line s c) := by
  obtain ⟨c, w, p, looked⟩ := checkout_looked source text lines read accepted i line found uses
  refine ⟨c, looked.readsFrom, not_unread_of_start lines c (holdsAt_lt looked.opens), ?_, ?_⟩
  · intro held
    obtain ⟨s, step, enclosed⟩ := held
    exact ⟨s, step, looked.own_of_enclosed s (looked.starts_behind found s step) enclosed⟩
  · intro s step seen
    constructor
    · intro own
      exact looked.enclosed_of_own s own seen
    · intro enclosed
      exact looked.own_of_enclosed s (looked.starts_behind found s step) enclosed

theorem usesCheckout_base :
    UsesCheckout "- uses: actions/checkout@3d3c42e5aac5ba805825da76410c181273ba90b1".toList :=
  ⟨['-', ' '], [' '], "3d3c42e5aac5ba805825da76410c181273ba90b1".toList, Or.inr ⟨[' '], rfl, rfl⟩, rfl,
    by decide +kernel⟩

theorem checkout_credentials_iff_base :
    IsStep (numbered base) 9 9 ∧ OwnSettings (numbered base) 8 9 := by
  have found : (numbered base)[9]? = some ⟨10, 6,
      "- uses: actions/checkout@3d3c42e5aac5ba805825da76410c181273ba90b1".toList⟩ := by decide +kernel
  obtain ⟨c, reads, seen, _, iff⟩ := checkout_credentials_iff "positive-fixture.yml" (written base)
    (numbered base) logicalLines_base validateWorkflow_base 9 _ found usesCheckout_base
  have start : c = 9 := by
    by_contra above
    have skipped := reads.nearest 9 (by have := reads.le; omega) (le_refl 9)
    exact absurd skipped (by decide +kernel)
  subst start
  have credentials : ∀ q < 12, holdsAt (numbered base) isCredentials q = true → q = 11 := by
    decide +kernel
  have mapping : ∀ w < 12, holdsAt (numbered base) (isWith 8) w = true → w = 10 := by decide +kernel
  have deeper : ∀ j < 12, 9 < j → indentAt (numbered base) 9 < indentAt (numbered base) j := by
    decide +kernel
  have step : IsStep (numbered base) 9 9 :=
    ⟨by decide +kernel, ⟨le_refl 9, fun j _ _ => by omega⟩, fun t _ h => h.le⟩
  refine ⟨step, (iff 9 step seen).mpr ⟨fun q scans key => ?_, fun q covered _ => ?_,
    fun w j q opened _ _ _ scans key => ?_⟩⟩
  · have last := credentials q scans.inside key
    subst last
    exact ⟨by omega, fun j after before => deeper j (by omega) after⟩
  · exact scans_of_covers (by decide +kernel) covered
  · have last := credentials q scans.inside key
    have first := mapping w (holdsAt_lt opened) opened
    omega

/-- A checkout without settings as the last step of a job, and a job with a matrix. -/
def lastStep : List (Nat × String) :=
  base.take 10 ++ [(2, "other:"), (4, "permissions:"), (6, "contents: read"),
    (4, "runs-on: ubuntu-24.04"), (4, "timeout-minutes: 10"), (4, "strategy:"), (6, "matrix:"),
    (8, "with:"), (10, "persist-credentials: false")]

theorem checkout_without_settings : ¬∀ (source : String) (text : List Char) (lines : List Line),
    logicalLines source text = .ok lines → validateWorkflow source text = .ok () →
      ∀ i line, lines[i]? = some line → UsesCheckout line.content →
        ∃ s, IsStep lines s i ∧ OwnSettings lines (propertyIndent line) s := by
  intro claim
  have read : logicalLines "ci.yml" (written lastStep) = .ok (numbered lastStep) := by
    decide +kernel
  have accepted : validateWorkflow "ci.yml" (written lastStep) = .ok () := by decide +kernel
  have found : (numbered lastStep)[9]? = some ⟨10, 6,
      "- uses: actions/checkout@3d3c42e5aac5ba805825da76410c181273ba90b1".toList⟩ := by decide +kernel
  obtain ⟨s, step, w, p, _, _, hp, disabled, _⟩ := claim _ _ _ read accepted 9 _ found usesCheckout_base
  have dashed : ∀ s < 10, holdsAt (numbered lastStep) Line.dashed s = true → s = 9 := by
    decide +kernel
  have start := dashed s (by have := step.covers.le; omega) step.opening
  subst start
  have ends : ¬indentAt (numbered lastStep) 9 < indentAt (numbered lastStep) 10 := by decide +kernel
  obtain same | after := Nat.eq_or_lt_of_le hp.le
  · subst same
    exact absurd disabled (by decide +kernel)
  · exact ends (hp.deeper 10 (by omega) after)

end HostMonitoring.Workflow
