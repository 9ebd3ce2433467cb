import HostMonitoring.Release.Written

namespace HostMonitoring.Release

open Framework Framework.Checks Writer

/-- No part between separators is empty or a single dot. -/
def PlainParts (value : String) : Prop :=
  ∀ part ∈ (bytes value).splitOn slash, part ≠ [] ∧ part ≠ [dot]

instance (value : String) : Decidable (PlainParts value) :=
  inferInstanceAs (Decidable (∀ part ∈ _, _))

/-- A path is spelled as its components joined. -/
def Canonical (value : String) (path : PathBuf) : Prop :=
  bytes value = joined path.names ∧ path.names ≠ [] ∧ ∀ name ∈ path.names, Portable name

theorem component?_plain (part : OsString) (plain : part ≠ [] ∧ part ≠ [dot]) :
    component? part = some .parentDir ∨ component? part = some (.normal part) := by
  rw [component?, if_neg (not_or.mpr plain)]
  split_ifs
  · exact Or.inl rfl
  · exact Or.inr rfl

theorem parts_of_components (parts : List OsString) (names : RelativePath)
    (plain : ∀ part ∈ parts, part ≠ [] ∧ part ≠ [dot])
    (h : parts.filterMap component? = names.map .normal) : parts = names := by
  induction parts generalizing names with
  | nil =>
    cases names with
    | nil => rfl
    | cons name names => cases h
  | cons part parts ih =>
    have rest := ih names.tail fun p hp => plain p (List.mem_cons_of_mem part hp)
    rcases component?_plain part (plain part List.mem_cons_self) with up | normal
    · rw [List.filterMap_cons_some up] at h
      cases names with
      | nil => cases h
      | cons name names => cases h
    · rw [List.filterMap_cons_some normal] at h
      cases names with
      | nil => cases h
      | cons name names =>
        obtain ⟨same, others⟩ := List.cons.inj h
        rw [Component.normal.inj same, rest others]
        rfl

theorem components_plain (value : String) (plain : PlainParts value) :
    components (bytes value) = ((bytes value).splitOn slash).filterMap component? := by
  unfold components
  cases hp : (bytes value).splitOn slash with
  | nil => rfl
  | cons part parts =>
    have first := plain part (by rw [hp]; exact List.mem_cons_self)
    cases part with
    | nil => exact absurd rfl first.1
    | cons b bs =>
      simp only [if_neg first.2]

theorem components_ne_nil (path : OsString) (ne : path ≠ []) : components path ≠ [] := by
  unfold components
  cases hp : path.splitOn slash with
  | nil => exact absurd hp (List.splitOnP_ne_nil _ _)
  | cons part parts =>
    cases part with
    | nil =>
      cases parts with
      | nil =>
        have joined : [slash].intercalate (path.splitOn slash) = path :=
          List.intercalate_splitOn slash
        rw [hp] at joined
        exact absurd joined.symm ne
      | cons part parts => exact List.cons_ne_nil _ _
    | cons b bs =>
      simp only
      split_ifs with one
      · exact List.cons_ne_nil _ _
      · rcases component?_plain (b :: bs) ⟨List.cons_ne_nil _ _, one⟩ with h | h
        · rw [List.filterMap_cons_some h]
          exact List.cons_ne_nil _ _
        · rw [List.filterMap_cons_some h]
          exact List.cons_ne_nil _ _

theorem names_ne_nil (value : String) (spelled : Spelled value) : relativePath value ≠ [] := by
  intro none
  have some := components_ne_nil _ spelled.nonempty
  rw [spelled.names, none] at some
  exact some rfl

/-- An accepted path is spelled canonically when its parts are plain, and only then. -/
theorem canonical_iff_plain (value : String) (spelled : Spelled value) :
    bytes value = joined (relativePath value) ↔ PlainParts value := by
  constructor
  · intro same part hp
    rw [same, joined, List.splitOn_intercalate] at hp
    · obtain ⟨ne, one, _⟩ := spelled.portable part hp
      exact ⟨ne, one⟩
    · exact fun name hn => slash_not_portable name (spelled.portable name hn)
    · exact names_ne_nil value spelled
  · intro plain
    have same := spelled.names
    rw [components_plain value plain] at same
    rw [← parts_of_components _ _ plain same, joined, List.intercalate_splitOn]

theorem length_joined_cons (name next : OsString) (rest : RelativePath) :
    (joined (name :: next :: rest)).length = name.length + 1 + (joined (next :: rest)).length := by
  rw [joined, List.intercalate_cons_cons, List.length_append, List.length_append,
    List.length_singleton, ← joined]

/-- Leaving parts out makes a path no longer. -/
theorem length_joined_sublist (xs ys : RelativePath) (h : xs.Sublist ys) :
    (joined xs).length ≤ (joined ys).length := by
  induction h with
  | slnil => exact le_refl _
  | @cons xs ys y h ih =>
    cases ys with
    | nil =>
      rw [List.sublist_nil.mp h]
      exact Nat.zero_le _
    | cons next ys =>
      rw [length_joined_cons]
      omega
  | @cons_cons xs ys x h ih =>
    cases xs with
    | nil =>
      cases ys with
      | nil => exact le_refl _
      | cons next ys =>
        rw [length_joined_cons]
        simp [joined]
        omega
    | cons first xs =>
      cases ys with
      | nil => cases h
      | cons next ys =>
        rw [length_joined_cons, length_joined_cons]
        omega

theorem names_sublist (parts : List OsString) :
    ((parts.filterMap component?).filterMap Component.name?).Sublist parts := by
  induction parts with
  | nil => exact .slnil
  | cons part parts ih =>
    by_cases plain : part ≠ [] ∧ part ≠ [dot]
    · rcases component?_plain part plain with up | normal
      · rw [List.filterMap_cons_some up]
        exact .cons _ ih
      · rw [List.filterMap_cons_some normal]
        exact .cons_cons _ ih
    · have skipped : component? part = none := if_pos (by tauto)
      rw [List.filterMap_cons_none skipped]
      exact .cons _ ih

theorem relativePath_sublist (value : String) :
    (relativePath value).Sublist ((bytes value).splitOn slash) := by
  change ((components (bytes value)).filterMap Component.name?).Sublist _
  unfold components
  cases (bytes value).splitOn slash with
  | nil => exact .slnil
  | cons part parts =>
    cases part with
    | nil =>
      cases parts with
      | nil => exact List.nil_sublist _
      | cons next parts => exact .cons _ (names_sublist (next :: parts))
    | cons b bs =>
      simp only
      split_ifs
      · exact .cons _ (names_sublist parts)
      · exact names_sublist ((b :: bs) :: parts)

/-- The joined components of an accepted path are accepted themselves. -/
theorem spelled_joined (value : String) (spelled : Spelled value) :
    Spelled (pathText (relativePath value)) ∧
      relativePath (pathText (relativePath value)) = relativePath value ∧
      PlainParts (pathText (relativePath value)) := by
  have ne := names_ne_nil value spelled
  have short : (joined (relativePath value)).length ≤ 1024 := by
    have shorter := length_joined_sublist _ _ (relativePath_sublist value)
    rw [joined, joined, List.intercalate_splitOn, ← joined] at shorter
    exact shorter.trans spelled.short
  have canonical := spelled_pathText _ ne spelled.portable short
  have names := relativePath_pathText _ ne spelled.portable
  refine ⟨canonical, names, (canonical_iff_plain _ canonical).mp ?_⟩
  rw [names, bytes_pathText _ spelled.portable]

section Accepted

variable (value : String) (path : PathBuf) (accepted : validatedRelativePath value = .ok path)
include accepted

theorem spelled_of_accepted : Spelled value ∧ path.names = relativePath value := by
  obtain ⟨spelled, rfl⟩ := (validatedRelativePath_ok value path).mp accepted
  exact ⟨spelled, rfl⟩

theorem canonical_accepted : Canonical value path ↔ PlainParts value := by
  obtain ⟨spelled, names⟩ := spelled_of_accepted value path accepted
  unfold Canonical
  rw [names, ← canonical_iff_plain value spelled]
  exact and_iff_left ⟨names_ne_nil value spelled, spelled.portable⟩

theorem spelling_unique (other : String) (path' : PathBuf)
    (accepted' : validatedRelativePath other = .ok path') (same : path'.components = path.components)
    (plain : PlainParts value) (plain' : PlainParts other) : other = value := by
  have canonical := (canonical_accepted value path accepted).mpr plain
  have canonical' := (canonical_accepted other path' accepted').mpr plain'
  apply bytes_injective
  rw [canonical.1, canonical'.1, PathBuf.names, same]
  rfl

theorem second_spelling (rough : ¬PlainParts value) : ∃ other path',
    validatedRelativePath other = .ok path' ∧ path'.components = path.components ∧
      other ≠ value := by
  obtain ⟨spelled, rfl⟩ := (validatedRelativePath_ok value path).mp accepted
  obtain ⟨joinedSpelled, names, plain⟩ := spelled_joined value spelled
  generalize pathText (relativePath value) = other at joinedSpelled names plain
  have same : components (bytes other) = components (bytes value) := by
    rw [joinedSpelled.names, names, spelled.names]
  refine ⟨other, ⟨bytes other⟩, (validatedRelativePath_ok _ _).mpr ⟨joinedSpelled, rfl⟩, same, ?_⟩
  intro same
  rw [same] at plain
  exact rough plain

end Accepted

/-- The paths of an accepted list of entries. -/
theorem canonical_entries (entries : List ReleaseEntry) (expected : Expected)
    (parsed : parseEntries entries = .ok expected) :
    (∀ e ∈ entries, Canonical e.path ⟨bytes e.path⟩) ↔ ∀ e ∈ entries, PlainParts e.path := by
  have spelled := ((parseEntries_ok entries expected).mp parsed).1.1
  apply forall₂_congr
  intro e he
  exact canonical_accepted e.path _
    ((validatedRelativePath_ok _ _).mpr ⟨(spelled e he).spelled, rfl⟩)

/-- An accepted release path is its components joined when no part of it is empty or a single
dot; two such spellings are two paths. Any other accepted path has a second spelling. -/
theorem release_path_canonical_iff (value : String) (path : PathBuf)
    (accepted : validatedRelativePath value = .ok path) :
    (Canonical value path ↔ PlainParts value) ∧
    (PlainParts value → ∀ other path', validatedRelativePath other = .ok path' →
      path'.components = path.components → PlainParts other → other = value) ∧
    (¬PlainParts value → ∃ other path', validatedRelativePath other = .ok path' ∧
      path'.components = path.components ∧ other ≠ value) ∧
    ∀ entries expected, parseEntries entries = .ok expected →
      ((∀ e ∈ entries, Canonical e.path ⟨bytes e.path⟩) ↔ ∀ e ∈ entries, PlainParts e.path) := by
  refine ⟨canonical_accepted value path accepted, ?_, second_spelling value path accepted,
    canonical_entries⟩
  intro plain other path' accepted' same plain'
  exact spelling_unique value path accepted other path' accepted' same plain plain'

theorem release_path_canonical_iff_twice :
    let rough : PathBuf := ⟨bytes "web//index.html"⟩
    ¬Canonical "web//index.html" rough ∧ ∃ other path',
      validatedRelativePath other = .ok path' ∧ path'.components = rough.components ∧
        other ≠ "web//index.html" := by
  have accepted : validatedRelativePath "web//index.html" = .ok ⟨bytes "web//index.html"⟩ :=
    (validatedRelativePath_ok _ _).mpr ⟨by constructor <;> decide +kernel, rfl⟩
  have rough : ¬PlainParts "web//index.html" := by decide +kernel
  have exact := release_path_canonical_iff _ _ accepted
  exact ⟨fun canonical => rough (exact.1.mp canonical), exact.2.2.1 rough⟩

/-- Two accepted spellings of one path, of which the first is not canonical. -/
theorem release_path_not_canonical :
    validatedRelativePath "web//index.html" = .ok ⟨bytes "web//index.html"⟩ ∧
      bytes "web//index.html" ≠ joined (PathBuf.names ⟨bytes "web//index.html"⟩) ∧
      validatedRelativePath "web/index.html" = .ok ⟨bytes "web/index.html"⟩ ∧
      PathBuf.components ⟨bytes "web/index.html"⟩ =
        PathBuf.components ⟨bytes "web//index.html"⟩ := by
  refine ⟨(validatedRelativePath_ok _ _).mpr ⟨by constructor <;> decide +kernel, rfl⟩,
    by decide +kernel, (validatedRelativePath_ok _ _).mpr ⟨by constructor <;> decide +kernel, rfl⟩,
    by decide +kernel⟩

end HostMonitoring.Release
