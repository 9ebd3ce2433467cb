import HostMonitoring.Release.Traversal

namespace HostMonitoring.Release.Writer

open Framework Framework.Checks

/-- What kind of entry a node can have. -/
def kind? : Node → Option Kind
  | .directory .. => some .directory
  | .file .. => some .file
  | _ => none

/-- The files and directories among some nodes. -/
def nodeKinds (nodes : List (RelativePath × Node)) : List (RelativePath × Kind) :=
  nodes.filterMap fun item => (kind? item.2).map (item.1, ·)

theorem kind?_of_describes (sha : Digest) (e : ReleaseEntry) (n : Node) (h : Describes sha e n) :
    kind? n = some e.kind := by
  cases e with
  | directory path mode =>
    cases n with
    | directory m children => rfl
    | file m nlink content => cases h
    | symlink => cases h
    | special => cases h
  | file path mode size sha256 =>
    cases n with
    | file m nlink content => rfl
    | directory m children => cases h
    | symlink => cases h
    | special => cases h

theorem relativePath_pathText (relative : RelativePath) (ne : relative ≠ [])
    (h : ∀ name ∈ relative, Portable name) : relativePath (pathText relative) = relative := by
  have comps := components_joined relative ne h
  rw [← bytes_ofAscii _ (ascii_joined relative h)] at comps
  change (components (bytes (pathText relative))).filterMap Component.name? = relative
  rw [pathText, comps, List.filterMap_map]
  exact List.filterMap_some

theorem bytes_pathText (relative : RelativePath) (h : ∀ name ∈ relative, Portable name) :
    bytes (pathText relative) = joined relative := bytes_ofAscii _ (ascii_joined relative h)

/-- Portable names joined are a proper spelling. -/
theorem spelled_pathText (relative : RelativePath) (ne : relative ≠ [])
    (h : ∀ name ∈ relative, Portable name) (short : (joined relative).length ≤ 1024) :
    Spelled (pathText relative) := by
  have text := bytes_pathText relative h
  have names := relativePath_pathText relative ne h
  have comps := components_joined relative ne h
  obtain ⟨first, rest, rfl⟩ : ∃ first rest, relative = first :: rest :=
    List.exists_cons_of_ne_nil ne
  have portable : Portable first := h first List.mem_cons_self
  obtain ⟨b, bs, rfl⟩ : ∃ b bs, first = b :: bs := List.exists_cons_of_ne_nil portable.1
  have front : ∃ more, joined ((b :: bs) :: rest) = b :: more := by
    cases rest with
    | nil => exact ⟨bs, by simp [joined]⟩
    | cons next rest => exact ⟨_, by rw [joined, List.intercalate_cons_cons]; rfl⟩
  obtain ⟨more, hm⟩ := front
  have notSlash : b ≠ slash := by
    rintro rfl
    exact slash_not_portable _ portable List.mem_cons_self
  constructor
  · rw [text, hm]
    exact List.cons_ne_nil b more
  · rw [text]
    exact short
  · rw [text, hm, List.head?_cons]
    simpa using notSlash
  · rw [text, names]
    exact comps
  · rw [names]
    exact h

section Wrote

variable (sha : Digest) (item : RelativePath × Node) (e : ReleaseEntry) (wrote : Wrote sha item e)
include wrote

theorem names_of_wrote : e.names = item.1 := by
  rw [ReleaseEntry.names, wrote.path]
  exact relativePath_pathText item.1 wrote.nonempty wrote.portable

theorem bytes_of_wrote : bytes e.path = joined item.1 := by
  rw [wrote.path]
  exact bytes_pathText item.1 wrote.portable

theorem spelled_of_wrote : Spelled e.path := by
  rw [wrote.path]
  exact spelled_pathText item.1 wrote.nonempty wrote.portable wrote.short

/-- A written path is spelled as its names demand. -/
theorem executable_of_wrote (h : e.names = relativePath serverBinary) : e.path = serverBinary := by
  rw [names_of_wrote sha item e wrote] at h
  rw [wrote.path, h]
  decide +kernel

end Wrote

theorem map_toNat_lt (xs ys : List UInt8) : xs.map UInt8.toNat < ys.map UInt8.toNat ↔ xs < ys := by
  induction xs generalizing ys with
  | nil =>
    cases ys with
    | nil => simp
    | cons y ys => simp
  | cons x xs ih =>
    cases ys with
    | nil => simp
    | cons y ys =>
      rw [List.map_cons, List.map_cons, List.cons_lt_cons_iff, List.cons_lt_cons_iff, ih,
        ← UInt8.lt_iff_toNat_lt, UInt8.toNat_inj]

theorem traversal_perm (root : Node) : (traversal root).Perm (root.descendants []) :=
  List.mergeSort_perm _ _

/-- The text order of the traversal. -/
theorem traversal_sorted (root : Node) :
    (traversal root).Pairwise fun a b => ¬asPosix b.1 < asPosix a.1 := by
  let le (a b : RelativePath × Node) : Bool := decide (¬asPosix b.1 < asPosix a.1)
  have trans (a b c : RelativePath × Node) (hab : le a b = true) (hbc : le b c = true) :
      le a c = true := by
    have first := List.not_lt.mp (of_decide_eq_true hab)
    have second := List.not_lt.mp (of_decide_eq_true hbc)
    exact decide_eq_true (List.not_lt.mpr (List.le_trans first second))
  have total (a b : RelativePath × Node) : (le a b || le b a) = true := by
    rw [Bool.or_eq_true, decide_eq_true_eq, decide_eq_true_eq]
    exact (List.le_total _ _).imp List.not_lt.mpr List.not_lt.mpr
  apply (List.pairwise_mergeSort trans total (root.descendants [])).imp
  intro a b h
  exact of_decide_eq_true h

section Release

variable (sha : Digest) (tree : FileTree OsString) (es : List ReleaseEntry)
  (all : (traversal tree.root).Forall₂ (Wrote sha) es)
include all

theorem written_names : es.map ReleaseEntry.names = (traversal tree.root).map Prod.fst :=
  (map_eq_of_forall₂ _ Prod.fst ReleaseEntry.names
    (fun item e h => (names_of_wrote sha item e h).symm) _ _ all).symm

theorem written_distinct : (es.map ReleaseEntry.names).Nodup := by
  rw [written_names sha tree es all, ((traversal_perm tree.root).map Prod.fst).nodup_iff]
  exact Node.nodup_descendants tree.root tree.distinct []

/-- Sorting by text in Python orders the entries by bytes. -/
theorem written_sorted : Sorted es := by
  have portable (item : RelativePath × Node) (h : item ∈ traversal tree.root) :
      ∃ e, Wrote sha item e := by
    obtain ⟨e, _, wrote⟩ := exists_of_forall₂ _ es _ all.flip item h
    exact ⟨e, wrote⟩
  have texts : es.map (fun e => bytes e.path) =
      (traversal tree.root).map fun item => joined item.1 :=
    (map_eq_of_forall₂ _ (fun item : RelativePath × Node => joined item.1)
      (fun e : ReleaseEntry => bytes e.path)
      (fun item e h => (bytes_of_wrote sha item e h).symm) _ _ all).symm
  have distinct : (traversal tree.root).Pairwise fun a b => a.1 ≠ b.1 := by
    have nodup := written_distinct sha tree es all
    rw [written_names sha tree es all] at nodup
    exact List.pairwise_map.mp nodup
  have strict : (traversal tree.root).Pairwise fun a b => joined a.1 < joined b.1 := by
    apply ((traversal_sorted tree.root).and distinct).imp_of_mem
    rintro a b ha hb ⟨notBefore, ne⟩
    obtain ⟨e, wrote⟩ := portable a ha
    obtain ⟨e', wrote'⟩ := portable b hb
    have notAfter : ¬joined b.1 < joined a.1 := by
      rw [← map_toNat_lt, ← wrote.posix, ← wrote'.posix]
      exact notBefore
    have apart : joined a.1 ≠ joined b.1 := by
      intro h
      apply ne
      rw [← relativePath_pathText a.1 wrote.nonempty wrote.portable,
        ← relativePath_pathText b.1 wrote'.nonempty wrote'.portable, pathText, pathText, h]
    exact Std.lt_of_le_of_ne notAfter apart
  have sorted : (es.map fun e => bytes e.path).Pairwise (· < ·) := by
    rw [texts]
    exact List.pairwise_map.mpr strict
  exact List.pairwise_map.mp sorted

theorem written_kinds (x : RelativePath × Kind) : x ∈ nodeKinds tree.nodes ↔ x ∈ kinds es := by
  obtain ⟨path, kind⟩ := x
  rw [mem_kinds, nodeKinds, List.mem_filterMap]
  constructor
  · rintro ⟨item, hi, hk⟩
    have hm : item ∈ traversal tree.root := (traversal_perm tree.root).mem_iff.mpr hi
    obtain ⟨e, he, wrote⟩ := exists_of_forall₂ _ es _ all.flip item hm
    rw [kind?_of_describes sha e item.2 wrote.describes] at hk
    simp only [Option.map_some, Option.some.injEq, Prod.mk.injEq] at hk
    exact ⟨e, he, (names_of_wrote sha item e wrote).trans hk.1, hk.2⟩
  · rintro ⟨e, he, rfl, rfl⟩
    obtain ⟨item, hi, wrote⟩ := exists_of_forall₂ _ _ es all e he
    refine ⟨item, (traversal_perm tree.root).mem_iff.mp hi, ?_⟩
    rw [kind?_of_describes sha e item.2 wrote.describes, names_of_wrote sha item e wrote]
    rfl

/-- What the writer wrote about a tree of the release layout lists it exactly. -/
theorem exact_of_written (layout : ExactLayout (nodeKinds tree.nodes))
    (count : es.length ≤ maxEntries) (total : totalBytes tree.nodes ≤ maxReleaseBytes) :
    ExactRelease sha es tree.nodes := by
  have each : ∀ e ∈ es, ∃ item, Wrote sha item e := by
    intro e he
    obtain ⟨item, _, wrote⟩ := exists_of_forall₂ _ _ es all e he
    exact ⟨item, wrote⟩
  have lists : es.Forall₂ (Lists sha) (traversal tree.root) := by
    apply List.Forall₂.flip
    exact all.imp fun item e h => ⟨names_of_wrote sha item e h, h.describes⟩
  refine ⟨⟨_, traversal_perm tree.root, lists⟩, written_sorted sha tree es all,
    written_distinct sha tree es all, ⟨?_, ?_, ?_, ?_⟩, count, ?_, total⟩
  · intro e he
    obtain ⟨item, wrote⟩ := each e he
    exact spelled_of_wrote sha item e wrote
  · exact ExactLayout.congr _ _ layout (written_kinds sha tree es all)
  · intro e he
    obtain ⟨item, wrote⟩ := each e he
    exact wrote.mode
  · intro e he
    obtain ⟨item, wrote⟩ := each e he
    exact executable_of_wrote sha item e wrote
  · intro e he
    obtain ⟨item, wrote⟩ := each e he
    exact wrote.size

end Release

end HostMonitoring.Release.Writer
