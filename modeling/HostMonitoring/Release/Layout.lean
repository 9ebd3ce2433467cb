import HostMonitoring.Release.Entries

namespace HostMonitoring.Release

open Framework Framework.Checks

inductive Kind where
  | directory
  | file
deriving DecidableEq

def ReleaseEntry.kind : ReleaseEntry → Kind
  | .directory .. => .directory
  | .file .. => .file

def assetsPath : RelativePath := relativePath "web/assets"

def assetTypes : List OsString := [bytes "js", bytes "css", bytes "woff2"]

/-- A compiled asset with some extension. -/
def IsAsset (path : RelativePath) (ext : OsString) : Prop :=
  ∃ name, path = assetsPath ++ [name] ∧ extension name = some ext

/-- What may stand in a release, and as what. -/
def Allowed (path : RelativePath) : Kind → Prop
  | .directory => path ∈ directories.map relativePath
  | .file => path ∈ fixedFiles.map relativePath ∨ ∃ ext ∈ assetTypes, IsAsset path ext

/-- The one layout of a release: four directories, four fixed files, and compiled assets with
a JavaScript file among them. -/
structure ExactLayout (nodes : List (RelativePath × Kind)) : Prop where
  directories : ∀ d ∈ directories, (relativePath d, .directory) ∈ nodes
  files : ∀ f ∈ fixedFiles, (relativePath f, .file) ∈ nodes
  allowed : ∀ n ∈ nodes, Allowed n.1 n.2
  javascript : ∃ path, (path, .file) ∈ nodes ∧ IsAsset path (bytes "js")

/-- A layout is about which nodes there are. -/
theorem ExactLayout.congr (xs ys : List (RelativePath × Kind)) (layout : ExactLayout xs)
    (h : ∀ x, x ∈ xs ↔ x ∈ ys) : ExactLayout ys := by
  obtain ⟨path, hp, js⟩ := layout.javascript
  refine ⟨?_, ?_, ?_, path, (h _).mp hp, js⟩
  · exact fun d hd => (h _).mp (layout.directories d hd)
  · exact fun f hf => (h _).mp (layout.files f hf)
  · exact fun n hn => layout.allowed n ((h n).mpr hn)

theorem child_of_assets (path : RelativePath) :
    path ≠ [] ∧ path.dropLast = assetsPath ↔ ∃ name, path = assetsPath ++ [name] := by
  constructor
  · rintro ⟨hne, hd⟩
    exact ⟨path.getLast hne, by rw [← hd, List.dropLast_append_getLast]⟩
  · rintro ⟨name, rfl⟩
    simp

theorem asset_not_fixed (path : RelativePath) (ext : OsString) (h : IsAsset path ext) :
    path ∉ fixedFiles.map relativePath := by
  obtain ⟨name, rfl, _⟩ := h
  have short : ∀ p ∈ fixedFiles.map relativePath, p.length < 3 := by decide +kernel
  have long : assetsPath.length = 2 := by decide +kernel
  intro hm
  have hl := short _ hm
  rw [List.length_append, long, List.length_singleton] at hl
  omega

/-- Whether the layout check counts an entry as a JavaScript file. -/
def countsAsJavaScript (item : RelativePath × ReleaseEntry) : Bool :=
  item.2.kind = .file ∧ item.1 ≠ [] ∧ item.1.dropLast = assetsPath ∧
    item.1.getLast?.bind extension = some (bytes "js")

theorem countsAsJavaScript_iff (item : RelativePath × ReleaseEntry) :
    countsAsJavaScript item ↔ item.2.kind = .file ∧ IsAsset item.1 (bytes "js") := by
  unfold countsAsJavaScript
  rw [decide_eq_true_eq]
  apply and_congr_right
  intro _
  constructor
  · rintro ⟨hne, hd, hext⟩
    obtain ⟨name, h⟩ := (child_of_assets item.1).mp ⟨hne, hd⟩
    rw [h] at hext
    exact ⟨name, h, by simpa using hext⟩
  · rintro ⟨name, h, hext⟩
    obtain ⟨hne, hd⟩ := (child_of_assets item.1).mpr ⟨name, h⟩
    refine ⟨hne, hd, ?_⟩
    rw [h]
    simpa using hext

theorem asset_iff (path : RelativePath) :
    (∃ ext ∈ assetTypes, IsAsset path ext) ↔ (path ≠ [] ∧ path.dropLast = assetsPath) ∧
      path.getLast?.bind extension ∈
        [some (bytes "js"), some (bytes "css"), some (bytes "woff2")] := by
  have types : [some (bytes "js"), some (bytes "css"), some (bytes "woff2")] =
      assetTypes.map some := rfl
  rw [child_of_assets, types]
  constructor
  · rintro ⟨ext, ht, name, rfl, hext⟩
    refine ⟨⟨name, rfl⟩, ?_⟩
    rw [List.getLast?_append_of_ne_nil _ (List.cons_ne_nil _ _), List.getLast?_singleton,
      Option.bind_some, hext]
    exact List.mem_map_of_mem ht
  · rintro ⟨⟨name, rfl⟩, ht⟩
    rw [List.getLast?_append_of_ne_nil _ (List.cons_ne_nil _ _), List.getLast?_singleton,
      Option.bind_some] at ht
    obtain ⟨ext, hm, hext⟩ := List.mem_map.mp ht
    exact ⟨ext, hm, name, rfl, hext.symm⟩

theorem layoutEntry_ok (n m : Nat) (item : RelativePath × ReleaseEntry) :
    layoutEntry n item = .ok m ↔
      Allowed item.1 item.2.kind ∧ m = n + (if countsAsJavaScript item then 1 else 0) := by
  obtain ⟨path, entry⟩ := item
  cases entry with
  | directory p mode =>
    have none : countsAsJavaScript (path, .directory p mode) = false := by
      simp [countsAsJavaScript, ReleaseEntry.kind]
    simp only [layoutEntry, check_bind_ok, ensure_ok, pure_ok, none]
    rfl
  | file p mode size sha256 =>
    simp only [layoutEntry]
    by_cases hf : path ∈ fixedFiles.map relativePath
    · have none : countsAsJavaScript (path, .file p mode size sha256) = false := by
        rw [Bool.eq_false_iff, Ne, countsAsJavaScript_iff]
        rintro ⟨_, asset⟩
        exact asset_not_fixed path _ asset hf
      rw [if_pos hf, pure_ok, none]
      simp [Allowed, ReleaseEntry.kind, hf]
    · have allowed : Allowed path .file ↔ ∃ ext ∈ assetTypes, IsAsset path ext := by
        simp only [Allowed, hf, false_or]
      rw [if_neg hf, check_bind_ok, ensure_ok, check_bind_ok, ensure_ok, pure_ok]
      simp only [ReleaseEntry.kind, allowed, asset_iff, and_assoc]
      apply and_congr_right
      intro hne
      apply and_congr_right
      intro hd
      apply and_congr_right
      intro _
      by_cases hjs : path.getLast?.bind extension = some (bytes "js")
      · have counts : countsAsJavaScript (path, .file p mode size sha256) = true := by
          rw [countsAsJavaScript, decide_eq_true_eq]
          exact ⟨rfl, hne, hd, hjs⟩
        rw [if_pos hjs, counts, if_pos rfl]
      · have none : countsAsJavaScript (path, .file p mode size sha256) = false := by
          rw [countsAsJavaScript, decide_eq_false_iff_not]
          exact fun h => hjs h.2.2.2
        rw [if_neg hjs, none]
        simp

theorem layoutEntries_ok (items : List (RelativePath × ReleaseEntry)) (n m : Nat) :
    items.foldlM layoutEntry n = .ok m ↔
      (∀ item ∈ items, Allowed item.1 item.2.kind) ∧ m = n + items.countP countsAsJavaScript := by
  induction items generalizing n with
  | nil =>
    rw [List.foldlM_nil, pure_ok]
    simp
  | cons item items ih =>
    rw [List.foldlM_cons, bind_ok]
    simp only [layoutEntry_ok, ih, List.forall_mem_cons, List.countP_cons]
    constructor
    · rintro ⟨_, ⟨ha, rfl⟩, hall, rfl⟩
      exact ⟨⟨ha, hall⟩, by omega⟩
    · rintro ⟨⟨ha, hall⟩, rfl⟩
      exact ⟨_, ⟨ha, rfl⟩, hall, by omega⟩

def kinds (entries : List ReleaseEntry) : List (RelativePath × Kind) :=
  entries.map fun e => (e.names, e.kind)

theorem mem_kinds (entries : List ReleaseEntry) (path : RelativePath) (kind : Kind) :
    (path, kind) ∈ kinds entries ↔ ∃ e ∈ entries, e.names = path ∧ e.kind = kind := by
  simp [kinds]

section Parsed

variable (entries : List ReleaseEntry) (expected : Expected)
  (parsed : expected.entries = (entries.map keyed).reverse)
  (modes : ∀ e ∈ entries, e.mode = requiredMode e)
include parsed modes

theorem isDirectory_iff (path : RelativePath) :
    isDirectory "0555" (expected.get? path) ↔ (path, .directory) ∈ kinds entries := by
  rw [mem_kinds]
  constructor
  · intro h
    cases he : expected.get? path with
    | none => simp [he, isDirectory] at h
    | some e =>
      obtain ⟨hm, hn⟩ := (get?_parsed entries expected parsed path e).mp he
      cases e with
      | directory p mode => exact ⟨_, hm, hn, rfl⟩
      | file p mode size sha256 => simp [he, isDirectory] at h
  · rintro ⟨e, hm, hn, hk⟩
    rw [(get?_parsed entries expected parsed path e).mpr ⟨hm, hn⟩]
    have mode := modes e hm
    cases e with
    | directory p mode' => simpa [isDirectory, ReleaseEntry.mode, requiredMode] using mode
    | file p mode' size sha256 => cases hk

/-- The mode a fixed file must have tells the server binary by how its path is written. -/
theorem isFile_iff (file : String) (fixed : file ∈ fixedFiles) :
    isFile (if file = serverBinary then "0555" else "0444") (expected.get? (relativePath file)) ↔
      (relativePath file, .file) ∈ kinds entries ∧ (file = serverBinary →
        ∀ e ∈ entries, e.names = relativePath serverBinary → e.path = serverBinary) := by
  have other : ∀ f ∈ fixedFiles, relativePath f = relativePath serverBinary → f = serverBinary := by
    decide +kernel
  rw [mem_kinds]
  constructor
  · intro h
    cases he : expected.get? (relativePath file) with
    | none => simp [he, isFile] at h
    | some e =>
      obtain ⟨hm, hn⟩ := (get?_parsed entries expected parsed _ e).mp he
      have mode := modes e hm
      cases e with
      | directory p mode' => simp [he, isFile] at h
      | file p mode' size sha256 =>
        refine ⟨⟨_, hm, hn, rfl⟩, ?_⟩
        rintro rfl e' hm' hn'
        have he' := (get?_parsed entries expected parsed _ e').mpr ⟨hm', hn'⟩
        rw [he, Option.some.injEq] at he'
        subst he'
        simp only [he, isFile, beq_iff_eq] at h
        simp only [ReleaseEntry.mode, requiredMode, h] at mode
        by_contra hp
        change p ≠ serverBinary at hp
        simp [hp] at mode
  · rintro ⟨⟨e, hm, hn, hk⟩, server⟩
    rw [(get?_parsed entries expected parsed _ e).mpr ⟨hm, hn⟩]
    have mode := modes e hm
    cases e with
    | directory p mode' => cases hk
    | file p mode' size sha256 =>
      have same : file = serverBinary ↔ p = serverBinary := by
        constructor
        · intro h
          exact server h _ hm (h ▸ hn)
        · rintro rfl
          exact other file fixed hn.symm
      simpa [isFile, ReleaseEntry.mode, requiredMode, same] using mode

theorem validateExactLayout_ok :
    validateExactLayout expected = .ok () ↔ ExactLayout (kinds entries) ∧
      ∀ e ∈ entries, e.names = relativePath serverBinary → e.path = serverBinary := by
  have allowed : (∀ item ∈ expected.entries, Allowed item.1 item.2.kind) ↔
      ∀ n ∈ kinds entries, Allowed n.1 n.2 := by
    simp [parsed, kinds, keyed]
  have javascript : 0 < expected.entries.countP countsAsJavaScript ↔
      ∃ path, (path, .file) ∈ kinds entries ∧ IsAsset path (bytes "js") := by
    simp only [List.countP_pos_iff, countsAsJavaScript_iff, parsed, List.mem_reverse, List.mem_map,
      mem_kinds]
    constructor
    · rintro ⟨_, ⟨e, hm, rfl⟩, hk, ha⟩
      exact ⟨_, ⟨e, hm, rfl, hk⟩, ha⟩
    · rintro ⟨_, ⟨e, hm, rfl, hk⟩, ha⟩
      exact ⟨_, ⟨e, hm, rfl⟩, hk, ha⟩
  unfold validateExactLayout
  simp only [forM_ok, ensure_ok, bind_ok, layoutEntries_ok, exists_const, Nat.zero_add]
  constructor
  · rintro ⟨hd, hf, _, ⟨ha, rfl⟩, hjs⟩
    have file := fun f hm => (isFile_iff entries expected parsed modes f hm).mp (hf f hm)
    have hserver : serverBinary ∈ fixedFiles := by decide
    refine ⟨⟨?_, fun f hm => (file f hm).1, allowed.mp ha, javascript.mp hjs⟩,
      (file serverBinary hserver).2 rfl⟩
    intro d hm
    exact (isDirectory_iff entries expected parsed modes _).mp (hd d hm)
  · rintro ⟨layout, server⟩
    refine ⟨?_, ?_, _, ⟨allowed.mpr layout.allowed, rfl⟩, javascript.mpr layout.javascript⟩
    · intro d hm
      exact (isDirectory_iff entries expected parsed modes _).mpr (layout.directories d hm)
    · intro f hm
      apply (isFile_iff entries expected parsed modes f hm).mpr
      exact ⟨layout.files f hm, fun _ => server⟩

end Parsed

end HostMonitoring.Release
