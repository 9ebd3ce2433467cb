import HostMonitoring.Release.Writer
import HostMonitoring.Release.ExactTree

namespace HostMonitoring.Release.Writer

open Framework Framework.Checks

theorem portablePoint_toNat (b : UInt8) : portablePoint b.toNat = portableByte b := by
  have le (x y : UInt8) : decide (x ≤ y) = decide (x.toNat ≤ y.toNat) := by
    rw [decide_eq_decide]
    exact UInt8.le_iff_toNat_le
  have eq (x y : UInt8) : (x == y) = (x.toNat == y.toNat) := by
    rw [Bool.eq_iff_iff, beq_iff_eq, beq_iff_eq, UInt8.toNat_inj]
  simp [portablePoint, portableByte, dot, le, eq]

/-- A file name that passes the pattern is ASCII and portable. -/
theorem portable_of_fullmatch (name : OsString) (special : fsdecode name ∉ [[], [0x2e], [0x2e, 0x2e]])
    (h : fullmatch (fsdecode name) = true) :
    Portable name ∧ fsdecode name = name.map UInt8.toNat := by
  unfold fullmatch at h
  rw [decide_eq_true_eq, List.all_eq_true] at h
  obtain ⟨ne, points⟩ := h
  have decoded : Ascii name ∧ fsdecode name = name.map UInt8.toNat := by
    cases hd : decodeFrom (fun b => some (0xdc00 + b.toNat)) 0 name with
    | none => simp [fsdecode, hd] at ne
    | some ps =>
      have same : fsdecode name = ps := by simp [fsdecode, hd]
      rw [same] at points ⊢
      refine ascii_of_decodeFrom _ name ps ?_ hd ?_
      · intro b point hp
        simp only [Option.some.injEq] at hp
        omega
      · intro p hp
        have hpp := points p hp
        simp only [portablePoint, Bool.or_eq_true, Bool.and_eq_true, decide_eq_true_eq,
          beq_iff_eq] at hpp
        omega
  obtain ⟨_, map⟩ := decoded
  rw [map] at special points
  refine ⟨⟨?_, ?_, ?_, ?_⟩, map⟩
  · rintro rfl
    simp at special
  · rintro rfl
    simp [dot] at special
  · rintro rfl
    simp [dot] at special
  · intro b hb
    rw [← portablePoint_toNat]
    exact points _ (List.mem_map_of_mem hb)

/-- A relative path as one text. -/
def joined (relative : RelativePath) : OsString := [slash].intercalate relative

theorem asPosix_eq (relative : RelativePath)
    (h : ∀ name ∈ relative, fsdecode name = name.map UInt8.toNat) :
    asPosix relative = (joined relative).map UInt8.toNat := by
  induction relative with
  | nil => rfl
  | cons name rest ih =>
    have hn := h name List.mem_cons_self
    have hr := ih fun n hm => h n (List.mem_cons_of_mem name hm)
    cases rest with
    | nil => simpa [asPosix, joined] using hn
    | cons next rest =>
      unfold asPosix joined at hr ⊢
      rw [List.map_cons, List.map_cons, List.intercalate_cons_cons, ← List.map_cons, hr, hn,
        List.intercalate_cons_cons, List.map_append, List.map_append]
      rfl

theorem slash_not_portable (name : OsString) (h : Portable name) : slash ∉ name := by
  intro hm
  have hp := h.2.2.2 slash hm
  revert hp
  decide

theorem component?_portable (name : OsString) (h : Portable name) :
    component? name = some (.normal name) := by
  obtain ⟨ne, one, two, _⟩ := h
  rw [component?, if_neg (not_or.mpr ⟨ne, one⟩), if_neg two]

theorem components_joined (relative : RelativePath) (ne : relative ≠ [])
    (h : ∀ name ∈ relative, Portable name) :
    components (joined relative) = relative.map .normal := by
  have split : (joined relative).splitOn slash = relative := by
    apply List.splitOn_intercalate
    · exact fun name hm => slash_not_portable name (h name hm)
    · exact ne
  have normal : relative.filterMap component? = relative.map .normal := by
    rw [← List.filterMap_eq_map]
    apply List.filterMap_congr
    intro name hm
    exact component?_portable name (h name hm)
  unfold components
  rw [split]
  cases relative with
  | nil => exact absurd rfl ne
  | cons first rest =>
    obtain ⟨hne, hdot, _⟩ := h first List.mem_cons_self
    cases first with
    | nil => exact absurd rfl hne
    | cons b bs =>
      simp only [if_neg hdot]
      exact normal

theorem ascii_joined (relative : RelativePath) (h : ∀ name ∈ relative, Portable name) :
    Ascii (joined relative) := by
  induction relative with
  | nil => exact List.forall_mem_nil _
  | cons name rest ih =>
    have hn : Ascii name := portable_ascii name (h name List.mem_cons_self)
    have hr := ih fun n hm => h n (List.mem_cons_of_mem name hm)
    cases rest with
    | nil => simpa [joined] using hn
    | cons next rest =>
      unfold joined at hr ⊢
      rw [List.intercalate_cons_cons]
      intro b hb
      simp only [List.mem_append, List.mem_singleton] at hb
      rcases hb with (hb | rfl) | hb
      · exact hn b hb
      · decide
      · exact hr b hb

def pathText (relative : RelativePath) : String := ofAscii (joined relative)

theorem portableRelative_ok (relative : RelativePath) (value : String)
    (h : portableRelative relative = .ok value) :
    (relative ≠ [] ∧ ∀ name ∈ relative, Portable name) ∧ (joined relative).length ≤ 1024 ∧
      value = pathText relative ∧ asPosix relative = (joined relative).map UInt8.toNat := by
  unfold portableRelative at h
  rw [check_bind_ok, ensure_ok, check_bind_ok, ensure_ok, pure_ok] at h
  obtain ⟨⟨ne, parts⟩, short, rfl⟩ := h
  have each : ∀ name ∈ relative, Portable name ∧ fsdecode name = name.map UInt8.toNat := by
    intro name hm
    obtain ⟨special, full⟩ := parts _ (List.mem_map_of_mem hm)
    exact portable_of_fullmatch name special full
  have posix := asPosix_eq relative fun name hm => (each name hm).2
  rw [posix, List.length_map] at short
  refine ⟨⟨by simpa using ne, fun name hm => (each name hm).1⟩, short, ?_, posix⟩
  rw [posix, ofPoints, pathText, ofAscii, List.map_map]
  rfl

/-- The dictionary of an entry. -/
def written : ReleaseEntry → Value
  | .directory path mode =>
    .obj [("kind", .str "directory"), ("path", .str path), ("mode", .str mode)]
  | .file path mode size sha256 =>
    .obj [("kind", .str "file"), ("path", .str path), ("mode", .str mode),
      ("size", .num size.toNat.repr), ("sha256", .str sha256)]

/-- An entry was written for a node. -/
structure Wrote (sha : Digest) (item : RelativePath × Node) (e : ReleaseEntry) : Prop where
  nonempty : item.1 ≠ []
  portable : ∀ name ∈ item.1, Portable name
  short : (joined item.1).length ≤ 1024
  posix : asPosix item.1 = (joined item.1).map UInt8.toNat
  path : e.path = pathText item.1
  describes : Describes sha e item.2
  mode : e.mode = requiredMode e
  size : sizeOfEntry e ≤ maxFileBytes

theorem append_ok (p p' : Progress) (entry : Value) (total : Nat)
    (h : p.append entry total = .ok p') :
    p' = ⟨p.entries ++ [entry], total⟩ ∧ p'.entries.length ≤ maxEntries := by
  unfold Progress.append at h
  rw [check_bind_ok, ensure_ok, pure_ok] at h
  obtain ⟨hl, rfl⟩ := h
  exact ⟨rfl, hl⟩

theorem octal_0555 : octal 0o555 = "0555" := by decide +kernel

theorem octal_0444 : octal 0o444 = "0444" := by decide +kernel

theorem addPath_ok (sha : Digest) (p p' : Progress) (item : RelativePath × Node)
    (room : p.totalBytes ≤ maxReleaseBytes) (h : addPath sha p item = .ok p') :
    ∃ e, Wrote sha item e ∧ p' = ⟨p.entries ++ [written e], p.totalBytes + fileBytes item.2⟩ ∧
      p'.entries.length ≤ maxEntries ∧ p'.totalBytes ≤ maxReleaseBytes := by
  obtain ⟨path, n⟩ := item
  unfold addPath at h
  rw [bind_ok] at h
  obtain ⟨relative, hr, h⟩ := h
  obtain ⟨⟨ne, portable⟩, short, rfl, posix⟩ := portableRelative_ok path relative hr
  rw [check_bind_ok, ensure_ok] at h
  obtain ⟨_, h⟩ := h
  cases n with
  | symlink => cases h
  | special => cases h
  | directory mode children =>
    rw [check_bind_ok, ensure_ok] at h
    obtain ⟨hm, h⟩ := h
    obtain ⟨rfl, count⟩ := append_ok p p' _ _ h
    refine ⟨.directory (pathText path) "0555", ⟨ne, portable, short, posix, rfl, ?_, rfl, ?_⟩, rfl,
      count, room⟩
    · change parseMode "0555" = .ok (permissionMode mode)
      rw [parseMode_0555, hm]
    · exact Nat.zero_le _
  | file mode nlink content =>
    simp only [check_bind_ok, ensure_ok] at h
    obtain ⟨hm, rfl, small, total, h⟩ := h
    obtain ⟨rfl, count⟩ := append_ok p p' _ _ h
    have size : (UInt64.ofNat content.length).toNat = content.length := by
      unfold maxFileBytes at small
      simp
      omega
    have required : octal (permissionMode mode) =
          (if pathText path = serverBinary then "0555" else "0444") ∧
        parseMode (octal (permissionMode mode)) = .ok (permissionMode mode) := by
      rw [hm]
      split_ifs
      · exact ⟨octal_0555, octal_0555 ▸ parseMode_0555⟩
      · exact ⟨octal_0444, octal_0444 ▸ parseMode_0444⟩
    refine ⟨.file (pathText path) (octal (permissionMode mode)) (UInt64.ofNat content.length)
      (encodeHex (sha content).toList), ⟨ne, portable, short, posix, rfl, ?_, required.1, ?_⟩, ?_,
      count, total⟩
    · exact ⟨required.2, rfl, size.symm, rfl⟩
    · rw [sizeOfEntry, size]
      exact small
    · rw [written, size]
      rfl

/-- The loop writes an entry for each node of the traversal, in its order. -/
theorem addPaths_ok (sha : Digest) (items : List (RelativePath × Node)) (p p' : Progress)
    (room : p.entries.length ≤ maxEntries ∧ p.totalBytes ≤ maxReleaseBytes)
    (h : items.foldlM (addPath sha) p = .ok p') :
    ∃ es, items.Forall₂ (Wrote sha) es ∧
      p' = ⟨p.entries ++ es.map written, p.totalBytes + totalBytes items⟩ ∧
      p'.entries.length ≤ maxEntries ∧ p'.totalBytes ≤ maxReleaseBytes := by
  induction items generalizing p with
  | nil =>
    rw [List.foldlM_nil, pure_ok] at h
    rw [h]
    exact ⟨[], .nil, by simp [totalBytes], room⟩
  | cons item items ih =>
    rw [List.foldlM_cons, bind_ok] at h
    obtain ⟨p₁, hp, h⟩ := h
    obtain ⟨e, wrote, rfl, limits⟩ := addPath_ok sha p p₁ item room.2 hp
    obtain ⟨es, all, rfl, rest⟩ := ih _ limits h
    refine ⟨e :: es, .cons wrote all, ?_, rest⟩
    simp [totalBytes, Nat.add_assoc]

end HostMonitoring.Release.Writer
