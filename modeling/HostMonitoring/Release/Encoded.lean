import HostMonitoring.Framework.JsonRoundTrip
import HostMonitoring.Release.Written

namespace HostMonitoring.Release.Writer

open Framework Framework.Checks Framework.JsonText

/-- The dictionary of an entry with its keys sorted. -/
def sortedEntry : ReleaseEntry → Value
  | .directory path mode =>
    .obj [("kind", .str "directory"), ("mode", .str mode), ("path", .str path)]
  | .file path mode size sha256 =>
    .obj [("kind", .str "file"), ("mode", .str mode), ("path", .str path),
      ("sha256", .str sha256), ("size", .num size.toNat.repr)]

def sortedManifest (revision identityDigest : String) (entries : List ReleaseEntry) : Value :=
  .obj [("application", .str application), ("binary_identity_sha256", .str identityDigest),
    ("entries", .arr (entries.map sortedEntry)), ("manifest_format", .str manifestFormat),
    ("source_revision", .str revision), ("version", .str applicationVersion)]

theorem sortKeys_written (e : ReleaseEntry) : sortKeys (written e) = sortedEntry e := by
  cases e with
  | directory path mode =>
    simp [written, sortedEntry, sortKeys, sortFields, List.insertionSort, List.orderedInsert]
  | file path mode size sha256 =>
    simp [written, sortedEntry, sortKeys, sortFields, List.insertionSort, List.orderedInsert]

theorem sortAll_eq (values : List Value) : sortAll values = values.map sortKeys := by
  induction values with
  | nil => rw [sortAll, List.map_nil]
  | cons v values ih => rw [sortAll, ih, List.map_cons]

theorem sortKeys_manifest (sha : Digest) (revision : String) (line : List UInt8)
    (entries : List ReleaseEntry) :
    sortKeys (manifestValue sha revision line (entries.map written)) =
      sortedManifest revision (encodeHex (sha line).toList) entries := by
  have all : sortAll (entries.map written) = entries.map sortedEntry := by
    rw [sortAll_eq, List.map_map]
    exact List.map_congr_left fun e _ => sortKeys_written e
  simp [manifestValue, sortedManifest, sortKeys, sortFields, List.insertionSort,
    List.orderedInsert, all]

theorem u64_repr (n : UInt64) : u64 (.num n.toNat.repr) = some n := by
  have digits : n.toNat.repr.toList.all Char.isDigit = true := by
    rw [Nat.toList_repr, List.all_eq_true]
    exact fun c hc => Nat.isDigit_of_mem_toDigits (by decide) (by decide) hc
  have value : Nat.ofDigitChars 10 n.toNat.repr.toList 0 = n.toNat := by
    rw [Nat.toList_repr, Nat.ofDigitChars_ten_toDigits]
  have small : n.toNat < 2 ^ 64 := n.toNat_lt
  simp only [u64, digits, value, small, and_self, if_true, UInt64.ofNat_toNat]

theorem entryOf_sorted (e : ReleaseEntry) : entryOf (sortedEntry e) = some e := by
  cases e with
  | directory path mode => simp [sortedEntry, entryOf, variant, strictFields, Json.get?]
  | file path mode size sha256 =>
    simp [sortedEntry, entryOf, variant, strictFields, Json.get?, u64_repr]

/-- The verifier reads the written fields as they are. -/
theorem manifestOf_sorted (revision identityDigest : String) (entries : List ReleaseEntry) :
    manifestOf (sortedManifest revision identityDigest entries) =
      some ⟨manifestFormat, application, applicationVersion, revision, identityDigest, entries⟩ := by
  have all : (entries.map sortedEntry).mapM entryOf = some entries := by
    induction entries with
    | nil => rfl
    | cons e entries ih => simp [entryOf_sorted, ih]
  simp [sortedManifest, manifestOf, strictFields, Json.get?, all]

/-- The strings of an entry. -/
def entryTexts : ReleaseEntry → List String
  | .directory path mode => [path, mode]
  | .file path mode _ sha256 => [path, mode, sha256]

theorem fits_entry (text : String → Prop) (depth : Nat) (e : ReleaseEntry)
    (keys : ∀ s ∈ ["kind", "mode", "path", "sha256", "size", "directory", "file"], text s)
    (h : ∀ s ∈ entryTexts e, text s) : Fits text (depth + 1) (sortedEntry e) := by
  cases e with
  | directory path mode => simp_all [sortedEntry, entryTexts, Fits]
  | file path mode size sha256 =>
    have number : ∃ k : Nat, size.toNat.repr = k.repr := ⟨_, rfl⟩
    simp_all [sortedEntry, entryTexts, Fits]

/-- A byte that a string of ASCII characters holds as it is. -/
def PlainByte (b : UInt8) : Prop :=
  0x20 ≤ b.toNat ∧ b.toNat < 0x80 ∧ b.toNat ≠ 0x22 ∧ b.toNat ≠ 0x5c

theorem plain_of_bytes (s : String) (h : ∀ b ∈ bytes s, PlainByte b) :
    PlainText s.toList ∧ s.toList.length = (bytes s).length := by
  have ascii : Ascii (bytes s) := fun b hb => (h b hb).2.1
  rw [toList_of_ascii s ascii]
  refine ⟨?_, List.length_map _⟩
  intro c hc
  obtain ⟨b, hb, rfl⟩ := List.mem_map.mp hc
  obtain ⟨low, high, mark, solidus⟩ := h b hb
  have number : (Char.ofNat b.toNat).toNat = b.toNat := toNat_ofNat_ascii _ high
  have other (d : Char) (hd : b.toNat ≠ d.toNat) : Char.ofNat b.toNat ≠ d := by
    rintro rfl
    exact hd number.symm
  rw [number]
  exact ⟨low, high, other _ mark, other _ solidus⟩

theorem plainByte_lowerHex (b : UInt8) (h : lowerHex b = true) : PlainByte b := by
  simp only [lowerHex, Bool.or_eq_true, Bool.and_eq_true, decide_eq_true_eq,
    UInt8.le_iff_toNat_le, UInt8.reduceToNat] at h
  unfold PlainByte
  omega

theorem plainByte_portable (b : UInt8) (h : portableByte b = true) : PlainByte b := by
  simp only [portableByte, dot, Bool.or_eq_true, Bool.and_eq_true, decide_eq_true_eq, beq_iff_eq,
    UInt8.le_iff_toNat_le, ← UInt8.toNat_inj, UInt8.reduceToNat] at h
  unfold PlainByte
  omega

theorem mem_joined (relative : RelativePath) (b : UInt8) (h : b ∈ joined relative) :
    b = slash ∨ ∃ name ∈ relative, b ∈ name := by
  induction relative with
  | nil => cases h
  | cons name rest ih =>
    cases rest with
    | nil =>
      rw [joined, List.intercalate_singleton] at h
      exact Or.inr ⟨name, List.mem_cons_self, h⟩
    | cons next rest =>
      rw [joined, List.intercalate_cons_cons, List.mem_append, List.mem_append,
        List.mem_singleton] at h
      rcases h with (h | h) | h
      · exact Or.inr ⟨name, List.mem_cons_self, h⟩
      · exact Or.inl h
      · rcases ih h with h | ⟨n, hn, hb⟩
        · exact Or.inl h
        · exact Or.inr ⟨n, List.mem_cons_of_mem _ hn, hb⟩

theorem plain_pathText (relative : RelativePath) (h : ∀ name ∈ relative, Portable name) :
    PlainText (pathText relative).toList ∧
      (pathText relative).toList.length = (joined relative).length := by
  have text : bytes (pathText relative) = joined relative :=
    bytes_ofAscii _ (ascii_joined relative h)
  rw [← text]
  apply plain_of_bytes
  intro b hb
  rw [text] at hb
  rcases mem_joined relative b hb with rfl | ⟨name, hn, hb⟩
  · unfold PlainByte
    decide
  · exact plainByte_portable b ((h name hn).2.2.2 b hb)

/-- The longest path text of the release layout, where names are at most 255 bytes. -/
def longestPath : Nat := 266

theorem length_of_allowed (path : RelativePath) (kind : Kind) (h : Allowed path kind)
    (short : ∀ name ∈ path, name.length ≤ 255) : (joined path).length ≤ longestPath := by
  have fixed : ∀ p ∈ directories.map relativePath ++ fixedFiles.map relativePath,
      (joined p).length ≤ longestPath := by
    decide +kernel
  have asset (ext : OsString) (ha : IsAsset path ext) : (joined path).length ≤ longestPath := by
    obtain ⟨name, rfl, _⟩ := ha
    have hn : name.length ≤ 255 := short name (by simp)
    have two : assetsPath = [bytes "web", bytes "assets"] := by decide +kernel
    have lengths : (bytes "web").length = 3 ∧ (bytes "assets").length = 6 := by decide +kernel
    rw [two, joined]
    simp [List.intercalate_cons_cons, lengths, longestPath]
    omega
  cases kind with
  | directory => exact fixed path (List.mem_append_left _ h)
  | file =>
    rcases h with h | ⟨ext, _, ha⟩
    · exact fixed path (List.mem_append_right _ h)
    · exact asset ext ha

theorem plain_digest (s : String) (h : validateSha256 s = .ok ()) :
    PlainText s.toList ∧ s.toList.length = 64 := by
  rw [validateSha256, ensure_ok, List.all_eq_true] at h
  obtain ⟨plain, length⟩ := plain_of_bytes s fun b hb => plainByte_lowerHex b (h.2 b hb)
  exact ⟨plain, length.trans h.1⟩

theorem plain_revision (s : String) (h : isFullGitRevision s = true) :
    PlainText s.toList ∧ s.toList.length = 40 := by
  rw [isFullGitRevision, Bool.and_eq_true, beq_iff_eq, List.all_eq_true] at h
  obtain ⟨plain, length⟩ := plain_of_bytes s fun b hb => plainByte_lowerHex b (h.2 b hb)
  exact ⟨plain, length.trans h.1⟩

theorem plain_mode (e : ReleaseEntry) :
    PlainText (requiredMode e).toList ∧ (requiredMode e).toList.length = 4 := by
  have executable : PlainText "0555".toList ∧ "0555".toList.length = 4 := by
    decide
  have readable : PlainText "0444".toList ∧ "0444".toList.length = 4 := by
    decide
  cases e with
  | directory path mode => exact executable
  | file path mode size sha256 =>
    rw [requiredMode]
    split_ifs
    · exact executable
    · exact readable

/-- The texts of a written entry. -/
structure PlainEntry (e : ReleaseEntry) : Prop where
  texts : ∀ s ∈ entryTexts e, PlainText s.toList
  path : e.path.toList.length ≤ longestPath
  mode : e.mode.toList.length = 4
  size : sizeOfEntry e ≤ maxFileBytes
  digest : DigestText e

theorem length_size (n : Nat) (h : n ≤ maxFileBytes) : n.repr.toList.length ≤ 9 := by
  rw [Nat.toList_repr, Nat.length_toDigits_le_iff (by decide) (by decide)]
  unfold maxFileBytes at h
  omega

/-- A written entry takes at most this many bytes. -/
def longestEntry : Nat := 400

theorem length_entry (e : ReleaseEntry) (plain : PlainEntry e) :
    (render (sortedEntry e)).length ≤ longestEntry := by
  obtain ⟨texts, path, mode, size, digest⟩ := plain
  have keys : (quote "kind").length = 6 ∧ (quote "mode").length = 6 ∧ (quote "path").length = 6 ∧
      (quote "sha256").length = 8 ∧ (quote "size").length = 6 ∧ (quote "directory").length = 11 ∧
      (quote "file").length = 6 := by
    decide
  unfold longestPath at path
  cases e with
  | directory p m =>
    have hp := length_quote p (texts p (by simp [entryTexts]))
    have hm := length_quote m (texts m (by simp [entryTexts]))
    simp only [ReleaseEntry.path, ReleaseEntry.mode] at path mode
    simp only [sortedEntry, render, renderFields, between, List.intercalate_cons_cons,
      List.intercalate_singleton, List.length_cons, List.length_append, List.length_nil, keys, hp,
      hm, longestEntry]
    omega
  | file p m n d =>
    have hp := length_quote p (texts p (by simp [entryTexts]))
    have hm := length_quote m (texts m (by simp [entryTexts]))
    have hd := length_quote d (texts d (by simp [entryTexts]))
    have digits := length_size n.toNat size
    have sixtyFour := (plain_digest d digest).2
    simp only [ReleaseEntry.path, ReleaseEntry.mode] at path mode
    simp only [sortedEntry, render, renderFields, between, List.intercalate_cons_cons,
      List.intercalate_singleton, List.length_cons, List.length_append, List.length_nil, keys, hp,
      hm, hd, longestEntry]
    omega

/-- The text of a manifest of at most 10,000 entries fits the verifier's limit. -/
theorem length_manifest (revision identityDigest : String) (entries : List ReleaseEntry)
    (plain : ∀ e ∈ entries, PlainEntry e) (count : entries.length ≤ maxEntries)
    (hr : isFullGitRevision revision = true) (hd : validateSha256 identityDigest = .ok ()) :
    (render (sortedManifest revision identityDigest entries)).length + 1 ≤ maxManifestBytes := by
  obtain ⟨plainDigest, sixtyFour⟩ := plain_digest identityDigest hd
  have keys : (quote "application").length = 13 ∧ (quote "binary_identity_sha256").length = 24 ∧
      (quote "entries").length = 9 ∧ (quote "manifest_format").length = 17 ∧
      (quote "source_revision").length = 17 ∧ (quote "version").length = 9 ∧
      (quote application).length = 17 ∧ (quote manifestFormat).length = 26 ∧
      (quote applicationVersion).length = 8 := by
    decide
  have revisionLength : (quote revision).length = 42 := by
    obtain ⟨plainRevision, forty⟩ := plain_revision revision hr
    rw [length_quote revision plainRevision, forty]
  have digestLength := length_quote identityDigest plainDigest
  have all : (render (.arr (entries.map sortedEntry))).length ≤
      entries.length * (longestEntry + 1) + 2 := by
    rw [render, renderAll_eq, List.map_map]
    have texts : ∀ t ∈ entries.map (render ∘ sortedEntry), t.length ≤ longestEntry := by
      intro t ht
      obtain ⟨e, he, rfl⟩ := List.mem_map.mp ht
      exact length_entry e (plain e he)
    have bound := length_between_le beginArray endArray _ longestEntry texts
    rwa [List.length_map] at bound
  have few : entries.length * (longestEntry + 1) ≤ maxEntries * (longestEntry + 1) :=
    Nat.mul_le_mul_right _ count
  unfold maxEntries longestEntry at few
  unfold longestEntry at all
  generalize hv : Json.arr (entries.map sortedEntry) = v at all
  simp only [sortedManifest, hv, render, renderFields, between, List.intercalate_cons_cons,
    List.intercalate_singleton, List.length_cons, List.length_append, List.length_nil, keys,
    revisionLength, digestLength, sixtyFour, maxManifestBytes]
  omega

theorem fits_manifest (depth : Nat) (revision identityDigest : String)
    (entries : List ReleaseEntry) (plain : ∀ e ∈ entries, PlainEntry e)
    (hr : isFullGitRevision revision = true) (hd : validateSha256 identityDigest = .ok ()) :
    Fits (fun s => AsciiText s.toList) (depth + 3)
      (sortedManifest revision identityDigest entries) := by
  have literals : ∀ s ∈ ["application", "binary_identity_sha256", "entries", "manifest_format",
      "source_revision", "version", application, manifestFormat, applicationVersion],
      AsciiText s.toList := by
    decide
  have keys : ∀ s ∈ ["kind", "mode", "path", "sha256", "size", "directory", "file"],
      AsciiText s.toList := by
    decide
  have revisionText : AsciiText revision.toList := (plain_revision revision hr).1.ascii
  have digestText : AsciiText identityDigest.toList := (plain_digest identityDigest hd).1.ascii
  have each : ∀ e ∈ entries, Fits (fun s => AsciiText s.toList) (depth + 1) (sortedEntry e) := by
    intro e he
    exact fits_entry _ depth e keys fun s hs => ((plain e he).texts s hs).ascii
  have elems : ∀ v ∈ entries.map sortedEntry, Fits (fun s => AsciiText s.toList) (depth + 1) v := by
    intro v hv
    obtain ⟨e, he, rfl⟩ := List.mem_map.mp hv
    exact each e he
  simp only [sortedManifest, Fits, List.forall_mem_cons, List.not_mem_nil, false_implies,
    implies_true, and_true]
  exact ⟨⟨literals _ (by simp), literals _ (by simp)⟩, ⟨literals _ (by simp), digestText⟩,
    ⟨literals _ (by simp), elems⟩, ⟨literals _ (by simp), literals _ (by simp)⟩,
    ⟨literals _ (by simp), revisionText⟩, literals _ (by simp), literals _ (by simp)⟩

/-- What the verifier reads is what was written. -/
theorem parseManifest_written (revision identityDigest : String) (entries : List ReleaseEntry)
    (plain : ∀ e ∈ entries, PlainEntry e) (hr : isFullGitRevision revision = true)
    (hd : validateSha256 identityDigest = .ok ()) :
    parseManifest (bytes (String.ofList
        (render (sortedManifest revision identityDigest entries))) ++ [newline]) =
      some ⟨manifestFormat, application, applicationVersion, revision, identityDigest, entries⟩ := by
  have fits := fits_manifest 124 revision identityDigest entries plain hr hd
  have ascii : AsciiText (render (sortedManifest revision identityDigest entries) ++ [Char.ofNat 0x0a]) :=
    .append _ _ (ascii_render _ _ fits) (.cons _ _ (by decide) (List.forall_mem_nil _))
  have line : bytes (String.ofList (render (sortedManifest revision identityDigest entries))) ++
      [newline] = bytes (String.ofList
        (render (sortedManifest revision identityDigest entries) ++ [Char.ofNat 0x0a])) := by
    rw [bytes_ofList _ ascii, bytes_ofList _ (ascii_render _ _ fits), List.map_append]
    rfl
  have parsed := parse_render _ serdeDepth (sortedManifest revision identityDigest entries) fits
    [Char.ofNat 0x0a] (List.forall_mem_singleton.mpr (by decide))
  rw [parseManifest, line, utf8_bytes _ ascii, Option.bind_some, parsed, Option.bind_some,
    manifestOf_sorted]

end HostMonitoring.Release.Writer
