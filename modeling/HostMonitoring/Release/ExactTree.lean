import HostMonitoring.Release.Layout

namespace HostMonitoring.Release

open Framework Framework.Checks

/-- The layout a release may list, under the spelling and with the modes it may have there. -/
structure AllowedLayout (entries : List ReleaseEntry) : Prop where
  spelled : ∀ e ∈ entries, Spelled e.path
  layout : ExactLayout (kinds entries)
  modes : ∀ e ∈ entries, e.mode = requiredMode e
  /-- The path of the executable decides its mode, so it has one spelling only. -/
  executable : ∀ e ∈ entries, e.names = relativePath serverBinary → e.path = serverBinary

/-- An entry lists a node under its path. -/
def Lists (sha : Digest) (e : ReleaseEntry) (item : RelativePath × Node) : Prop :=
  e.names = item.1 ∧ Describes sha e item.2

/-- Some nodes are precisely what a list of entries says. -/
structure ExactRelease (sha : Digest) (entries : List ReleaseEntry)
    (nodes : List (RelativePath × Node)) : Prop where
  exact : ∃ order, order.Perm nodes ∧ entries.Forall₂ (Lists sha) order
  sorted : Sorted entries
  distinct : (entries.map ReleaseEntry.names).Nodup
  allowed : AllowedLayout entries
  entryCount : entries.length ≤ maxEntries
  fileSizes : ∀ e ∈ entries, sizeOfEntry e ≤ maxFileBytes
  totalSize : totalBytes nodes ≤ maxReleaseBytes

/-- What a walk reports of some nodes. -/
def reported (nodes : List (RelativePath × Node)) : Counters :=
  ⟨nodes.length, countFiles nodes, totalBytes nodes⟩

theorem totalBytes_perm (xs ys : List (RelativePath × Node)) (h : xs.Perm ys) :
    totalBytes xs = totalBytes ys := (h.map _).sum_nat

theorem countFiles_perm (xs ys : List (RelativePath × Node)) (h : xs.Perm ys) :
    countFiles xs = countFiles ys := h.countP_eq _

theorem walk_ok (sha : Digest) (expected : Expected) (mode : Nat)
    (children : List (OsString × Node)) (w : Walk) :
    validateDirectory sha expected (.directory mode children) [] .start = .ok w ↔
      (∀ item ∈ releasedNodes children, Portable (lastName item.1) ∧ Found sha expected item) ∧
      ((releasedNodes children).length ≤ maxEntries ∧
        totalBytes (releasedNodes children) ≤ maxReleaseBytes) ∧
      (paths (releasedNodes children)).Nodup ∧ w = Walk.start.after (metNodes children) := by
  have perm := metNodes_perm children
  have listed : ∀ item ∈ metNodes children, Listed item.1 := fun item h =>
    releasedNodes_listed children item (perm.mem_iff.mp h)
  have room : Walk.start.counters.entries ≤ maxEntries ∧
      Walk.start.counters.bytes ≤ maxReleaseBytes := ⟨Nat.zero_le _, Nat.zero_le _⟩
  have nodup := (perm.map Prod.fst).nodup_iff
  rw [validateDirectory_eq, meets_ok sha expected (metNodes children) .start w listed room,
    perm.length_eq, totalBytes_perm _ _ perm]
  simp only [perm.mem_iff, Walk.start, Nat.zero_add, List.not_mem_nil, not_false_eq_true,
    implies_true, and_true]
  rw [show (paths (metNodes children)).Nodup ↔ _ from nodup]
  rfl

theorem verified_counters (children : List (OsString × Node)) :
    (Walk.start.after (metNodes children)).counters = reported (releasedNodes children) := by
  have perm := metNodes_perm children
  simp [Walk.after, Walk.start, reported, perm.length_eq, totalBytes_perm _ _ perm,
    countFiles_perm _ _ perm]

theorem verified_seen (children : List (OsString × Node)) :
    (Walk.start.after (metNodes children)).seen.length = (releasedNodes children).length := by
  simp [Walk.after, Walk.start, paths, (metNodes_perm children).length_eq]

theorem size_parsed (entries : List ReleaseEntry) (expected : Expected)
    (h : expected.entries = (entries.map keyed).reverse) : expected.size = entries.length := by
  simp [AssocMap.size, h]

def hexByte (n : Nat) : UInt8 := UInt8.ofNat (hexDigit n).toNat

theorem utf8_hexDigit : ∀ n < 16, String.utf8EncodeChar (hexDigit n) = [hexByte n] ∧
    lowerHex (hexByte n) = true := by
  decide

/-- A digest is written with two hexadecimal digits a byte. -/
theorem bytes_encodeHex (digest : List UInt8) :
    bytes (encodeHex digest) =
      digest.flatMap fun b => [hexByte (b.toNat / 16), hexByte (b.toNat % 16)] := by
  unfold bytes encodeHex
  rw [String.toList_ofList]
  induction digest with
  | nil => rfl
  | cons b digest ih =>
    have hb : b.toNat < 256 := b.toNat_lt
    have high := (utf8_hexDigit (b.toNat / 16) (by omega)).1
    have low := (utf8_hexDigit (b.toNat % 16) (by omega)).1
    rw [List.flatMap_cons, List.flatMap_append, ih]
    simp [high, low]

theorem digestText_encodeHex (digest : Vector UInt8 32) :
    validateSha256 (encodeHex digest.toList) = .ok () := by
  rw [validateSha256, ensure_ok, List.all_eq_true, bytes_encodeHex]
  constructor
  · simp [List.length_flatMap]
  · intro b hb
    obtain ⟨d, _, hb⟩ := List.mem_flatMap.mp hb
    have hd : d.toNat < 256 := d.toNat_lt
    have high := (utf8_hexDigit (d.toNat / 16) (by omega)).2
    have low := (utf8_hexDigit (d.toNat % 16) (by omega)).2
    rcases List.mem_pair.mp hb with rfl | rfl
    · exact high
    · exact low

theorem digestText_of_describes (sha : Digest) (e : ReleaseEntry) (n : Node)
    (h : Describes sha e n) : DigestText e := by
  cases e with
  | directory => trivial
  | file path mode size sha256 =>
    cases n with
    | file m nlink content =>
      obtain ⟨_, _, _, hd⟩ := h
      rw [DigestText, ← hd]
      exact digestText_encodeHex _
    | directory => cases h
    | symlink => cases h
    | special => cases h

theorem fileBytes_of_describes (sha : Digest) (e : ReleaseEntry) (n : Node)
    (h : Describes sha e n) : fileBytes n = sizeOfEntry e := by
  cases e with
  | directory path mode =>
    cases n with
    | directory => rfl
    | file => cases h
    | symlink => cases h
    | special => cases h
  | file path mode size sha256 =>
    cases n with
    | file m nlink content => exact h.2.2.1
    | directory => cases h
    | symlink => cases h
    | special => cases h

theorem manifest_not_allowed (kind : Kind) : ¬Allowed manifestPath kind := by
  cases kind with
  | directory =>
    change manifestPath ∉ directories.map relativePath
    decide +kernel
  | file =>
    rintro (h | ⟨ext, _, name, h, _⟩)
    · revert h
      decide +kernel
    · have hl := congrArg List.length h
      have one : manifestPath.length = 1 := by decide +kernel
      have two : assetsPath.length = 2 := by decide +kernel
      rw [List.length_append, one, two, List.length_singleton] at hl
      omega

/-- What the checks on the entries and on the layout amount to, the digests apart. -/
theorem entries_ok_iff (entries : List ReleaseEntry) (expected : Expected)
    (parsed : expected.entries = (entries.map keyed).reverse) :
    ((∀ e ∈ entries, Proper e) ∧ validateExactLayout expected = .ok ()) ↔
      AllowedLayout entries ∧ (∀ e ∈ entries, sizeOfEntry e ≤ maxFileBytes) ∧
        ∀ e ∈ entries, DigestText e := by
  constructor
  · rintro ⟨proper, layout⟩
    have modes : ∀ e ∈ entries, e.mode = requiredMode e := fun e he => (proper e he).mode
    obtain ⟨exact, executable⟩ := (validateExactLayout_ok entries expected parsed modes).mp layout
    exact ⟨⟨fun e he => (proper e he).spelled, exact, modes, executable⟩,
      fun e he => (proper e he).size, fun e he => (proper e he).digest⟩
  · rintro ⟨allowed, sizes, digests⟩
    refine ⟨?_, (validateExactLayout_ok entries expected parsed allowed.modes).mpr
      ⟨allowed.layout, allowed.executable⟩⟩
    intro e he
    refine ⟨allowed.spelled e he, ?_, allowed.modes e he, sizes e he, digests e he⟩
    intro hp
    have hm : (manifestPath, e.kind) ∈ kinds entries := by
      rw [mem_kinds]
      exact ⟨e, he, by rw [ReleaseEntry.names, hp]; rfl, rfl⟩
    exact manifest_not_allowed e.kind (allowed.layout.allowed _ hm)

theorem lists_names (sha : Digest) (e : ReleaseEntry) (item : RelativePath × Node)
    (h : Lists sha e item) : e.names = item.1 := h.1

/-- What is verified is exactly what the manifest lists. -/
theorem exact_of_verified (sha : Digest) (entries : List ReleaseEntry) (mode : Nat)
    (children : List (OsString × Node)) (counters : Counters)
    (h : verifyEntries sha entries (.directory mode children) = .ok counters) :
    ExactRelease sha entries (releasedNodes children) ∧
      counters = reported (releasedNodes children) := by
  unfold verifyEntries at h
  simp only [bind_ok, ensure_ok, pure_ok, exists_const, parseEntries_ok, walk_ok] at h
  obtain ⟨expected, ⟨⟨proper, sorted, distinct⟩, parsed⟩, ⟨⟩, layout, _,
    ⟨found, ⟨count, total⟩, nodup, rfl⟩, seen, rfl⟩ := h
  obtain ⟨allowed, sizes, _⟩ := (entries_ok_iff entries expected parsed).mp ⟨proper, layout⟩
  rw [verified_seen, size_parsed entries expected parsed] at seen
  have listed : ∀ item ∈ releasedNodes children, ∃ e ∈ entries, Lists sha e item := by
    intro item hi
    obtain ⟨e, he, hd⟩ := (found item hi).2.1
    obtain ⟨hm, hn⟩ := (get?_parsed entries expected parsed _ e).mp he
    exact ⟨e, hm, hn, hd⟩
  have exact := (matched_iff (Lists sha) ReleaseEntry.names Prod.fst (lists_names sha) entries
    (releasedNodes children) distinct).mpr ⟨listed, nodup, seen⟩
  exact ⟨⟨exact, sorted, distinct, allowed, seen ▸ count, sizes, total⟩,
    verified_counters children⟩

/-- What the manifest lists exactly is verified. -/
theorem verified_of_exact (sha : Digest) (entries : List ReleaseEntry) (mode : Nat)
    (children : List (OsString × Node))
    (release : ExactRelease sha entries (releasedNodes children)) :
    verifyEntries sha entries (.directory mode children) = .ok (reported (releasedNodes children)) := by
  unfold verifyEntries
  simp only [bind_ok, ensure_ok, pure_ok, exists_const, parseEntries_ok, walk_ok]
  obtain ⟨listed, nodup, length⟩ := (matched_iff (Lists sha) ReleaseEntry.names Prod.fst (lists_names sha)
    entries (releasedNodes children) release.distinct).mp release.exact
  have unkeyed : ((entries.map keyed).reverse.map Prod.fst).Nodup := by
    simpa [keyed, Function.comp_def] using release.distinct
  let expected : Expected := ⟨(entries.map keyed).reverse, unkeyed⟩
  have digests : ∀ e ∈ entries, DigestText e := by
    obtain ⟨order, _, matched⟩ := release.exact
    intro e he
    obtain ⟨item, _, hl⟩ := exists_of_forall₂ _ order entries matched.flip e he
    exact digestText_of_describes sha e item.2 hl.2
  obtain ⟨proper, layout⟩ := (entries_ok_iff entries expected rfl).mpr
    ⟨release.allowed, release.fileSizes, digests⟩
  have found : ∀ item ∈ releasedNodes children,
      Portable (lastName item.1) ∧ Found sha expected item := by
    intro item hi
    obtain ⟨e, hm, hn, hd⟩ := listed item hi
    obtain ⟨_, parent, name, hp⟩ := releasedNodes_listed children item hi
    have last : lastName item.1 ∈ e.names := by
      rw [hn, hp]
      simp [lastName]
    have small : fileBytes item.2 ≤ maxFileBytes := by
      rw [fileBytes_of_describes sha e item.2 hd]
      exact release.fileSizes e hm
    exact ⟨(release.allowed.spelled e hm).portable _ last,
      ⟨e, (get?_parsed entries expected rfl _ e).mpr ⟨hm, hn⟩, hd⟩, small⟩
  refine ⟨expected, ⟨⟨proper, release.sorted, release.distinct⟩, rfl⟩, (), layout, _,
    ⟨found, ⟨length ▸ release.entryCount, release.totalSize⟩, nodup, rfl⟩, ?_, ?_⟩
  · rw [verified_seen, size_parsed entries expected rfl, length]
  · exact (verified_counters children).symm

/-- A release is verified exactly when the nodes other than its manifest are what the
manifest lists, in the allowed layout and within the limits; what is reported is theirs. -/
theorem release_verified_iff (sha : Digest) (entries : List ReleaseEntry) (mode : Nat)
    (children : List (OsString × Node)) (counters : Counters) :
    verifyEntries sha entries (.directory mode children) = .ok counters ↔
      ExactRelease sha entries (releasedNodes children) ∧
        counters = reported (releasedNodes children) := by
  constructor
  · exact exact_of_verified sha entries mode children counters
  · rintro ⟨release, rfl⟩
    exact verified_of_exact sha entries mode children release

end HostMonitoring.Release
