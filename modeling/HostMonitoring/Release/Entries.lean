import HostMonitoring.Release.Walk
import Mathlib.Data.List.Induction

namespace HostMonitoring.Release

open Framework Framework.Checks

theorem names_of_all (cs : List Component) (h : ∀ c ∈ cs, c.name?.isSome) :
    cs = (cs.filterMap Component.name?).map .normal := by
  induction cs with
  | nil => rfl
  | cons c cs ih =>
    have hc := h c List.mem_cons_self
    have hcs := ih fun d hd => h d (List.mem_cons_of_mem c hd)
    cases c with
    | normal name => rw [List.filterMap_cons, Component.name?, List.map_cons, ← hcs]
    | rootDir => simp [Component.name?] at hc
    | curDir => simp [Component.name?] at hc
    | parentDir => simp [Component.name?] at hc

/-- The text of a relative path of portable names. -/
structure Spelled (path : String) : Prop where
  nonempty : bytes path ≠ []
  short : (bytes path).length ≤ 1024
  relative : (bytes path).head? ≠ some slash
  names : components (bytes path) = (relativePath path).map .normal
  portable : ∀ name ∈ relativePath path, Portable name

theorem validatedRelativePath_ok (value : String) (path : PathBuf) :
    validatedRelativePath value = .ok path ↔ Spelled value ∧ path = ⟨bytes value⟩ := by
  unfold validatedRelativePath
  simp only [ensure_ok, forM_ok, bind_ok, toStr_ok, validateName, pure_ok, exists_const]
  constructor
  · rintro ⟨⟨hn, hs⟩, hr, hc, hp, _, rfl⟩
    have portable : ∀ name ∈ relativePath value, Portable name := by
      intro name h
      obtain ⟨_, ⟨_, rfl⟩, hp⟩ := hp name h
      exact hp
    exact ⟨⟨hn, hs, by simpa [PathBuf.isAbsolute] using hr, names_of_all _ hc, portable⟩, rfl⟩
  · rintro ⟨h, rfl⟩
    refine ⟨⟨h.nonempty, h.short⟩, by simpa [PathBuf.isAbsolute] using h.relative, ?_, ?_, trivial, rfl⟩
    · intro c hc
      change c ∈ components (bytes value) at hc
      rw [h.names] at hc
      obtain ⟨name, _, rfl⟩ := List.mem_map.mp hc
      rfl
    · intro name hname
      have hp : Portable name := h.portable name hname
      exact ⟨name, ⟨isSome_utf8 name (portable_ascii name hp), rfl⟩, hp⟩

theorem parseMode_ok (value : String) (mode : Nat) :
    parseMode value = .ok mode ↔ ((bytes value).length = 4 ∧ ∀ b ∈ bytes value, 0x30 ≤ b ∧ b ≤ 0x37) ∧
      mode = (bytes value).foldl (fun mode b => mode * 8 + (b.toNat - 0x30)) 0 := by
  rw [parseMode, check_bind_ok, ensure_ok, pure_ok]
  simp only [List.all_eq_true, octalDigit, Bool.and_eq_true, decide_eq_true_eq]

/-- Four octal digits are the only spelling of their mode. -/
theorem parseMode_injective (value value' : String) (mode : Nat)
    (h : parseMode value = .ok mode) (h' : parseMode value' = .ok mode) : value = value' := by
  rw [parseMode_ok] at h h'
  apply bytes_injective
  obtain ⟨⟨hl, hd⟩, rfl⟩ := h
  obtain ⟨⟨hl', hd'⟩, hm⟩ := h'
  match hb : bytes value, hb' : bytes value', hl, hl' with
  | [a, b, c, d], [a', b', c', d'], _, _ =>
    rw [hb] at hd hm
    rw [hb'] at hd' hm
    simp only [List.forall_mem_cons, UInt8.le_iff_toNat_le, List.foldl_cons, List.foldl_nil] at *
    have digits : a.toNat = a'.toNat ∧ b.toNat = b'.toNat ∧ c.toNat = c'.toNat ∧
        d.toNat = d'.toNat := by
      simp only [UInt8.reduceToNat] at hd hd'
      omega
    simpa only [UInt8.toNat_inj, List.cons.injEq, and_true] using digits

theorem parseMode_0555 : parseMode "0555" = .ok 0o555 := by decide +kernel

theorem parseMode_0444 : parseMode "0444" = .ok 0o444 := by decide +kernel

def requiredMode : ReleaseEntry → String
  | .directory .. => "0555"
  | .file path _ _ _ => if path = serverBinary then "0555" else "0444"

def sizeOfEntry : ReleaseEntry → Nat
  | .directory .. => 0
  | .file _ _ size _ => size.toNat

/-- The digest of a file entry is one. -/
def DigestText : ReleaseEntry → Prop
  | .directory .. => True
  | .file _ _ _ sha256 => validateSha256 sha256 = .ok ()

theorem mode_iff (text canonical : String) (mode : Nat) (h : parseMode canonical = .ok mode) :
    parseMode text = .ok mode ↔ text = canonical := by
  constructor
  · exact fun ht => parseMode_injective text canonical mode ht h
  · rintro rfl
    exact h

/-- `parse_entries` asks for an entry's one mode, and of a file for its size and digest. -/
theorem checkKind_ok (entry : ReleaseEntry) :
    (∃ mode, parseMode entry.mode = .ok mode ∧ checkKind entry mode = .ok ()) ↔
      entry.mode = requiredMode entry ∧ sizeOfEntry entry ≤ maxFileBytes ∧ DigestText entry := by
  cases entry with
  | directory path text =>
    simp only [checkKind, ReleaseEntry.mode, ensure_ok, requiredMode, sizeOfEntry, DigestText]
    rw [exists_eq_right, mode_iff text "0555" _ parseMode_0555]
    simp
  | file path text size sha256 =>
    simp only [checkKind, ReleaseEntry.mode, requiredMode, sizeOfEntry, DigestText, check_bind_ok,
      ensure_ok]
    have required : parseMode (if path = serverBinary then "0555" else "0444") =
        .ok (if path = serverBinary then 0o555 else 0o444) := by
      split_ifs
      · exact parseMode_0555
      · exact parseMode_0444
    constructor
    · rintro ⟨_, hm, rfl, hs, hd⟩
      exact ⟨(mode_iff _ _ _ required).mp hm, hs, hd⟩
    · rintro ⟨hm, hs, hd⟩
      exact ⟨_, (mode_iff _ _ _ required).mpr hm, rfl, hs, hd⟩

namespace ReleaseEntry

def names (e : ReleaseEntry) : RelativePath := relativePath e.path

end ReleaseEntry

/-- What `parse_entries` asks of one entry. -/
structure Proper (e : ReleaseEntry) : Prop where
  spelled : Spelled e.path
  other : e.path ≠ releaseManifestName
  mode : e.mode = requiredMode e
  size : sizeOfEntry e ≤ maxFileBytes
  digest : DigestText e

theorem parseEntry_ok (expected : Expected) (previous : Option String) (e : ReleaseEntry)
    (state : Expected × Option String) :
    parseEntry (expected, previous) e = .ok state ↔
      Proper e ∧ (∀ p ∈ previous, bytes p < bytes e.path) ∧ expected.get? e.names = none ∧
        state = (expected.insert e.names e, some e.path) := by
  unfold parseEntry
  simp only [bind_ok, validatedRelativePath_ok, checkSorted, ensure_ok, pure_ok, exists_const]
  constructor
  · rintro ⟨_, ⟨hspelled, rfl⟩, hother, hsorted, mode, hmode, ⟨⟩, hkind, hnew, rfl⟩
    obtain ⟨hm, hs, hd⟩ := (checkKind_ok e).mp ⟨mode, hmode, hkind⟩
    exact ⟨⟨hspelled, hother, hm, hs, hd⟩, hsorted, hnew, rfl⟩
  · rintro ⟨⟨hspelled, hother, hm, hs, hd⟩, hsorted, hnew, rfl⟩
    obtain ⟨mode, hmode, hkind⟩ := (checkKind_ok e).mpr ⟨hm, hs, hd⟩
    exact ⟨_, ⟨hspelled, rfl⟩, hother, hsorted, mode, hmode, (), hkind, hnew, rfl⟩

def keyed (e : ReleaseEntry) : RelativePath × ReleaseEntry := (e.names, e)

def Sorted (entries : List ReleaseEntry) : Prop :=
  entries.Pairwise fun a b => bytes a.path < bytes b.path

theorem bytes_lt_trans (a b c : List UInt8) (h : a < b) (h' : b < c) : a < c :=
  List.lt_trans h h'

theorem sorted_append (entries : List ReleaseEntry) (e : ReleaseEntry) :
    Sorted (entries ++ [e]) ↔ Sorted entries ∧
      ∀ p ∈ entries.getLast?.map ReleaseEntry.path, bytes p < bytes e.path := by
  unfold Sorted
  simp only [List.pairwise_append, List.pairwise_singleton, List.mem_singleton, forall_eq, true_and]
  apply and_congr_right
  intro sorted
  cases entries using List.reverseRecOn with
  | nil => simp
  | append_singleton front last =>
    have below : ∀ a ∈ front, bytes a.path < bytes last.path := by
      intro a ha
      exact (List.pairwise_append.mp sorted).2.2 a ha last List.mem_cons_self
    simp only [List.getLast?_append, List.getLast?_singleton, Option.some_or, Option.map_some,
      Option.mem_def, Option.some.injEq, forall_eq']
    constructor
    · exact fun h => h last (by simp)
    · intro h a ha
      rcases List.mem_append.mp ha with ha | ha
      · exact bytes_lt_trans _ _ _ (below a ha) h
      · rw [List.mem_singleton.mp ha]
        exact h

/-- `parse_entries` accepts strictly sorted proper entries with distinct paths, and keeps
each under its path. -/
theorem parseState_ok (entries : List ReleaseEntry) (expected : Expected)
    (previous : Option String) :
    entries.foldlM parseEntry (AssocMap.empty, none) = .ok (expected, previous) ↔
      ((∀ e ∈ entries, Proper e) ∧ Sorted entries ∧ (entries.map ReleaseEntry.names).Nodup) ∧
        expected.entries = (entries.map keyed).reverse ∧
        previous = entries.getLast?.map ReleaseEntry.path := by
  induction entries using List.reverseRecOn generalizing expected previous with
  | nil =>
    rw [List.foldlM_nil, pure_ok]
    cases expected
    simp [Sorted, AssocMap.empty]
  | append_singleton entries e ih =>
    have keys (m : Expected) (h : m.entries = (entries.map keyed).reverse) :
        m.get? e.names = none ↔ ∀ a ∈ entries, a.names ≠ e.names := by
      simp [AssocMap.get?_eq_none_iff, h, keyed]
    have lengthen (m m' : Expected) (h : m.entries = (entries.map keyed).reverse)
        (hnew : m.get? e.names = none) :
        m' = m.insert e.names e ↔ m'.entries = ((entries ++ [e]).map keyed).reverse := by
      rw [AssocMap.eq_iff, AssocMap.entries_insert m _ _ hnew, h]
      simp [keyed]
    have distinct : ((entries ++ [e]).map ReleaseEntry.names).Nodup ↔
        (entries.map ReleaseEntry.names).Nodup ∧ ∀ a ∈ entries, a.names ≠ e.names := by
      simp [List.nodup_append]
    have all : (∀ a ∈ entries ++ [e], Proper a) ↔ (∀ a ∈ entries, Proper a) ∧ Proper e := by
      simp [or_imp, forall_and]
    have last : (entries ++ [e]).getLast?.map ReleaseEntry.path = some e.path := by simp
    simp only [List.foldlM_append, bind_ok, List.foldlM_cons, List.foldlM_nil, pure_ok]
    rw [sorted_append, distinct, all, last]
    constructor
    · rintro ⟨⟨m, p⟩, h, state, hstep, rfl⟩
      obtain ⟨⟨hproper, hsorted, hnodup⟩, hm, rfl⟩ := (ih m p).mp h
      obtain ⟨he, hlast, hnew, hstate⟩ := (parseEntry_ok m _ e _).mp hstep
      obtain ⟨hmap, hprevious⟩ := Prod.mk.inj hstate
      have htail := (keys m hm).mp hnew
      exact ⟨⟨⟨hproper, he⟩, ⟨hsorted, hlast⟩, hnodup, htail⟩,
        (lengthen m expected hm hnew).mp hmap, hprevious⟩
    · rintro ⟨⟨⟨hproper, he⟩, ⟨hsorted, hlast⟩, hnodup, htail⟩, hm, rfl⟩
      have front : ((entries.map keyed).reverse.map Prod.fst).Nodup := by
        simpa [keyed, Function.comp_def] using hnodup
      let m : Expected := ⟨(entries.map keyed).reverse, front⟩
      have hnew : m.get? e.names = none := (keys m rfl).mpr htail
      have hmap : expected = m.insert e.names e := (lengthen m expected rfl hnew).mpr hm
      refine ⟨(m, entries.getLast?.map ReleaseEntry.path),
        (ih m _).mpr ⟨⟨hproper, hsorted, hnodup⟩, rfl, rfl⟩, _, ?_, rfl⟩
      rw [parseEntry_ok, hmap]
      exact ⟨he, hlast, hnew, rfl⟩

theorem parseEntries_ok (entries : List ReleaseEntry) (expected : Expected) :
    parseEntries entries = .ok expected ↔
      ((∀ e ∈ entries, Proper e) ∧ Sorted entries ∧ (entries.map ReleaseEntry.names).Nodup) ∧
        expected.entries = (entries.map keyed).reverse := by
  unfold parseEntries
  rw [bind_ok]
  constructor
  · rintro ⟨⟨m, previous⟩, h, hm⟩
    obtain rfl := (pure_ok _ _).mp hm
    have hs := (parseState_ok entries expected previous).mp h
    exact ⟨hs.1, hs.2.1⟩
  · rintro ⟨hs, hm⟩
    exact ⟨(expected, _), (parseState_ok entries expected _).mpr ⟨hs, hm, rfl⟩, rfl⟩

/-- The map of a parsed list. -/
theorem get?_parsed (entries : List ReleaseEntry) (expected : Expected)
    (h : expected.entries = (entries.map keyed).reverse) (path : RelativePath) (e : ReleaseEntry) :
    expected.get? path = some e ↔ e ∈ entries ∧ e.names = path := by
  rw [AssocMap.get?_eq_some_iff, h]
  simp only [List.mem_reverse, List.mem_map, keyed, Prod.mk.injEq]
  constructor
  · rintro ⟨_, he, rfl, rfl⟩
    exact ⟨he, rfl⟩
  · rintro ⟨he, rfl⟩
    exact ⟨e, he, rfl, rfl⟩

end HostMonitoring.Release
