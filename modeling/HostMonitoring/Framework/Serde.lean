import HostMonitoring.Framework.Json
import Mathlib.Data.List.Nodup
import Mathlib.Logic.Equiv.Defs

namespace HostMonitoring.Framework

/-- What a type may look like in JSON: the keys its objects may have, level by level. -/
inductive Shape where
  | leaf
  | choice (names : List String)
  | list (elem : Shape)
  | option (inner : Shape)
  | record (fields : List (String × Shape))

namespace Json

variable {ν : Type}

def isScalar : Json ν → Bool
  | .bool _ => true
  | .num _ => true
  | .str _ => true
  | _ => false

/-- The value has no keys but those of the shape, at any level. An enumeration may stand as an
object without a value, a record as an array of its first fields. -/
inductive Within : Shape → Json ν → Prop where
  | leaf (j : Json ν) : j.isScalar = true → Within .leaf j
  | name (names : List String) (name : String) : name ∈ names → Within (.choice names) (.str name)
  | variant (names : List String) (name : String) :
    name ∈ names → Within (.choice names) (.obj [(name, .null)])
  | list (elem : Shape) (elems : List (Json ν)) :
    (∀ j ∈ elems, Within elem j) → Within (.list elem) (.arr elems)
  | none (inner : Shape) : Within (.option inner) .null
  | some (inner : Shape) (j : Json ν) : Within inner j → Within (.option inner) j
  | object (fields : List (String × Shape)) (entries : List (String × Json ν)) :
    (entries.map Prod.fst).Nodup → (∀ e ∈ entries, e.1 ∈ fields.map Prod.fst) →
    (∀ e ∈ entries, ∀ f ∈ fields, f.1 = e.1 → Within f.2 e.2) →
      Within (.record fields) (.obj entries)
  | positional (fields : List (String × Shape)) (elems : List (Json ν)) :
    elems.length ≤ fields.length →
    (∀ e ∈ elems.zip fields, Within e.2.2 e.1) → Within (.record fields) (.arr elems)

theorem get?_eq_some {entries : List (String × Json ν)} {key : String} {j : Json ν}
    (h : get? entries key = some j) : (key, j) ∈ entries := by
  obtain ⟨e, he, rfl⟩ := Option.map_eq_some_iff.mp h
  have named : e.1 = key := by simpa using List.find?_some he
  rw [← named]
  exact List.mem_of_find?_eq_some he

theorem get?_eq_none {entries : List (String × Json ν)} {key : String}
    (h : key ∉ entries.map Prod.fst) : get? entries key = none := by
  rw [get?, Option.map_eq_none_iff, List.find?_eq_none]
  intro e he same
  apply h
  rw [← eq_of_beq same]
  exact List.mem_map_of_mem he

theorem get?_of_mem {entries : List (String × Json ν)} (distinct : (entries.map Prod.fst).Nodup)
    {e : String × Json ν} (he : e ∈ entries) : get? entries e.1 = some e.2 := by
  cases found : get? entries e.1 with
  | none =>
    rw [get?, Option.map_eq_none_iff, List.find?_eq_none] at found
    exact absurd (beq_self_eq_true e.1) (found e he)
  | some j =>
    have same := List.inj_on_of_nodup_map distinct (get?_eq_some found) he rfl
    rw [← same]

theorem get?_cons_self (key : String) (j : Json ν) (entries : List (String × Json ν)) :
    get? ((key, j) :: entries) key = some j := by
  simp [get?]

theorem get?_cons_other {key other : String} (j : Json ν) (entries : List (String × Json ν))
    (h : key ≠ other) : get? ((other, j) :: entries) key = get? entries key := by
  simp [get?, h.symm]

end Json

open Json (Within get?)

/-- How the values of a type are written and read. `Kept` are those that are read back as they
were; what is read is `Valid`, and comes from documents without foreign keys. -/
structure Codec (ν α : Type) where
  encode : α → Json ν
  decode : Json ν → Option α
  Kept : α → Prop
  Valid : α → Prop
  shape : Shape
  round : ∀ a, decode (encode a) = some a ↔ Kept a
  sound : ∀ j a, decode j = some a → Valid a ∧ Within shape j

namespace Codec

variable {ν α β : Type}

theorem decode_encode (c : Codec ν α) {a : α} (kept : c.Kept a) : c.decode (c.encode a) = some a :=
  (c.round a).mpr kept

/-- A type whose values are those of another. -/
def iso (c : Codec ν α) (e : β ≃ α) : Codec ν β where
  encode b := c.encode (e b)
  decode j := (c.decode j).map e.symm
  Kept b := c.Kept (e b)
  Valid b := c.Valid (e b)
  shape := c.shape
  round b := by
    rw [← c.round, Option.map_eq_some_iff]
    constructor
    · intro h
      obtain ⟨a, ha, rfl⟩ := h
      rwa [e.apply_symm_apply] at ha ⊢
    · intro h
      exact ⟨e b, h, e.symm_apply_apply b⟩
  sound j b h := by
    obtain ⟨a, ha, rfl⟩ := Option.map_eq_some_iff.mp h
    rw [e.apply_symm_apply]
    exact c.sound j a ha

/-- A type of which only some values are accepted. -/
def check (c : Codec ν α) (p : α → Bool) : Codec ν α where
  encode := c.encode
  decode j := (c.decode j).filter p
  Kept a := c.Kept a ∧ p a = true
  Valid a := c.Valid a ∧ p a = true
  shape := c.shape
  round a := by rw [Option.filter_eq_some_iff, c.round]
  sound j a h := by
    obtain ⟨ha, hp⟩ := Option.filter_eq_some_iff.mp h
    obtain ⟨valid, within⟩ := c.sound j a ha
    exact ⟨⟨valid, hp⟩, within⟩

@[simp] theorem iso_kept (c : Codec ν α) (e : β ≃ α) (b : β) : (c.iso e).Kept b ↔ c.Kept (e b) :=
  Iff.rfl

@[simp] theorem check_kept (c : Codec ν α) (p : α → Bool) (a : α) :
    (c.check p).Kept a ↔ c.Kept a ∧ p a = true := Iff.rfl

@[simp] theorem check_valid (c : Codec ν α) (p : α → Bool) (a : α) :
    (c.check p).Valid a ↔ c.Valid a ∧ p a = true := Iff.rfl

def string : Codec ν String where
  encode := .str
  decode
    | .str s => some s
    | _ => none
  Kept _ := True
  Valid _ := True
  shape := .leaf
  round _ := iff_of_true rfl trivial
  sound j s h := by
    cases j with
    | str s => exact ⟨trivial, .leaf _ rfl⟩
    | _ => cases h

def bool : Codec ν Bool where
  encode := .bool
  decode
    | .bool b => some b
    | _ => none
  Kept _ := True
  Valid _ := True
  shape := .leaf
  round _ := iff_of_true rfl trivial
  sound j s h := by
    cases j with
    | bool b => exact ⟨trivial, .leaf _ rfl⟩
    | _ => cases h

/-- A type written as a number. -/
def number (write : α → ν) (read : ν → Option α) : Codec ν α where
  encode a := .num (write a)
  decode
    | .num n => read n
    | _ => none
  Kept a := read (write a) = some a
  Valid _ := True
  shape := .leaf
  round _ := Iff.rfl
  sound j s h := by
    cases j with
    | num n => exact ⟨trivial, .leaf _ rfl⟩
    | _ => cases h

/-- A type written as a text. -/
def text (write : α → String) (read : String → Option α) : Codec ν α where
  encode a := .str (write a)
  decode
    | .str s => read s
    | _ => none
  Kept a := read (write a) = some a
  Valid _ := True
  shape := .leaf
  round _ := Iff.rfl
  sound j s h := by
    cases j with
    | str n => exact ⟨trivial, .leaf _ rfl⟩
    | _ => cases h

@[simp] theorem string_kept (s : String) : (string : Codec ν String).Kept s := trivial

@[simp] theorem bool_kept (b : Bool) : (bool : Codec ν Bool).Kept b := trivial

@[simp] theorem number_kept (write : α → ν) (read : ν → Option α) (a : α) :
    (number write read).Kept a ↔ read (write a) = some a := Iff.rfl

@[simp] theorem text_kept (write : α → String) (read : String → Option α) (a : α) :
    (text write read : Codec ν α).Kept a ↔ read (write a) = some a := Iff.rfl

@[simp] theorem string_valid (s : String) : (string : Codec ν String).Valid s := trivial

theorem mapM_encode (c : Codec ν α) (as : List α) :
    (as.map c.encode).mapM c.decode = some as ↔ ∀ a ∈ as, c.Kept a := by
  induction as with
  | nil => simp
  | cons a as ih =>
    rw [List.forall_mem_cons, ← ih, ← c.round, List.map_cons, List.mapM_cons]
    simp only [Option.bind_eq_bind, Option.bind_eq_some_iff]
    constructor
    · intro h
      obtain ⟨a', first, as', rest, same⟩ := h
      cases same
      exact ⟨first, rest⟩
    · intro h
      exact ⟨a, h.1, as, h.2, rfl⟩

theorem mapM_sound (c : Codec ν α) (js : List (Json ν)) (as : List α)
    (h : js.mapM c.decode = some as) :
    (∀ a ∈ as, c.Valid a) ∧ ∀ j ∈ js, Within c.shape j := by
  induction js generalizing as with
  | nil =>
    cases h
    simp
  | cons j js ih =>
    simp only [List.mapM_cons, Option.bind_eq_bind, Option.bind_eq_some_iff] at h
    obtain ⟨a, ha, rest, hr, same⟩ := h
    cases same
    obtain ⟨valid, within⟩ := ih rest hr
    have first := c.sound j a ha
    exact ⟨List.forall_mem_cons.mpr ⟨first.1, valid⟩, List.forall_mem_cons.mpr ⟨first.2, within⟩⟩

def list (c : Codec ν α) : Codec ν (List α) where
  encode as := .arr (as.map c.encode)
  decode
    | .arr js => js.mapM c.decode
    | _ => none
  Kept as := ∀ a ∈ as, c.Kept a
  Valid as := ∀ a ∈ as, c.Valid a
  shape := .list c.shape
  round := c.mapM_encode
  sound j as h := by
    cases j with
    | arr js =>
      obtain ⟨valid, within⟩ := c.mapM_sound js as h
      exact ⟨valid, .list _ _ within⟩
    | _ => cases h

@[simp] theorem list_kept (c : Codec ν α) (as : List α) : c.list.Kept as ↔ ∀ a ∈ as, c.Kept a :=
  Iff.rfl

/-- `null` stands for none, so nothing else may be written so. -/
def option (c : Codec ν α) (solid : ∀ a, c.encode a ≠ .null) : Codec ν (Option α) where
  encode := Json.ofOption c.encode
  decode
    | .null => some none
    | j => (c.decode j).map some
  Kept o := ∀ a, o = some a → c.Kept a
  Valid o := ∀ a, o = some a → c.Valid a
  shape := .option c.shape
  round o := by
    cases o with
    | none => exact iff_of_true rfl (by simp)
    | some a =>
      have value := solid a
      show (match c.encode a with | .null => some none | j => (c.decode j).map some) = _ ↔ _
      split
      · exact absurd ‹_› value
      · simp [← c.round]
  sound j o h := by
    split at h
    · cases h
      exact ⟨by simp, .none _⟩
    · obtain ⟨a, ha, rfl⟩ := Option.map_eq_some_iff.mp h
      have inner := c.sound j a ha
      refine ⟨?_, .some _ _ inner.2⟩
      intro a' same
      cases same
      exact inner.1

@[simp] theorem option_kept (c : Codec ν α) (solid : ∀ a, c.encode a ≠ .null) (o : Option α) :
    (c.option solid).Kept o ↔ ∀ a, o = some a → c.Kept a := Iff.rfl

/-- An enumeration without data: its name, or an object with the name for its only key. -/
def choice (all : List α) (name : α → String)
    (distinct : ∀ a, all.find? (fun b => decide (name b = name a)) = some a) : Codec ν α where
  encode a := .str (name a)
  decode
    | .str s => all.find? fun a => decide (name a = s)
    | .obj [(s, .null)] => all.find? fun a => decide (name a = s)
    | _ => none
  Kept _ := True
  Valid _ := True
  shape := .choice (all.map name)
  round a := iff_of_true (distinct a) trivial
  sound j a h := by
    have named : ∀ s, all.find? (fun a => decide (name a = s)) = some a → s ∈ all.map name := by
      intro s found
      have same := List.find?_some found
      rw [decide_eq_true_eq] at same
      exact List.mem_map.mpr ⟨a, List.mem_of_find?_eq_some found, same⟩
    split at h
    · exact ⟨trivial, .name _ _ (named _ h)⟩
    · exact ⟨trivial, .variant _ _ (named _ h)⟩
    · cases h

@[simp] theorem choice_kept (all : List α) (name : α → String)
    (distinct : ∀ a, all.find? (fun b => decide (name b = name a)) = some a) (a : α) :
    (choice all name distinct : Codec ν α).Kept a := trivial

end Codec

/-- A field of a record. `absent` is its value in an object without its key, `defaults` whether a
short array may do without it too, and `skip` when it is not written. -/
structure Member (ν α : Type) where
  name : String
  codec : Codec ν α
  absent : Option α := none
  defaults : Bool := false
  skip : α → Bool := fun _ => false
  absent_valid : ∀ a, absent = some a → codec.Valid a := by simp
  skipped : ∀ a, skip a = true → absent = some a ∧ codec.Kept a := by simp

namespace Member

variable {ν α : Type}

def required (name : String) (codec : Codec ν α) : Member ν α := { name, codec }

/-- Read as none from an object without its key. -/
def nullable (name : String) (codec : Codec ν α) (solid : ∀ a, codec.encode a ≠ .null) :
    Member ν (Option α) where
  name
  codec := codec.option solid
  absent := some none
  absent_valid a h := by
    cases h
    intro a h
    cases h

theorem required_name (name : String) (codec : Codec ν α) : (required name codec).name = name := rfl

theorem nullable_name (name : String) (codec : Codec ν α) (solid : ∀ a, codec.encode a ≠ .null) :
    (nullable name codec solid).name = name := rfl

@[simp] theorem required_codec (name : String) (codec : Codec ν α) :
    (required name codec).codec = codec := rfl

@[simp] theorem nullable_codec (name : String) (codec : Codec ν α)
    (solid : ∀ a, codec.encode a ≠ .null) : (nullable name codec solid).codec = codec.option solid :=
  rfl

def entry (f : Member ν α) (a : α) : List (String × Json ν) :=
  if f.skip a then [] else [(f.name, f.codec.encode a)]

def read (f : Member ν α) (j : Option (Json ν)) : Option α := j.elim f.absent f.codec.decode

def readFirst (f : Member ν α) : List (Json ν) → Option α
  | [] => if f.defaults then f.absent else none
  | j :: _ => f.codec.decode j

theorem read_sound (f : Member ν α) {j : Option (Json ν)} {a : α} (h : f.read j = some a) :
    f.codec.Valid a ∧ ∀ j', j = some j' → Within f.codec.shape j' := by
  cases j with
  | none => exact ⟨f.absent_valid a h, by simp⟩
  | some j =>
    have inner := f.codec.sound j a h
    refine ⟨inner.1, ?_⟩
    intro j' same
    cases same
    exact inner.2

theorem readFirst_sound (f : Member ν α) {js : List (Json ν)} {a : α}
    (h : f.readFirst js = some a) :
    f.codec.Valid a ∧ ∀ j, js[0]? = some j → Within f.codec.shape j := by
  cases js with
  | nil =>
    simp only [readFirst] at h
    split_ifs at h
    exact ⟨f.absent_valid a h, by simp⟩
  | cons j js =>
    have inner := f.codec.sound j a h
    refine ⟨inner.1, ?_⟩
    intro j' same
    cases same
    exact inner.2

end Member

/-- The fields of a record, as the values of a tuple. -/
structure Fields (ν α : Type) where
  shapes : List (String × Shape)
  encode : α → List (String × Json ν)
  read : (String → Option (Json ν)) → Option α
  readSeq : List (Json ν) → Option α
  Kept : α → Prop
  Valid : α → Prop
  congr : ∀ look look', (∀ key ∈ shapes.map Prod.fst, look key = look' key) →
    read look = read look'
  keys : ∀ a, ((encode a).map Prod.fst).Sublist (shapes.map Prod.fst)
  round : (shapes.map Prod.fst).Nodup → ∀ a, read (get? (encode a)) = some a ↔ Kept a
  sound : ∀ look a, read look = some a →
    Valid a ∧ ∀ f ∈ shapes, ∀ j, look f.1 = some j → Within f.2 j
  soundSeq : ∀ js a, readSeq js = some a →
    Valid a ∧ js.length ≤ shapes.length ∧ ∀ e ∈ js.zip shapes, Within e.2.2 e.1

namespace Fields

variable {ν α β : Type}

def nil : Fields ν Unit where
  shapes := []
  encode _ := []
  read _ := some ()
  readSeq
    | [] => some ()
    | _ :: _ => none
  Kept _ := True
  Valid _ := True
  congr _ _ _ := rfl
  keys _ := .refl _
  round _ _ := iff_of_true rfl trivial
  sound _ _ _ := ⟨trivial, by simp⟩
  soundSeq js a h := by
    cases js with
    | nil => exact ⟨trivial, by simp⟩
    | cons j js => cases h

/-- One more field, before the others. -/
def cons (f : Member ν α) (fs : Fields ν β) : Fields ν (α × β) where
  shapes := (f.name, f.codec.shape) :: fs.shapes
  encode p := f.entry p.1 ++ fs.encode p.2
  read look := (f.read (look f.name)).bind fun a => (fs.read look).map fun b => (a, b)
  readSeq js := (f.readFirst js).bind fun a => (fs.readSeq js.tail).map fun b => (a, b)
  Kept p := f.codec.Kept p.1 ∧ fs.Kept p.2
  Valid p := f.codec.Valid p.1 ∧ fs.Valid p.2
  congr look look' same := by
    rw [List.map_cons, List.forall_mem_cons] at same
    rw [same.1, fs.congr look look' same.2]
  keys p := by
    rw [List.map_append, List.map_cons]
    unfold Member.entry
    split_ifs
    · exact (fs.keys p.2).cons _
    · exact (fs.keys p.2).cons_cons _
  round distinct p := by
    rw [List.map_cons, List.nodup_cons] at distinct
    have unnamed : f.name ∉ (fs.encode p.2).map Prod.fst := fun h =>
      distinct.1 ((fs.keys p.2).subset h)
    rw [← fs.round distinct.2, Option.bind_eq_some_iff]
    unfold Member.entry
    split_ifs with skips
    · obtain ⟨absent, kept⟩ := f.skipped p.1 skips
      rw [List.nil_append, Json.get?_eq_none unnamed]
      show (∃ a, f.absent = some a ∧ _) ↔ _
      simp [absent, kept, Prod.ext_iff]
    · have others : fs.read (get? ([(f.name, f.codec.encode p.1)] ++ fs.encode p.2)) =
          fs.read (get? (fs.encode p.2)) := by
        apply fs.congr
        intro key hk
        apply Json.get?_cons_other
        intro same
        exact distinct.1 (same ▸ hk)
      have own : f.read (get? ([(f.name, f.codec.encode p.1)] ++ fs.encode p.2) f.name) =
          f.codec.decode (f.codec.encode p.1) := by
        rw [List.singleton_append, Json.get?_cons_self]
        rfl
      rw [others, own, ← f.codec.round]
      simp [Prod.ext_iff]
  sound look p h := by
    obtain ⟨a, ha, h⟩ := Option.bind_eq_some_iff.mp h
    obtain ⟨b, hb, rfl⟩ := Option.map_eq_some_iff.mp h
    have first := f.read_sound ha
    have rest := fs.sound look b hb
    refine ⟨⟨first.1, rest.1⟩, ?_⟩
    intro g hg j hj
    rcases List.mem_cons.mp hg with rfl | hg
    · exact first.2 j hj
    · exact rest.2 g hg j hj
  soundSeq js p h := by
    obtain ⟨a, ha, h⟩ := Option.bind_eq_some_iff.mp h
    obtain ⟨b, hb, rfl⟩ := Option.map_eq_some_iff.mp h
    have first := f.readFirst_sound ha
    obtain ⟨valid, length, rest⟩ := fs.soundSeq js.tail b hb
    cases js with
    | nil => exact ⟨⟨first.1, valid⟩, by simp, by simp⟩
    | cons j js =>
      refine ⟨⟨first.1, valid⟩, Nat.succ_le_succ length, ?_⟩
      rw [List.zip_cons_cons, List.forall_mem_cons]
      exact ⟨first.2 j rfl, rest⟩

theorem keys_nil : (nil : Fields ν Unit).shapes.map Prod.fst = [] := rfl

theorem keys_cons (f : Member ν α) (fs : Fields ν β) :
    (cons f fs).shapes.map Prod.fst = f.name :: fs.shapes.map Prod.fst := rfl

@[simp] theorem nil_kept (u : Unit) : (nil : Fields ν Unit).Kept u := trivial

@[simp] theorem cons_kept (f : Member ν α) (fs : Fields ν β) (p : α × β) :
    (cons f fs).Kept p ↔ f.codec.Kept p.1 ∧ fs.Kept p.2 := Iff.rfl

/-- An object has each key once and no others. -/
def decode (fs : Fields ν α) : Json ν → Option α
  | .obj entries =>
    if (entries.map Prod.fst).Nodup ∧ ∀ key ∈ entries.map Prod.fst, key ∈ fs.shapes.map Prod.fst then
      fs.read (get? entries)
    else none
  | .arr elems => fs.readSeq elems
  | _ => none

/-- A record whose fields have different names. -/
def record (fs : Fields ν α) (distinct : (fs.shapes.map Prod.fst).Nodup) : Codec ν α where
  encode a := .obj (fs.encode a)
  decode := fs.decode
  Kept := fs.Kept
  Valid := fs.Valid
  shape := .record fs.shapes
  round a := by
    have keys := fs.keys a
    rw [decode, if_pos ⟨keys.nodup distinct, fun key hk => keys.subset hk⟩]
    exact fs.round distinct a
  sound j a h := by
    unfold decode at h
    split at h
    · split_ifs at h with known
      obtain ⟨valid, within⟩ := fs.sound _ a h
      refine ⟨valid, .object _ _ known.1 (fun e he => known.2 e.1 (List.mem_map_of_mem he)) ?_⟩
      intro e he f hf same
      apply within f hf e.2
      rw [same]
      exact Json.get?_of_mem known.1 he
    · obtain ⟨valid, length, within⟩ := fs.soundSeq _ a h
      exact ⟨valid, .positional _ _ length within⟩
    · cases h

@[simp] theorem record_kept (fs : Fields ν α) (distinct : (fs.shapes.map Prod.fst).Nodup) (a : α) :
    (fs.record distinct).Kept a ↔ fs.Kept a := Iff.rfl

end Fields
end HostMonitoring.Framework
