import HostMonitoring.Framework.JsonText
import Mathlib.Data.List.TakeDrop

namespace HostMonitoring.Framework.JsonText

/-- A number that ends here goes no further in this text. -/
def Terminated (rest : List Char) : Prop :=
  ∀ c ∈ rest.head?, c.isDigit = false ∧ c ≠ '.' ∧ c ≠ 'e' ∧ c ≠ 'E'

theorem span_digits (ds rest : List Char) (hd : ∀ c ∈ ds, c.isDigit = true)
    (hr : ∀ c ∈ rest.head?, c.isDigit = false) :
    (ds ++ rest).span Char.isDigit = (ds, rest) := by
  rw [List.span_eq_takeWhile_dropWhile, List.takeWhile_append_of_pos hd,
    List.dropWhile_append_of_pos hd]
  cases rest with
  | nil => simp
  | cons c rest =>
    have hc : c.isDigit = false := hr c rfl
    simp [hc]

theorem digits_append (ds rest : List Char) (ne : ds ≠ []) (hd : ∀ c ∈ ds, c.isDigit = true)
    (hr : ∀ c ∈ rest.head?, c.isDigit = false) : digits (ds ++ rest) = some (ds, rest) := by
  rw [digits, span_digits ds rest hd hr, if_neg ne]

/-- No number but zero begins with a zero. -/
theorem head_toDigits (n : Nat) (h : (Nat.toDigits 10 n).head? = some '0') :
    Nat.toDigits 10 n = ['0'] := by
  induction n using Nat.strongRecOn with
  | ind n ih =>
    by_cases small : n < 10
    · rw [Nat.toDigits_of_lt_base small] at h ⊢
      simpa using h
    · have large : 10 ≤ n := Nat.not_lt.mp small
      rw [Nat.toDigits_of_base_le (by decide) large,
        List.head?_append_of_ne_nil _ Nat.toDigits_ne_nil] at h
      have zero : Nat.toDigits 10 (n / 10) = ['0'] := ih (n / 10) (by omega) h
      have value := Nat.ofDigitChars_ten_toDigits (n := n / 10)
      rw [zero] at value
      have hz : Nat.ofDigitChars 10 ['0'] 0 = 0 := by decide
      omega

theorem isDigit_ne_minus (c : Char) (h : c.isDigit = true) : c ≠ '-' := by
  rintro rfl
  simp at h

theorem magnitude_toDigits (n : Nat) (rest : List Char) (hr : Terminated rest) :
    magnitude (Nat.toDigits 10 n ++ rest) = some (Nat.toDigits 10 n, rest) := by
  have hd : ∀ c ∈ Nat.toDigits 10 n, c.isDigit = true := fun c hc =>
    Nat.isDigit_of_mem_toDigits (by decide) (by decide) hc
  have stop : ∀ c ∈ rest.head?, c.isDigit = false := fun c hc => (hr c hc).1
  have int : integer (Nat.toDigits 10 n ++ rest) = some (Nat.toDigits 10 n, rest) := by
    rw [integer, digits_append _ rest Nat.toDigits_ne_nil hd stop, Option.bind_some, if_neg]
    rintro ⟨h, ne⟩
    exact ne (head_toDigits n h)
  have tail : fraction rest = some ([], rest) ∧ exponent rest = some ([], rest) := by
    cases rest with
    | nil => exact ⟨rfl, rfl⟩
    | cons c rest =>
      obtain ⟨_, hdot, he, hE⟩ := hr c rfl
      simp [fraction, exponent, hdot, he, hE]
  rw [magnitude, int, Option.bind_some, tail.1, Option.bind_some, tail.2]
  simp

theorem number_repr (n : Nat) (rest : List Char) (hr : Terminated rest) :
    number (n.repr.toList ++ rest) = some (.num n.repr, rest) := by
  have hm := magnitude_toDigits n rest hr
  rw [Nat.toList_repr]
  cases hd : Nat.toDigits 10 n with
  | nil => exact absurd hd Nat.toDigits_ne_nil
  | cons c ds =>
    have hc : c.isDigit = true :=
      Nat.isDigit_of_mem_toDigits (b := 10) (n := n) (by decide) (by decide) (hd ▸ List.mem_cons_self)
    rw [hd] at hm
    rw [List.cons_append] at hm ⊢
    rw [number, if_neg (isDigit_ne_minus c hc), hm, Option.map_some, ← hd,
      ← Nat.repr_eq_ofList_toDigits]

theorem hexValue_hexDigit : ∀ n < 16, hexValue (hexDigit n) = some n := by decide

theorem hexUnit_control (n : Nat) (h : n < 0x20) :
    hexUnit '0' '0' (hexDigit (n / 16)) (hexDigit (n % 16)) = some n := by
  have zero : hexValue '0' = some 0 := by decide
  rw [hexUnit, zero, hexValue_hexDigit (n / 16) (by omega), hexValue_hexDigit (n % 16) (by omega)]
  simp
  omega

theorem pieces_end (rest : List Char) : pieces (quotationMark :: rest) = some ([], rest) := by
  rw [pieces.eq_def]
  rfl

theorem pieces_simple (e : Char) (rest : List Char) (h : e ≠ 'u') :
    pieces (reverseSolidus :: e :: rest) =
      (simpleEscape e).bind fun v => (pieces rest).map fun r => (.inl v :: r.1, r.2) := by
  rw [pieces.eq_def]
  simp [h, reverseSolidus, quotationMark]

theorem pieces_unit (a b c d : Char) (rest : List Char) :
    pieces (reverseSolidus :: 'u' :: a :: b :: c :: d :: rest) =
      (hexUnit a b c d).bind fun u => (pieces rest).map fun r => (.inr u :: r.1, r.2) := by
  rw [pieces.eq_def]
  simp [reverseSolidus, quotationMark]

theorem pieces_plain (c : Char) (rest : List Char) (hq : c ≠ quotationMark)
    (hs : c ≠ reverseSolidus) (hc : ¬c.toNat < 0x20) :
    pieces (c :: rest) = (pieces rest).map fun r => (.inl c :: r.1, r.2) := by
  rw [pieces.eq_def]
  simp [hq, hs, hc]

/-- A character written as two is one piece. -/
theorem read_simple (c e : Char) (h : simpleEscape e = some c) (hu : e ≠ 'u') :
    ∃ p, (∀ rest, pieces ([reverseSolidus, e] ++ rest) =
      (pieces rest).map fun r => (p :: r.1, r.2)) ∧ ∀ ps, join (p :: ps) = (join ps).map (c :: ·) := by
  refine ⟨.inl c, ?_, fun ps => by rw [join]⟩
  intro rest
  rw [List.cons_append, List.singleton_append, pieces_simple e rest hu, h, Option.bind_some]

/-- Each escaped character is read as one piece that stands for it. -/
theorem pieces_escape (c : Char) : ∃ p, (∀ rest, pieces (escape c ++ rest) =
    (pieces rest).map fun r => (p :: r.1, r.2)) ∧ ∀ ps, join (p :: ps) = (join ps).map (c :: ·) := by
  have named (n : Nat) (h : c.toNat = n) : c = Char.ofNat n := by rw [← h, Char.ofNat_toNat]
  unfold escape
  split_ifs with h₁ h₂ h₃ h₄ h₅ h₆ h₇
  · rcases h₁ with rfl | rfl
    · exact read_simple _ _ (by decide) (by decide)
    · exact read_simple _ _ (by decide) (by decide)
  · exact read_simple c 'b' (named _ h₂ ▸ by decide) (by decide)
  · exact read_simple c 't' (named _ h₃ ▸ by decide) (by decide)
  · exact read_simple c 'n' (named _ h₄ ▸ by decide) (by decide)
  · exact read_simple c 'f' (named _ h₅ ▸ by decide) (by decide)
  · exact read_simple c 'r' (named _ h₆ ▸ by decide) (by decide)
  · refine ⟨.inr c.toNat, ?_, ?_⟩
    · intro rest
      simp only [List.cons_append, List.nil_append]
      rw [pieces_unit, hexUnit_control c.toNat h₇, Option.bind_some]
    · intro ps
      have high : ¬(0xd800 ≤ c.toNat ∧ c.toNat < 0xdc00) := by omega
      have low : ¬(0xdc00 ≤ c.toNat ∧ c.toNat < 0xe000) := by omega
      rw [join.eq_def]
      simp only [if_neg high, if_neg low, Char.ofNat_toNat]
  · obtain ⟨hq, hs⟩ := not_or.mp h₁
    exact ⟨.inl c, fun rest => pieces_plain c rest hq hs h₇, fun ps => by rw [join]⟩

theorem string_quote (s : String) (rest : List Char) :
    string (s.toList.flatMap escape ++ quotationMark :: rest) = some (s, rest) := by
  have read : ∀ cs : List Char, ∃ ps, pieces (cs.flatMap escape ++ quotationMark :: rest) =
      some (ps, rest) ∧ join ps = some cs := by
    intro cs
    induction cs with
    | nil => exact ⟨[], pieces_end rest, rfl⟩
    | cons c cs ih =>
      obtain ⟨ps, hp, hj⟩ := ih
      obtain ⟨p, hread, hjoin⟩ := pieces_escape c
      refine ⟨p :: ps, ?_, ?_⟩
      · rw [List.flatMap_cons, List.append_assoc, hread, hp]
        rfl
      · rw [hjoin, hj]
        rfl
  obtain ⟨ps, hp, hj⟩ := read s.toList
  rw [string, hp, Option.bind_some, hj, Option.map_some, String.ofList_toList]

section Series

variable {α : Type} (item : Parser α) (written : α → List Char) (close : Char)

/-- An item is read back in front of what may follow it. -/
def ReadsBack (a : α) : Prop := ∀ rest, Terminated rest → item (written a ++ rest) = some (a, rest)

theorem terminated_separator (rest : List Char) : Terminated (valueSeparator :: rest) := by
  intro c hc
  obtain rfl : valueSeparator = c := by simpa using hc
  decide

theorem intercalate_cons (text : List Char) (texts : List (List Char)) (ne : texts ≠ []) :
    [valueSeparator].intercalate (text :: texts) =
      text ++ valueSeparator :: [valueSeparator].intercalate texts := by
  cases texts with
  | nil => exact absurd rfl ne
  | cons t texts => simp [List.intercalate]

theorem items_written (closes : ∀ rest, Terminated (close :: rest))
    (apart : isSpace close = false ∧ close ≠ valueSeparator) (first : α) (as : List α)
    (h : ∀ a ∈ first :: as, ReadsBack item written a) (fuel : Nat) (enough : as.length < fuel)
    (rest : List Char) :
    items item close fuel ([valueSeparator].intercalate ((first :: as).map written) ++ close :: rest) =
      some (first :: as, rest) := by
  have comma : isSpace valueSeparator = false := by decide
  induction as generalizing first fuel with
  | nil =>
    obtain ⟨fuel, rfl⟩ : ∃ n, fuel = n + 1 := ⟨fuel - 1, by omega⟩
    have hf := h first List.mem_cons_self (close :: rest) (closes rest)
    rw [List.map_singleton, List.intercalate_singleton, items, hf, Option.bind_some]
    simp [skipSpace, apart]
  | cons a as ih =>
    obtain ⟨fuel, rfl⟩ : ∃ n, fuel = n + 1 := ⟨fuel - 1, by omega⟩
    have hf := h first List.mem_cons_self _ (terminated_separator
      ([valueSeparator].intercalate ((a :: as).map written) ++ close :: rest))
    have ha := ih a (fun b hb => h b (List.mem_cons_of_mem _ hb)) fuel (by simpa using enough)
    rw [List.map_cons, intercalate_cons _ _ (by simp), List.append_assoc, List.cons_append, items, hf,
      Option.bind_some]
    simp only [skipSpace, List.dropWhile_cons, comma, Bool.false_eq_true, if_false, if_true]
    rw [ha, Option.map_some]

/-- A text whose first character is neither a space nor the closing one. -/
def Opens (text : List Char) : Prop :=
  ∃ c rest, text = c :: rest ∧ isSpace c = false ∧ c ≠ close

theorem length_intercalate (texts : List (List Char)) :
    texts.length ≤ ([valueSeparator].intercalate texts).length + 1 := by
  induction texts with
  | nil => simp
  | cons t texts ih =>
    by_cases ne : texts = []
    · simp [ne]
    · rw [intercalate_cons t texts ne, List.length_append, List.length_cons, List.length_cons]
      omega

theorem series_written (closes : ∀ rest, Terminated (close :: rest))
    (apart : isSpace close = false ∧ close ≠ valueSeparator) (as : List α)
    (h : ∀ a ∈ as, ReadsBack item written a ∧ Opens close (written a)) (rest : List Char) :
    series item close ([valueSeparator].intercalate (as.map written) ++ close :: rest) =
      some (as, rest) := by
  cases as with
  | nil => simp [series, skipSpace, List.intercalate, apart]
  | cons first as =>
    obtain ⟨c, more, hw, hs, hc⟩ := (h first List.mem_cons_self).2
    have front : ∃ more, [valueSeparator].intercalate ((first :: as).map written) = c :: more := by
      cases as with
      | nil => exact ⟨more, by simp [List.intercalate, hw]⟩
      | cons a as =>
        rw [List.map_cons, intercalate_cons _ _ (by simp), hw]
        exact ⟨_, rfl⟩
    have long := length_intercalate ((first :: as).map written)
    have read := items_written item written close closes apart first as (fun a ha => (h a ha).1)
    obtain ⟨more, hm⟩ := front
    rw [hm] at long read ⊢
    simp only [series, List.cons_append, skipSpace, List.dropWhile_cons, hs, Bool.false_eq_true,
      if_false, if_neg hc]
    apply read
    simp only [List.length_map, List.length_cons, List.length_append] at long ⊢
    omega

end Series

/-- A value of natural numbers and of certain strings, nested at most `depth` times. -/
def Fits (text : String → Prop) : Nat → Json String → Prop
  | _, .null => True
  | _, .bool _ => True
  | _, .str s => text s
  | _, .num n => ∃ k : Nat, n = k.repr
  | 0, .arr _ => False
  | 0, .obj _ => False
  | depth + 1, .arr elems => ∀ e ∈ elems, Fits text depth e
  | depth + 1, .obj fields => ∀ f ∈ fields, text f.1 ∧ Fits text depth f.2

def renderField (f : String × Json String) : List Char := quote f.1 ++ nameSeparator :: render f.2

theorem renderAll_eq (elems : List (Json String)) : renderAll elems = elems.map render := by
  induction elems with
  | nil => rw [renderAll, List.map_nil]
  | cons e elems ih => rw [renderAll, ih, List.map_cons]

theorem renderFields_eq (fields : List (String × Json String)) :
    renderFields fields = fields.map renderField := by
  induction fields with
  | nil => rw [renderFields, List.map_nil]
  | cons f fields ih => rw [renderFields, ih, List.map_cons, renderField]

/-- How a leaf begins. -/
def LeafStart (c : Char) : Prop :=
  isSpace c = false ∧ c ≠ beginArray ∧ c ≠ beginObject ∧ c ≠ endArray ∧ c ≠ endObject

theorem leafStart_digit (c : Char) (h : c.isDigit = true) :
    LeafStart c ∧ c ≠ quotationMark ∧ c ≠ 'n' ∧ c ≠ 't' ∧ c ≠ 'f' := by
  have range : 48 ≤ c.toNat ∧ c.toNat ≤ 57 := by
    simpa [Char.isDigit, UInt32.le_iff_toNat_le] using h
  have other (d : Char) (hd : d.toNat < 48 ∨ 57 < d.toNat) : c ≠ d := by
    rintro rfl
    omega
  refine ⟨⟨?_, other _ (by decide), other _ (by decide), other _ (by decide), other _ (by decide)⟩,
    other _ (by decide), other _ (by decide), other _ (by decide), other _ (by decide)⟩
  simp only [isSpace, Bool.or_eq_false_iff, beq_eq_false_iff_ne]
  omega

theorem keyword_append (word : String) (v : Json String) (rest : List Char) :
    keyword word v (word.toList ++ rest) = some (v, rest) := by
  simp [keyword]

def IsLeaf : Json String → Prop
  | .arr _ => False
  | .obj _ => False
  | _ => True

theorem leaf_render (text : String → Prop) (j : Json String) (hl : IsLeaf j) (hf : Fits text 0 j) :
    (∃ c more, render j = c :: more ∧ LeafStart c) ∧ ReadsBack leaf render j := by
  cases j with
  | arr elems => cases hl
  | obj fields => cases hl
  | null =>
    refine ⟨⟨'n', "ull".toList, by decide, by unfold LeafStart; decide⟩, ?_⟩
    intro rest _
    exact keyword_append "null" .null rest
  | bool b =>
    cases b with
    | true =>
      refine ⟨⟨'t', "rue".toList, by decide, by unfold LeafStart; decide⟩, ?_⟩
      intro rest _
      exact keyword_append "true" (.bool true) rest
    | false =>
      refine ⟨⟨'f', "alse".toList, by decide, by unfold LeafStart; decide⟩, ?_⟩
      intro rest _
      exact keyword_append "false" (.bool false) rest
  | str s =>
    refine ⟨⟨quotationMark, _, by rw [render, quote]; rfl, by unfold LeafStart; decide⟩, ?_⟩
    intro rest _
    have read := string_quote s rest
    rw [render, quote, List.append_assoc, List.cons_append, List.singleton_append, leaf,
      if_pos rfl, read, Option.map_some]
  | num n =>
    obtain ⟨k, rfl⟩ := hf
    have read := number_repr k
    rw [Nat.toList_repr] at read
    cases hd : Nat.toDigits 10 k with
    | nil => exact absurd hd Nat.toDigits_ne_nil
    | cons c ds =>
      have hc : c.isDigit = true := Nat.isDigit_of_mem_toDigits (b := 10) (n := k) (by decide)
        (by decide) (hd ▸ List.mem_cons_self)
      obtain ⟨start, hq, hn, ht, hf⟩ := leafStart_digit c hc
      have text : render (.num k.repr) = c :: ds := by rw [render, Nat.toList_repr, hd]
      refine ⟨⟨c, ds, text, start⟩, ?_⟩
      intro rest hr
      have hread := read rest hr
      rw [hd] at hread
      rw [text, List.cons_append, leaf, if_neg hq, if_neg hn, if_neg ht, if_neg hf]
      exact hread

/-- What a value's text begins with closes nothing. -/
theorem opens_render (text : String → Prop) (depth : Nat) (j : Json String)
    (h : Fits text depth j) (close : Char)
    (closes : close = endArray ∨ close = endObject) : Opens close (render j) := by
  have leaf (hl : IsLeaf j) (hf : Fits text 0 j) : Opens close (render j) := by
    obtain ⟨⟨c, more, ht, hs, _, _, ha, ho⟩, _⟩ := leaf_render text j hl hf
    refine ⟨c, more, ht, hs, ?_⟩
    rcases closes with rfl | rfl
    · exact ha
    · exact ho
  cases j with
  | null => exact leaf trivial trivial
  | bool b => exact leaf trivial trivial
  | str s => exact leaf trivial (by cases depth <;> exact h)
  | num n => exact leaf trivial (by cases depth <;> exact h)
  | arr elems =>
    refine ⟨beginArray, _, by rw [render, between]; rfl, by decide, ?_⟩
    rcases closes with rfl | rfl <;> decide
  | obj fields =>
    refine ⟨beginObject, _, by rw [render, between]; rfl, by decide, ?_⟩
    rcases closes with rfl | rfl <;> decide

theorem opens_field (f : String × Json String) : Opens endObject (renderField f) :=
  ⟨quotationMark, _, by rw [renderField, quote]; rfl, by decide, by decide⟩

theorem skipSpace_cons (c : Char) (rest : List Char) (h : isSpace c = false) :
    skipSpace (c :: rest) = c :: rest := by
  simp [skipSpace, h]

theorem member_written (item : Parser (Json String)) (f : String × Json String)
    (h : ReadsBack item render f.2) : ReadsBack (member item) renderField f := by
  intro rest hr
  have quoteSpace : isSpace quotationMark = false := by decide
  have colonSpace : isSpace nameSeparator = false := by decide
  have read := string_quote f.1 (nameSeparator :: (render f.2 ++ rest))
  rw [renderField, quote, List.append_assoc, List.append_assoc, List.cons_append, member,
    skipSpace_cons _ _ quoteSpace]
  simp only [if_true, List.cons_append, List.nil_append]
  rw [read, Option.bind_some]
  simp only [skipSpace_cons _ _ colonSpace, if_true]
  rw [h rest hr, Option.map_some]

/-- A value is read back from its text. -/
theorem value_render (text : String → Prop) (depth : Nat) (j : Json String)
    (h : Fits text depth j) :
    ReadsBack (value depth) render j := by
  induction depth generalizing j with
  | zero =>
    have hl : IsLeaf j := by
      cases j with
      | arr elems => cases h
      | obj fields => cases h
      | null => trivial
      | bool b => trivial
      | num n => trivial
      | str s => trivial
    obtain ⟨⟨c, more, ht, hs, _⟩, read⟩ := leaf_render text j hl h
    intro rest hr
    have hread := read rest hr
    rw [ht, List.cons_append] at hread ⊢
    rw [value, skipSpace_cons _ _ hs]
    exact hread
  | succ depth ih =>
    intro rest hr
    have leaf (hl : IsLeaf j) (hf : Fits text 0 j) :
        value (depth + 1) (render j ++ rest) = some (j, rest) := by
      obtain ⟨⟨c, more, ht, hs, ha, ho, _⟩, read⟩ := leaf_render text j hl hf
      have hread := read rest hr
      rw [ht, List.cons_append] at hread ⊢
      rw [value, skipSpace_cons _ _ hs]
      simp only [if_neg ha, if_neg ho]
      exact hread
    cases j with
    | null => exact leaf trivial trivial
    | bool b => exact leaf trivial trivial
    | str s => exact leaf trivial h
    | num n => exact leaf trivial h
    | arr elems =>
      have hs : isSpace beginArray = false := by decide
      have closes (rest : List Char) : Terminated (endArray :: rest) := by
        intro c hc
        obtain rfl : endArray = c := by simpa using hc
        decide
      have read := series_written (value depth) render endArray closes (by decide) elems
        (fun e he => ⟨ih e (h e he), opens_render text depth e (h e he) endArray (Or.inl rfl)⟩) rest
      rw [render, between, renderAll_eq, List.append_assoc, List.cons_append, value,
        skipSpace_cons _ _ hs]
      simp only [if_true, List.cons_append, List.nil_append]
      rw [read, Option.map_some]
    | obj fields =>
      have hs : isSpace beginObject = false := by decide
      have other : beginObject ≠ beginArray := by decide
      have closes (rest : List Char) : Terminated (endObject :: rest) := by
        intro c hc
        obtain rfl : endObject = c := by simpa using hc
        decide
      have read := series_written (member (value depth)) renderField endObject closes (by decide)
        fields (fun f hf => ⟨member_written _ f (ih f.2 (h f hf).2), opens_field f⟩) rest
      rw [render, between, renderFields_eq, List.append_assoc, List.cons_append, value,
        skipSpace_cons _ _ hs]
      simp only [if_true, if_neg other, List.cons_append, List.nil_append]
      rw [read, Option.map_some]

/-- The text of a value, with spaces after it, parses to the value. -/
theorem parse_render (text : String → Prop) (depth : Nat) (j : Json String)
    (h : Fits text depth j) (spaces : List Char) (blank : ∀ c ∈ spaces, isSpace c = true) : parse depth (render j ++ spaces) = some j := by
  have stop : Terminated spaces := by
    intro c hc
    have hs := blank c (List.mem_of_mem_head? hc)
    simp only [isSpace, Bool.or_eq_true, beq_iff_eq] at hs
    have other (d : Char) (hd : 32 < d.toNat) : c ≠ d := by
      rintro rfl
      omega
    refine ⟨?_, other _ (by decide), other _ (by decide), other _ (by decide)⟩
    by_contra digit
    have range : 48 ≤ c.toNat ∧ c.toNat ≤ 57 := by
      simpa [Char.isDigit, UInt32.le_iff_toNat_le] using digit
    omega
  have empty : skipSpace spaces = [] := by
    rw [skipSpace, ← List.append_nil spaces, List.dropWhile_append_of_pos blank]
    rfl
  rw [parse, value_render text depth j h spaces stop, Option.bind_some, if_pos empty]

section Ascii

/-- Characters that are all ASCII. -/
def AsciiText (cs : List Char) : Prop := ∀ c ∈ cs, c.toNat < 0x80

instance (cs : List Char) : Decidable (AsciiText cs) :=
  decidable_of_iff (cs.all fun c => c.toNat < 0x80) (by simp [AsciiText])

theorem AsciiText.append (cs ds : List Char) (hc : AsciiText cs) (hd : AsciiText ds) :
    AsciiText (cs ++ ds) := by
  intro c h
  rcases List.mem_append.mp h with h | h
  · exact hc c h
  · exact hd c h

theorem AsciiText.cons (c : Char) (cs : List Char) (hc : c.toNat < 0x80) (h : AsciiText cs) :
    AsciiText (c :: cs) := List.forall_mem_cons.mpr ⟨hc, h⟩

theorem ascii_hexDigit : ∀ n < 16, (hexDigit n).toNat < 0x80 := by decide

theorem ascii_escape (c : Char) (h : c.toNat < 0x80) : AsciiText (escape c) := by
  have solidus : reverseSolidus.toNat < 0x80 := by decide
  have high := ascii_hexDigit (c.toNat / 16)
  have low := ascii_hexDigit (c.toNat % 16)
  unfold escape AsciiText
  split_ifs
  · simp [solidus, h]
  · simp [solidus]
  · simp [solidus]
  · simp [solidus]
  · simp [solidus]
  · simp [solidus]
  · simp [solidus]
    omega
  · simp [h]

theorem ascii_quote (s : String) (h : AsciiText s.toList) : AsciiText (quote s) := by
  have mark : quotationMark.toNat < 0x80 := by decide
  have body : AsciiText (s.toList.flatMap escape) := by
    intro c hc
    obtain ⟨d, hd, hc⟩ := List.mem_flatMap.mp hc
    exact ascii_escape d (h d hd) c hc
  exact .append _ _ (.cons _ _ mark body) (.cons _ _ mark (List.forall_mem_nil _))

theorem ascii_between (first last : Char) (texts : List (List Char)) (hf : first.toNat < 0x80)
    (hl : last.toNat < 0x80) (h : ∀ t ∈ texts, AsciiText t) :
    AsciiText (between first last texts) := by
  have body : AsciiText ([valueSeparator].intercalate texts) := by
    induction texts with
    | nil => exact List.forall_mem_nil _
    | cons t texts ih =>
      by_cases ne : texts = []
      · rw [ne, List.intercalate_singleton]
        exact h t List.mem_cons_self
      · rw [intercalate_cons t texts ne]
        have separator : valueSeparator.toNat < 0x80 := by decide
        exact .append _ _ (h t List.mem_cons_self)
          (.cons _ _ separator (ih fun u hu => h u (List.mem_cons_of_mem t hu)))
  exact .append _ _ (.cons _ _ hf body) (.cons _ _ hl (List.forall_mem_nil _))

theorem ascii_leaf (j : Json String) (hl : IsLeaf j) (h : Fits (fun s => AsciiText s.toList) 0 j) :
    AsciiText (render j) := by
  cases j with
  | arr elems => cases hl
  | obj fields => cases hl
  | null =>
    decide
  | bool b =>
    cases b <;> decide
  | str s => exact ascii_quote s h
  | num n =>
    obtain ⟨k, rfl⟩ := h
    intro c hc
    rw [render, Nat.toList_repr] at hc
    have digit : c.isDigit = true := Nat.isDigit_of_mem_toDigits (by decide) (by decide) hc
    have range : 48 ≤ c.toNat ∧ c.toNat ≤ 57 := by
      simpa [Char.isDigit, UInt32.le_iff_toNat_le] using digit
    omega

/-- A value of ASCII strings has an ASCII text. -/
theorem ascii_render (depth : Nat) (j : Json String)
    (h : Fits (fun s => AsciiText s.toList) depth j) : AsciiText (render j) := by
  induction depth generalizing j with
  | zero =>
    cases j with
    | arr elems => cases h
    | obj fields => cases h
    | null => exact ascii_leaf _ trivial h
    | bool b => exact ascii_leaf _ trivial h
    | num n => exact ascii_leaf _ trivial h
    | str s => exact ascii_leaf _ trivial h
  | succ depth ih =>
    cases j with
    | null => exact ascii_leaf _ trivial h
    | bool b => exact ascii_leaf _ trivial h
    | num n => exact ascii_leaf _ trivial h
    | str s => exact ascii_leaf _ trivial h
    | arr elems =>
      rw [render, renderAll_eq]
      apply ascii_between _ _ _ (by decide) (by decide)
      intro t ht
      obtain ⟨e, he, rfl⟩ := List.mem_map.mp ht
      exact ih e (h e he)
    | obj fields =>
      rw [render, renderFields_eq]
      apply ascii_between _ _ _ (by decide) (by decide)
      intro t ht
      obtain ⟨f, hf, rfl⟩ := List.mem_map.mp ht
      obtain ⟨name, v⟩ := h f hf
      exact .append _ _ (ascii_quote f.1 name) (.cons _ _ (by decide) (ih f.2 v))

/-- ASCII characters that a string holds as they are. -/
def PlainText (cs : List Char) : Prop :=
  ∀ c ∈ cs, 0x20 ≤ c.toNat ∧ c.toNat < 0x80 ∧ c ≠ quotationMark ∧ c ≠ reverseSolidus

instance (cs : List Char) : Decidable (PlainText cs) :=
  decidable_of_iff
    (cs.all fun c => 0x20 ≤ c.toNat ∧ c.toNat < 0x80 ∧ c ≠ quotationMark ∧ c ≠ reverseSolidus)
    (by simp only [PlainText, List.all_eq_true, decide_eq_true_eq])

theorem PlainText.ascii (cs : List Char) (h : PlainText cs) : AsciiText cs :=
  fun c hc => (h c hc).2.1

theorem length_quote (s : String) (h : PlainText s.toList) :
    (quote s).length = s.toList.length + 2 := by
  have same : s.toList.flatMap escape = s.toList := by
    rw [← List.flatMap_singleton' s.toList, List.flatMap_assoc]
    apply List.flatMap_congr
    intro c hc
    obtain ⟨low, _, mark, solidus⟩ := h c hc
    rw [List.flatMap_singleton, escape, if_neg (not_or.mpr ⟨mark, solidus⟩), if_neg (by omega),
      if_neg (by omega), if_neg (by omega), if_neg (by omega), if_neg (by omega), if_neg (by omega)]
  simp [quote, same]

theorem length_between_le (first last : Char) (texts : List (List Char)) (most : Nat)
    (h : ∀ t ∈ texts, t.length ≤ most) :
    (between first last texts).length ≤ texts.length * (most + 1) + 2 := by
  have body : ([valueSeparator].intercalate texts).length ≤ texts.length * (most + 1) := by
    induction texts with
    | nil => simp
    | cons t texts ih =>
      have ht := h t List.mem_cons_self
      have rest := ih fun u hu => h u (List.mem_cons_of_mem t hu)
      by_cases ne : texts = []
      · subst ne
        simp
        omega
      · rw [intercalate_cons t texts ne, List.length_append, List.length_cons, List.length_cons,
          Nat.succ_mul]
        omega
  simp [between]
  omega

end Ascii

end HostMonitoring.Framework.JsonText
