import HostMonitoring.Framework.Json
import HostMonitoring.Framework.Utf8

namespace HostMonitoring.Framework.JsonText

/-- Takes something off the front of a text. -/
abbrev Parser (α : Type) := List Char → Option (α × List Char)

def beginArray : Char := Char.ofNat 0x5b
def endArray : Char := Char.ofNat 0x5d
def beginObject : Char := Char.ofNat 0x7b
def endObject : Char := Char.ofNat 0x7d
def nameSeparator : Char := Char.ofNat 0x3a
def valueSeparator : Char := Char.ofNat 0x2c
def quotationMark : Char := Char.ofNat 0x22
def reverseSolidus : Char := Char.ofNat 0x5c

def isSpace (c : Char) : Bool :=
  c.toNat == 0x20 || c.toNat == 0x09 || c.toNat == 0x0a || c.toNat == 0x0d

def skipSpace (input : List Char) : List Char := input.dropWhile isSpace

/-- A piece of a string: a character, or a UTF-16 unit written by its number. -/
abbrev Piece := Char ⊕ Nat

def hexValue (c : Char) : Option Nat :=
  let n := c.toNat
  if 0x30 ≤ n ∧ n ≤ 0x39 then some (n - 0x30)
  else if 0x41 ≤ n ∧ n ≤ 0x46 then some (n - 0x37)
  else if 0x61 ≤ n ∧ n ≤ 0x66 then some (n - 0x57)
  else none

def hexUnit (a b c d : Char) : Option Nat :=
  (hexValue a).bind fun a => (hexValue b).bind fun b => (hexValue c).bind fun c =>
    (hexValue d).map fun d => ((a * 16 + b) * 16 + c) * 16 + d

/-- What a character stands for after a reverse solidus. -/
def simpleEscape (c : Char) : Option Char :=
  if c = quotationMark ∨ c = reverseSolidus ∨ c = '/' then some c
  else if c = 'b' then some (Char.ofNat 0x08)
  else if c = 't' then some (Char.ofNat 0x09)
  else if c = 'n' then some (Char.ofNat 0x0a)
  else if c = 'f' then some (Char.ofNat 0x0c)
  else if c = 'r' then some (Char.ofNat 0x0d)
  else none

/-- A string after its opening quotation mark, piece by piece. -/
def pieces : Parser (List Piece)
  | [] => none
  | c :: rest =>
    if c = quotationMark then some ([], rest)
    else if c.toNat < 0x20 then none
    else if c = reverseSolidus then
      match rest with
      | [] => none
      | e :: rest₁ =>
        if e = 'u' then
          match rest₁ with
          | a :: b :: c :: d :: rest₂ =>
            (hexUnit a b c d).bind fun unit =>
              (pieces rest₂).map fun r => (.inr unit :: r.1, r.2)
          | _ => none
        else
          (simpleEscape e).bind fun value => (pieces rest₁).map fun r => (.inl value :: r.1, r.2)
    else (pieces rest).map fun r => (.inl c :: r.1, r.2)

/-- The characters of a string's pieces; a surrogate must be one of a pair. -/
def join : List Piece → Option (List Char)
  | [] => some []
  | .inl c :: ps => (join ps).map (c :: ·)
  | .inr u :: ps =>
    if 0xd800 ≤ u ∧ u < 0xdc00 then
      match ps with
      | .inr v :: rest =>
        if 0xdc00 ≤ v ∧ v < 0xe000 then
          (join rest).map (Char.ofNat (0x10000 + (u - 0xd800) * 0x400 + (v - 0xdc00)) :: ·)
        else none
      | _ => none
    else if 0xdc00 ≤ u ∧ u < 0xe000 then none
    else (join ps).map (Char.ofNat u :: ·)

def string : Parser String := fun input =>
  (pieces input).bind fun r => (join r.1).map fun cs => (String.ofList cs, r.2)

def digits (input : List Char) : Option (List Char × List Char) :=
  let r := input.span Char.isDigit
  if r.1 = [] then none else some r

/-- Digits without a leading zero. -/
def integer : Parser (List Char) := fun input =>
  (digits input).bind fun r =>
    if r.1.head? = some '0' ∧ r.1 ≠ ['0'] then none else some r

def fraction : Parser (List Char)
  | [] => some ([], [])
  | c :: rest =>
    if c = '.' then (digits rest).map fun r => (c :: r.1, r.2) else some ([], c :: rest)

def exponent : Parser (List Char)
  | [] => some ([], [])
  | c :: rest =>
    if c = 'e' ∨ c = 'E' then
      match rest with
      | sign :: more =>
        if sign = '+' ∨ sign = '-' then (digits more).map fun r => (c :: sign :: r.1, r.2)
        else (digits rest).map fun r => (c :: r.1, r.2)
      | [] => none
    else some ([], c :: rest)

/-- A number's text without its sign. -/
def magnitude : Parser (List Char) := fun input =>
  (integer input).bind fun i => (fraction i.2).bind fun f => (exponent f.2).map fun e =>
    (i.1 ++ f.1 ++ e.1, e.2)

/-- A number is kept as it is written. -/
def number : Parser (Json String)
  | [] => none
  | c :: rest =>
    if c = '-' then (magnitude rest).map fun r => (.num (String.ofList (c :: r.1)), r.2)
    else (magnitude (c :: rest)).map fun r => (.num (String.ofList r.1), r.2)

def keyword (word : String) (v : Json String) : Parser (Json String) := fun input =>
  if word.toList.isPrefixOf input then some (v, input.drop word.toList.length) else none

def leaf : Parser (Json String)
  | [] => none
  | c :: rest =>
    if c = quotationMark then (string rest).map fun r => (.str r.1, r.2)
    else if c = 'n' then keyword "null" .null (c :: rest)
    else if c = 't' then keyword "true" (.bool true) (c :: rest)
    else if c = 'f' then keyword "false" (.bool false) (c :: rest)
    else number (c :: rest)

section Series

variable {α : Type} (item : Parser α) (close : Char)

/-- Items with separators up to the closing character. -/
def items : Nat → Parser (List α)
  | 0, _ => none
  | fuel + 1, input =>
    (item input).bind fun first =>
      match skipSpace first.2 with
      | [] => none
      | c :: rest =>
        if c = valueSeparator then
          (items fuel rest).map fun r => (first.1 :: r.1, r.2)
        else if c = close then some ([first.1], rest)
        else none

/-- What stands between an opening character and its closing one. -/
def series : Parser (List α) := fun input =>
  match skipSpace input with
  | [] => none
  | c :: rest => if c = close then some ([], rest) else items item close input.length input

end Series

def member (item : Parser (Json String)) : Parser (String × Json String) := fun input =>
  match skipSpace input with
  | [] => none
  | c :: rest =>
    if c = quotationMark then
      (string rest).bind fun name =>
        match skipSpace name.2 with
        | [] => none
        | c :: rest =>
          if c = nameSeparator then (item rest).map fun r => ((name.1, r.1), r.2) else none
    else none

/-- A value nested at most `depth` times. -/
def value : Nat → Parser (Json String)
  | 0, input => leaf (skipSpace input)
  | depth + 1, input =>
    match skipSpace input with
    | [] => none
    | c :: rest =>
      if c = beginArray then (series (value depth) endArray rest).map fun r => (.arr r.1, r.2)
      else if c = beginObject then
        (series (member (value depth)) endObject rest).map fun r => (.obj r.1, r.2)
      else leaf (c :: rest)

/-- A text that is one value. -/
def parse (depth : Nat) (input : List Char) : Option (Json String) :=
  (value depth input).bind fun r => if skipSpace r.2 = [] then some r.1 else none

def escape (c : Char) : List Char :=
  if c = quotationMark ∨ c = reverseSolidus then [reverseSolidus, c]
  else if c.toNat = 0x08 then [reverseSolidus, 'b']
  else if c.toNat = 0x09 then [reverseSolidus, 't']
  else if c.toNat = 0x0a then [reverseSolidus, 'n']
  else if c.toNat = 0x0c then [reverseSolidus, 'f']
  else if c.toNat = 0x0d then [reverseSolidus, 'r']
  else if c.toNat < 0x20 then
    [reverseSolidus, 'u', '0', '0', hexDigit (c.toNat / 16), hexDigit (c.toNat % 16)]
  else [c]

def quote (s : String) : List Char := quotationMark :: s.toList.flatMap escape ++ [quotationMark]

def between (first last : Char) (texts : List (List Char)) : List Char :=
  first :: [valueSeparator].intercalate texts ++ [last]

mutual

/-- A value without spaces. -/
def render : Json String → List Char
  | .null => "null".toList
  | .bool true => "true".toList
  | .bool false => "false".toList
  | .num n => n.toList
  | .str s => quote s
  | .arr elems => between beginArray endArray (renderAll elems)
  | .obj fields => between beginObject endObject (renderFields fields)

def renderAll : List (Json String) → List (List Char)
  | [] => []
  | e :: rest => render e :: renderAll rest

def renderFields : List (String × Json String) → List (List Char)
  | [] => []
  | (name, v) :: rest => (quote name ++ nameSeparator :: render v) :: renderFields rest

end

example : (parse 2 " [1, -2.5e3, \"a\\n\\u00e9\"] ".toList).map render =
    some "[1,-2.5e3,\"a\\né\"]".toList := by decide +kernel

end HostMonitoring.Framework.JsonText
