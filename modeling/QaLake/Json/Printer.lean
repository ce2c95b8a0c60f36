import QaLake.Json.Basic
import QaLake.Number.Shortest

namespace QaLake.Json

/-- How a decimal is laid out: it is positional if its point falls at most `maxPlaces` digits to the
right of its first digit and less than `minPlaces` zeros stand before that digit. -/
structure DecimalLayout where
  maxPlaces : Int
  minPlaces : Int

def layout : DecimalLayout := ⟨16, -5⟩

def decimalChars (d : Binary64.Decimal) : List Char :=
  let point := d.exponent + d.digits.length
  if 0 ≤ d.exponent ∧ point ≤ layout.maxPlaces then
    d.digits ++ List.replicate d.exponent.toNat '0' ++ ['.', '0']
  else if 0 < point ∧ point ≤ layout.maxPlaces then
    d.digits.take point.toNat ++ '.' :: d.digits.drop point.toNat
  else if layout.minPlaces < point ∧ point ≤ 0 then
    '0' :: '.' :: List.replicate (-point).toNat '0' ++ d.digits
  else
    let fraction := if d.digits.length ≤ 1 then [] else '.' :: d.digits.drop 1
    let sign := if point - 1 < 0 then '-' else '+'
    d.digits.take 1 ++ fraction ++ 'e' :: sign :: Nat.toDigits 10 (point - 1).natAbs

def floatChars (x : Binary64) : List Char :=
  let digits := if x.isZero then ['0', '.', '0'] else decimalChars x.shortest
  if x.negative then '-' :: digits else digits

def intChars (n : Int) : List Char :=
  if n < 0 then '-' :: Nat.toDigits 10 n.natAbs else Nat.toDigits 10 n.natAbs

def Number.chars : Number → List Char
  | .int n => intChars n
  | .float x => floatChars x

def Number.text (n : Number) : String :=
  String.ofList n.chars

/-- A character inside a quoted text. Only the quote, the backslash and the controls are escaped. -/
def escape (c : Char) : List Char :=
  match c with
  | '"' => ['\\', '"']
  | '\\' => ['\\', '\\']
  | '\x08' => ['\\', 'b']
  | '\t' => ['\\', 't']
  | '\n' => ['\\', 'n']
  | '\x0c' => ['\\', 'f']
  | '\r' => ['\\', 'r']
  | c =>
    if c.toNat < 0x20 then
      ['\\', 'u', '0', '0', Nat.digitChar (c.toNat / 16), Nat.digitChar (c.toNat % 16)]
    else [c]

def strChars (s : String) : List Char :=
  '"' :: s.toList.flatMap escape ++ ['"']

mutual

def chars : Json → List Char
  | .null => ['n', 'u', 'l', 'l']
  | .bool true => ['t', 'r', 'u', 'e']
  | .bool false => ['f', 'a', 'l', 's', 'e']
  | .num n => n.chars
  | .str s => strChars s
  | .arr items => '[' :: itemsChars items ++ [']']
  | .obj members => '{' :: membersChars members ++ ['}']

def itemsChars : List Json → List Char
  | [] => []
  | [item] => chars item
  | item :: rest => chars item ++ ',' :: itemsChars rest

def membersChars : List (String × Json) → List Char
  | [] => []
  | [(name, value)] => strChars name ++ ':' :: chars value
  | (name, value) :: rest => strChars name ++ ':' :: chars value ++ ',' :: membersChars rest

end

def text (j : Json) : String :=
  String.ofList j.chars

end QaLake.Json
