import CodeAtlas.Json.Value
import CodeAtlas.Number.Decimal

/-!
# JSON text

`Json.render` writes a value in characters of ASCII alone.  Without an indentation the text is one
line; with one, every item stands on a line of its own, indented by its depth.  Empty arrays and
objects are written without a line end in either layout.
-/

namespace CodeAtlas.Json

/-- The digit of a number below sixteen. -/
def hexDigit (n : Nat) : Char := if n < 10 then Char.ofNat (48 + n) else Char.ofNat (87 + n)

/-- A unit of sixteen bits in four digits. -/
def hexUnit (n : Nat) : List Char :=
  [hexDigit (n / 4096 % 16), hexDigit (n / 256 % 16), hexDigit (n / 16 % 16), hexDigit (n % 16)]

/-- The escape of a unit of sixteen bits. -/
def escapeUnit (n : Nat) : List Char := '\\' :: 'u' :: hexUnit n

/-- The characters that stand for one character of a string. -/
def escapeChar (c : Char) : List Char :=
  if c = '"' then ['\\', '"']
  else if c = '\\' then ['\\', '\\']
  else if c = '\n' then ['\\', 'n']
  else if c = '\r' then ['\\', 'r']
  else if c = '\t' then ['\\', 't']
  else if c = '\x08' then ['\\', 'b']
  else if c = '\x0c' then ['\\', 'f']
  else if ' ' ≤ c && c ≤ '~' then [c]
  else if c.toNat < 0x10000 then escapeUnit c.toNat
  else
    let n := c.toNat - 0x10000
    escapeUnit (0xd800 + n / 0x400) ++ escapeUnit (0xdc00 + n % 0x400)

/-- A string in quotes. -/
def quote (s : List Char) : List Char := '"' :: s.flatMap escapeChar ++ ['"']

/-- The text of an integer. -/
def integer (n : Int) : List Char :=
  if n < 0 then '-' :: Nat.toDigits 10 n.natAbs else Nat.toDigits 10 n.natAbs

/-- What stands before an item at a depth: a line end and the indentation, if there is one. -/
def lineBreak (indent : Option Nat) (depth : Nat) : List Char :=
  match indent with
  | none => []
  | some n => '\n' :: List.replicate (n * depth) ' '

/-- What stands between two items at a depth. -/
def separator (indent : Option Nat) (depth : Nat) : List Char :=
  match indent with
  | none => [',', ' ']
  | some _ => ',' :: lineBreak indent depth

mutual
/-- The text of a value at a depth. -/
def chars (indent : Option Nat) (depth : Nat) : Json → List Char
  | null => "null".toList
  | bool b => if b then "true".toList else "false".toList
  | int n => integer n
  | float x => (Decimal.shortestText x).toList
  | str s => quote s.toList
  | arr [] => ['[', ']']
  | arr (item :: items) =>
    '[' :: lineBreak indent (depth + 1) ++ chars indent (depth + 1) item
      ++ itemChars indent (depth + 1) items ++ lineBreak indent depth ++ [']']
  | obj [] => ['{', '}']
  | obj ((key, value) :: members) =>
    '{' :: lineBreak indent (depth + 1) ++ quote key.toList ++ [':', ' ']
      ++ chars indent (depth + 1) value ++ memberChars indent (depth + 1) members
      ++ lineBreak indent depth ++ ['}']

/-- The text of the items of an array but the first, each behind a separator. -/
def itemChars (indent : Option Nat) (depth : Nat) : List Json → List Char
  | [] => []
  | item :: items =>
    separator indent depth ++ chars indent depth item ++ itemChars indent depth items

/-- The text of the members of an object but the first, each behind a separator. -/
def memberChars (indent : Option Nat) (depth : Nat) : List (String × Json) → List Char
  | [] => []
  | (key, value) :: members =>
    separator indent depth ++ quote key.toList ++ [':', ' '] ++ chars indent depth value
      ++ memberChars indent depth members
end

/-- The text of a value. -/
def render (indent : Option Nat) (value : Json) : String := String.ofList (chars indent 0 value)

end CodeAtlas.Json
