import CodeAtlas.Json.Value

/-!
# Reading JSON

`Json.parse?` reads a text that holds one value.  Every reader takes the text that is left and, if
it succeeds, hands on a shorter one.
-/

namespace CodeAtlas.Json

/-- The text without the blanks at its beginning. -/
def skipBlanks (s : List Char) : List Char :=
  s.dropWhile fun c => c = ' ' || c = '\t' || c = '\n' || c = '\r'

/-- The value of a hexadecimal digit. -/
def hexValue? (c : Char) : Option Nat :=
  if '0' ≤ c && c ≤ '9' then some (c.toNat - 48)
  else if 'a' ≤ c && c ≤ 'f' then some (c.toNat - 87)
  else if 'A' ≤ c && c ≤ 'F' then some (c.toNat - 55)
  else none

/-- The unit of sixteen bits that four digits stand for. -/
def unit? (a b c d : Char) : Option Nat := do
  return (((← hexValue? a) * 16 + (← hexValue? b)) * 16 + (← hexValue? c)) * 16 + (← hexValue? d)

/-- The character that one letter behind a backslash stands for. -/
def shortEscape? : Char → Option Char
  | '"' => some '"'
  | '\\' => some '\\'
  | '/' => some '/'
  | 'b' => some '\x08'
  | 'f' => some '\x0c'
  | 'n' => some '\n'
  | 'r' => some '\r'
  | 't' => some '\t'
  | _ => none

/-- A piece of a string: a character, or a unit of sixteen bits that was written as an escape. -/
inductive Piece where
  | char (c : Char)
  | unit (n : Nat)

/-- Puts a piece before the rest of a string that was read. -/
def consPiece (p : Piece) : Option (List Piece × List Char) → Option (List Piece × List Char)
  | some (ps, rest) => some (p :: ps, rest)
  | none => none

/-- Reads the pieces of a string up to its closing quote. -/
def pieces? : List Char → Option (List Piece × List Char)
  | '"' :: rest => some ([], rest)
  | '\\' :: 'u' :: a :: b :: c :: d :: rest =>
    match unit? a b c d with
    | some n => consPiece (.unit n) (pieces? rest)
    | none => none
  | '\\' :: c :: rest =>
    match shortEscape? c with
    | some e => consPiece (.char e) (pieces? rest)
    | none => none
  | c :: rest => if c < ' ' then none else consPiece (.char c) (pieces? rest)
  | [] => none

/-- The characters that pieces stand for; two halves of a pair stand for one. -/
def joinPieces : List Piece → List Char
  | [] => []
  | .char c :: ps => c :: joinPieces ps
  | .unit high :: .unit low :: ps =>
    if 0xd800 ≤ high && high < 0xdc00 && 0xdc00 ≤ low && low < 0xe000 then
      Char.ofNat (0x10000 + (high - 0xd800) * 0x400 + (low - 0xdc00)) :: joinPieces ps
    else Char.ofNat high :: joinPieces (.unit low :: ps)
  | .unit n :: ps => Char.ofNat n :: joinPieces ps

/-- Reads the rest of a string up to its closing quote. -/
def string? (s : List Char) : Option (String × List Char) :=
  (pieces? s).map fun (ps, rest) => (String.ofList (joinPieces ps), rest)

/-- The digits at the beginning of a text and what follows them. -/
def digits (s : List Char) : List Char × List Char := s.span Char.isDigit

/-- The natural number that digits stand for. -/
def natural (ds : List Char) : Nat := ds.foldl (fun n c => n * 10 + (c.toNat - 48)) 0

/-- Reads the fraction of a number. -/
def fraction (s : List Char) : List Char × List Char :=
  match s with
  | '.' :: rest =>
    match digits rest with
    | ([], _) => ([], s)
    | (ds, rest) => (ds, rest)
  | _ => ([], s)

/-- Reads the exponent of a number. -/
def exponent (s : List Char) : Option Int × List Char :=
  match s with
  | e :: rest =>
    if e = 'e' || e = 'E' then
      let (negative, behind) := match rest with
        | '-' :: r => (true, r)
        | '+' :: r => (false, r)
        | _ => (false, rest)
      match digits behind with
      | ([], _) => (none, s)
      | (ds, rest) => (some (if negative then -(natural ds : Int) else natural ds), rest)
    else (none, s)
  | [] => (none, s)

/-- Reads a number without its sign. -/
def number? (negative : Bool) (s : List Char) : Option (Json × List Char) :=
  let whole := match s with
    | '0' :: rest => (['0'], rest)
    | _ => digits s
  match whole with
  | ([], _) => none
  | (ds, rest) =>
    let (fs, rest) := fraction rest
    let (e, rest) := exponent rest
    if fs.isEmpty && e.isNone then
      let n : Int := natural ds
      some (int (if negative then -n else n), rest)
    else
      some (float (Double.ofDecimal negative (natural (ds ++ fs)) (e.getD 0 - fs.length)), rest)

/-- Reads a fixed word. -/
def word? (w : String) (value : Json) (s : List Char) : Option (Json × List Char) :=
  if w.toList.isPrefixOf s then some (value, s.drop w.length) else none

/-- Reads a value without parts, or none if the text begins with a bracket. -/
def scalar? (s : List Char) : Option (Json × List Char) :=
  match s with
  | '"' :: rest => (string? rest).map fun (s, rest) => (str s, rest)
  | 'n' :: _ => word? "null" null s
  | 't' :: _ => word? "true" (bool true) s
  | 'f' :: _ => word? "false" (bool false) s
  | 'N' :: _ => word? "NaN" (float .nan) s
  | 'I' :: _ => word? "Infinity" (float (.infinite false)) s
  | '-' :: 'I' :: _ => word? "-Infinity" (float (.infinite true)) s
  | '-' :: rest => number? true rest
  | _ => number? false s

mutual
/-- Reads a value; `fuel` bounds the number of values that are read in a row or in one another. -/
def value? : Nat → List Char → Option (Json × List Char)
  | 0, _ => none
  | fuel + 1, s =>
    match s with
    | '[' :: rest =>
      match skipBlanks rest with
      | ']' :: rest => some (arr [], rest)
      | rest => items? fuel [] rest
    | '{' :: rest =>
      match skipBlanks rest with
      | '}' :: rest => some (obj [], rest)
      | rest => members? fuel [] rest
    | _ => scalar? s

/-- Reads the items of an array and its closing bracket. -/
def items? : Nat → List Json → List Char → Option (Json × List Char)
  | 0, _, _ => none
  | fuel + 1, found, s =>
    match value? fuel s with
    | none => none
    | some (item, rest) =>
      match skipBlanks rest with
      | ',' :: rest => items? fuel (item :: found) (skipBlanks rest)
      | ']' :: rest => some (arr (item :: found).reverse, rest)
      | _ => none

/-- Reads the members of an object and its closing brace. -/
def members? : Nat → List (String × Json) → List Char → Option (Json × List Char)
  | 0, _, _ => none
  | fuel + 1, found, s =>
    match s with
    | '"' :: rest =>
      match string? rest with
      | none => none
      | some (key, rest) =>
        match skipBlanks rest with
        | ':' :: rest =>
          match value? fuel (skipBlanks rest) with
          | none => none
          | some (value, rest) =>
            let found := (key, value) :: found
            match skipBlanks rest with
            | ',' :: rest => members? fuel found (skipBlanks rest)
            | '}' :: rest => some (obj found.reverse, rest)
            | _ => none
        | _ => none
    | _ => none
end

/-- The value that a text holds, if it holds one and nothing else. -/
def parse? (text : String) : Option Json :=
  let s := skipBlanks text.toList
  match value? (s.length + 1) s with
  | some (value, rest) => if (skipBlanks rest).isEmpty then some value else none
  | none => none

end CodeAtlas.Json
