import CodeAtlas.Json.Parser
import CodeAtlas.Text.Blank

/-!
# Reading the values of settings

A setting is given as text or, in an object, as any JSON value.  Numbers and truth values are read
from text in several spellings; everything else must be of the right kind.
-/

namespace CodeAtlas

/-- What is wrong with the value of a setting. -/
inductive FieldFault where
  | notAnInteger
  | integerTooLong
  | fractional
  | notFinite
  | integerKind
  | notANumber
  | numberKind
  | notATruthValue
  | truthKind
  | textKind
  | listKind
  | sectionKind
  | unusable
deriving DecidableEq, Inhabited

/-- The name of a fault. -/
def FieldFault.name : FieldFault → String
  | notAnInteger => "int_parsing"
  | integerTooLong => "int_parsing_size"
  | fractional => "int_from_float"
  | notFinite => "finite_number"
  | integerKind => "int_type"
  | notANumber => "float_parsing"
  | numberKind => "float_type"
  | notATruthValue => "bool_parsing"
  | truthKind => "bool_type"
  | textKind => "string_type"
  | listKind => "list_type"
  | sectionKind => "model_type"
  | unusable => "value_error"

/-- A fault with the place at which it lies. -/
structure FieldError where
  place : List String
  fault : FieldFault
deriving DecidableEq, Inhabited

/-- A value, or everything that is wrong with it. -/
abbrev Checked (α : Type) := Except (List FieldError) α

namespace Checked

/-- A function that has yet to be given its values. -/
def of {α : Type} (f : α) : Checked α := .ok f

/-- Gives a function its next value; the faults of both are kept. -/
def give {α β : Type} (a : Checked α) (f : Checked (α → β)) : Checked β :=
  match f, a with
  | .ok f, .ok a => .ok (f a)
  | .error e, .ok _ => .error e
  | .ok _, .error e => .error e
  | .error e, .error e' => .error (e ++ e')

end Checked

namespace FieldText

/-- The character counts as a blank around a number. -/
def isSpace (c : Char) : Bool := Text.isBlank c && !(0x1c ≤ c.toNat && c.toNat ≤ 0x1f)

/-- The characters without the blanks at their ends. -/
def trim (cs : List Char) : List Char :=
  ((cs.dropWhile isSpace).reverse.dropWhile isSpace).reverse

/-- The digits of a number without underscores, if each of these stands between two characters that
are none; otherwise the digits as they are. -/
def withoutUnderscores (cs : List Char) : List Char :=
  let doubled := (cs.zip (cs.drop 1)).any fun (a, b) => a = '_' && b = '_'
  if cs.head? = some '_' || cs.getLast? = some '_' || doubled then cs else cs.filter (· ≠ '_')

/-- What is left of a number behind the zeros and underscores at its beginning; a zero is kept
before a point, and the last character in any case. -/
def afterZeros : Char → List Char → Option (List Char)
  | previous, [] => some [previous]
  | previous, c :: rest =>
    if c = '0' || c = '_' then afterZeros c rest
    else if c.isDigit then some (c :: rest)
    else if c = '.' then some (previous :: c :: rest)
    else none

/-- A number without the zeros at its beginning; nothing else than a digit or a minus may be there.
-/
def dropLeadingZeros : List Char → Option (List Char)
  | [] => none
  | c :: rest =>
    if c = '0' then afterZeros c rest
    else if c.isDigit || c = '-' then some (c :: rest)
    else none

/-- A number without its fraction, which may hold zeros only. -/
def dropZeroFraction (cs : List Char) : Option (List Char) :=
  let whole := cs.takeWhile (· ≠ '.')
  if (cs.drop (whole.length + 1)).all (· = '0') then some whole else none

/-- Digits without superfluous zeros as a natural number. -/
def plainNatural? : List Char → Option Nat
  | [] => none
  | '0' :: _ :: _ => none
  | cs => if cs.all Char.isDigit then some (Json.natural cs) else none

/-- No integer is read from more digits than this. -/
def maxDigits : Nat := 4300

/-- The integer that a text spells. -/
def integer (text : String) : Except FieldFault Int :=
  let spelled : Option (List Char) := do
    let cs ← match trim text.toList with
      | '+' :: '-' :: _ => none
      | '+' :: rest => some rest
      | cs => some cs
    return withoutUnderscores (← dropZeroFraction (← dropLeadingZeros cs))
  let digits := match spelled with
    | some ('-' :: cs) => (true, plainNatural? cs, cs.length)
    | some cs => (false, plainNatural? cs, cs.length)
    | none => (false, none, 0)
  match digits with
  | (negative, some n, size) =>
    if maxDigits < size then .error .integerTooLong
    else .ok (if negative then -(n : Int) else n)
  | (_, none, _) => .error .notAnInteger

/-- The number that characters without a sign spell. -/
def unsignedNumber? (negative : Bool) (cs : List Char) : Option Double :=
  let word := String.ofList (cs.map Char.toLower)
  if word = "inf" || word = "infinity" then some (.infinite negative)
  else if word = "nan" then some .nan
  else
    let (whole, rest) := Json.digits cs
    let (places, rest) := match rest with
      | '.' :: rest => Json.digits rest
      | _ => ([], rest)
    let (exponent, rest) := Json.exponent rest
    if (whole.isEmpty && places.isEmpty) || !rest.isEmpty then none
    else some (Double.ofDecimal negative (Json.natural (whole ++ places))
      (exponent.getD 0 - places.length))

/-- The number that characters spell. -/
def number? : List Char → Option Double
  | '-' :: rest => unsignedNumber? true rest
  | '+' :: rest => unsignedNumber? false rest
  | cs => unsignedNumber? false cs

/-- The floating-point number that a text spells. -/
def number (text : String) : Except FieldFault Double :=
  match (number? (trim text.toList)).or (number? (withoutUnderscores text.toList)) with
  | some x => .ok x
  | none => .error .notANumber

/-- The truth value that a text spells. -/
def truthValue (text : String) : Except FieldFault Bool :=
  let word := String.ofList (text.toList.map Char.toLower)
  if ["0", "off", "f", "false", "n", "no"].contains word then .ok false
  else if ["1", "on", "t", "true", "y", "yes"].contains word then .ok true
  else .error .notATruthValue

end FieldText

namespace FieldValue

/-- The integer that a floating-point number is. -/
def integerOf : Double → Except FieldFault Int
  | .finite x =>
    let n := x.scaled / (Binary64.stepsPerOne : Int)
    if n * (Binary64.stepsPerOne : Int) = x.scaled then .ok n else .error .fractional
  | _ => .error .notFinite

/-- An integer setting. -/
def integer : Json → Except FieldFault Int
  | .int n => .ok n
  | .bool b => .ok (if b then 1 else 0)
  | .str s => FieldText.integer s
  | .float x => integerOf x
  | _ => .error .integerKind

/-- A floating-point setting. -/
def number : Json → Except FieldFault Double
  | .int n => .ok (.ofInt n)
  | .bool b => .ok (.ofInt (if b then 1 else 0))
  | .str s => FieldText.number s
  | .float x => .ok x
  | _ => .error .numberKind

/-- The truth value that an integer is. -/
def truthOf (n : Int) : Except FieldFault Bool :=
  if n = 0 then .ok false else if n = 1 then .ok true else .error .notATruthValue

/-- A setting that is true or false. -/
def truthValue : Json → Except FieldFault Bool
  | .bool b => .ok b
  | .int n => truthOf n
  | .str s => FieldText.truthValue s
  | .float x =>
    match integerOf x with
    | .ok n => truthOf n
    | .error _ => .error .truthKind
  | _ => .error .truthKind

/-- A setting that is text. -/
def text : Json → Except FieldFault String
  | .str s => .ok s
  | _ => .error .textKind

/-- A setting that may be left open. -/
def optional {α : Type} (read : Json → Except FieldFault α) : Json → Except FieldFault (Option α)
  | .null => .ok none
  | j => (read j).map some

/-- A reader whose faults lie at a place. -/
def at_ {α : Type} (name : String) (read : Json → Except FieldFault α) (j : Json) : Checked α :=
  (read j).mapError fun fault => [⟨[name], fault⟩]

/-- The items of a list of texts; faults are named by the index. -/
def textItems (name : String) : Nat → List Json → Checked (List String)
  | _, [] => .ok []
  | index, j :: rest =>
    let item := (text j).mapError fun fault => [(⟨[name, toString index], fault⟩ : FieldError)]
    Checked.of List.cons |> Checked.give item |> Checked.give (textItems name (index + 1) rest)

/-- A setting that is a list of texts. -/
def texts (name : String) : Json → Checked (List String)
  | .arr items => textItems name 0 items
  | _ => .error [⟨[name], .listKind⟩]

end FieldValue

end CodeAtlas
