import CodeAtlas.Grammar.Semicolon

/-!
# Goals

The constructs that contain one another.  A production of the grammar is a parser that is given a
`Descent`, the way to read each goal one level further down, so that every production is a plain
definition and the recursion is tied in one place.
-/

namespace CodeAtlas.Grammar

open CodeAtlas.Syntax
open Grammar.Parser

/-- Where an expression stands. -/
structure Place where
  /-- `in` may be used as an operator. -/
  allowIn : Bool
  /-- A semicolon may be omitted behind the expression. -/
  ends : Bool
  /-- A colon follows the expression, as between the two marks of a conditional. -/
  colon : Bool
deriving DecidableEq, Repr, Inhabited

namespace Place

/-- Inside brackets. -/
def inner : Place := ⟨true, false, false⟩

/-- At the end of a statement. -/
def last : Place := ⟨true, true, false⟩

/-- Before a colon. -/
def beforeColon : Place := ⟨true, false, true⟩

end Place

/-- The constructs that contain one another. -/
inductive Goal where
  | statement
  /-- An expression without a comma. -/
  | expression (place : Place)
  /-- Operands joined by infix operators that bind more tightly than `level`. -/
  | infixChain (place : Place) (level : Nat)
  /-- An operand with its prefix operators, or an assignment. -/
  | operand (place : Place)
  /-- A name, member access, call or other expression without prefix operators; no call that is not
  part of it already unless `calls` is set. -/
  | chain (place : Place) (calls : Bool)
  /-- What may be bound or assigned to. -/
  | pattern
  /-- An element of markup. -/
  | element
  /-- A type. -/
  | type
deriving DecidableEq, Repr, Inhabited

/-- How to read each goal. -/
abbrev Descent : Type := Goal → Parser (List Node)

namespace Parser

/-- Any number of `p` with commas between them, each of which may be left out. -/
def sparse (p : Parser (List Node)) : Parser (List Node) :=
  seq [optional p, many (seq [punct ",", optional p])]

/-- Any number of `p` with commas between them and perhaps one at the end. -/
def listed (p : Parser (List Node)) : Parser (List Node) :=
  optional (seq [sepBy1 p (punct ","), optional (punct ",")])

/-- At least one `p`, with commas between them and perhaps one at the end. -/
def listed1 (p : Parser (List Node)) : Parser (List Node) :=
  seq [sepBy1 p (punct ","), optional (punct ",")]

/-- The kind of the last node of a list. -/
def lastKind? (ns : List Node) : Option Kind := ns.getLast?.map (·.kind)

/-- The text is at its end or was read to its end by some attempt. -/
def exhausted : Parser Bool := fun _ c reach => .done reach.rest.isEmpty c reach

end Parser

end CodeAtlas.Grammar
