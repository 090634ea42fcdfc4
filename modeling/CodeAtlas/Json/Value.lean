import CodeAtlas.Number.Binary64

/-!
# JSON values

Objects keep the order of their members.  Integers are exact; numbers with a fraction or an exponent
are floating-point.
-/

namespace CodeAtlas

/-- A JSON value. -/
inductive Json where
  | null
  | bool (b : Bool)
  | int (n : Int)
  | float (x : Double)
  | str (s : String)
  | arr (items : List Json)
  | obj (members : List (String × Json))
deriving Inhabited, BEq

namespace Json

/-- The last member of an object with a given key. -/
def get? (key : String) : Json → Option Json
  | obj members => (members.reverse.find? (·.1 == key)).map (·.2)
  | _ => none

/-- An array of strings. -/
def strings (ss : List String) : Json := arr (ss.map str)

/-- A value, or null where there is none. -/
def orNull {α : Type} (f : α → Json) : Option α → Json
  | some a => f a
  | none => null

/-- A natural number. -/
def nat (n : Nat) : Json := int n

end Json

end CodeAtlas
