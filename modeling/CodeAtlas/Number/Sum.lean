/-!
# Sums
-/

namespace CodeAtlas

/-- The sum of natural numbers. -/
def sumOf (ns : List Nat) : Nat := ns.foldr (· + ·) 0

/-- The sum of integers. -/
def integerSum (ns : List Int) : Int := ns.foldr (· + ·) 0

end CodeAtlas
