/-!
# Beginnings of lists
-/

namespace CodeAtlas

/-- The first elements of a list, or all but the last ones if the number is negative. -/
def slice {α : Type} (limit : Int) (xs : List α) : List α :=
  if limit < 0 then xs.take (xs.length - limit.natAbs) else xs.take limit.toNat

end CodeAtlas
