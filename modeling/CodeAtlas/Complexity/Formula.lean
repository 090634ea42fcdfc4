import CodeAtlas.Number.Sum
import CodeAtlas.Record

/-!
# Scores

The maintainability of a piece of code from its complexity and its length, the complexity of a file
from that of its parts, and the technical debt of files whose complexity is above a threshold.
-/

namespace CodeAtlas

/-- Why a score cannot be computed. -/
inductive ScoreError where
  /-- An integer is too large for a floating-point number. -/
  | integerTooLarge
  /-- A quotient of integers is too large for a floating-point number. -/
  | quotientTooLarge
deriving DecidableEq, Inhabited

namespace ScoreError

/-- The wording of the error. -/
def message : ScoreError → String
  | integerTooLarge => "int too large to convert to float"
  | quotientTooLarge => "integer division result too large for a float"

end ScoreError

namespace Score

/-- One hundred. -/
def best : Double := Double.ofInt 100

/-- The number nearest to an integer. -/
def number (n : Int) : Except ScoreError Double :=
  (Binary64.ofInt? n).elim (.error .integerTooLarge) fun x => .ok (.finite x)

/-- The maintainability of code of a complexity above one and of at least one line:
`171 - 5.2 ln V - 0.23 C - 16.2 ln L` for the volume `V = L log₂ C`, brought between 0 and 100. -/
def index (cyclomatic lines : Float) : Double :=
  let volume := lines * cyclomatic.log2
  let value := 171.0 - 5.2 * volume.log - 0.23 * cyclomatic - 16.2 * lines.log
  let capped := if 100.0 < value then 100.0 else value
  Double.ofFloat (if capped > 0.0 then capped else 0.0)

/-- The maintainability of code of the given complexity and length: 100 where there are no lines or
where nothing branches, and the index elsewhere. -/
def maintainability (cyclomatic lines : Int) : Except ScoreError Double := do
  if lines ≤ 0 then return best
  let l ← number lines
  if cyclomatic ≤ 1 then return best
  return index (← number cyclomatic).toFloat l.toFloat

/-- The maintainability of code whose complexity is given as a floating-point number. -/
def maintainabilityOfReal (cyclomatic : Double) (lines : Int) : Except ScoreError Double := do
  if lines ≤ 0 then return best
  let l ← number lines
  if !(Double.ofInt 1).lt cyclomatic then return best
  return index cyclomatic.toFloat l.toFloat

/-- The complexity of a file whose functions and classes have the given complexities. -/
def fileComplexity (functions classes : List Int) (lines : Int) :
    Except ScoreError ComplexityRecord := do
  let cyclomatic := max 1 (integerSum functions + integerSum classes)
  return ⟨cyclomatic, cyclomatic, ← maintainability cyclomatic lines⟩

/-- Half a point of debt for every point of complexity above the threshold, added up in order and
rounded at each step. -/
def technicalDebt (threshold : Int) (cyclomatics : List Int) : Except ScoreError Double :=
  cyclomatics.foldlM (fun debt c =>
    if c - threshold > 0 then
      match Double.half? (c - threshold) with
      | some points => .ok (debt.add points)
      | none => .error .integerTooLarge
    else .ok debt) (.finite .zero)

/-- Twice the technical debt, without rounding. -/
def halfPointsOfDebt (threshold : Int) (cyclomatics : List Int) : Int :=
  integerSum (cyclomatics.map fun c => max 0 (c - threshold))

end Score

end CodeAtlas
