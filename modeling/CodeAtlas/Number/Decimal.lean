import CodeAtlas.Number.Binary64

/-!
# Decimal text of floating-point numbers

Two notations: a fixed number of places, and the shortest digits that read back as the same number.
Both are computed exactly from the mantissa and the exponent.
-/

namespace CodeAtlas

namespace Decimal

/-- The digits of a natural number. -/
def digits (n : Nat) : String := String.ofList (Nat.toDigits 10 n)

/-- Zeros before a text to make it `width` characters long. -/
def padLeft (width : Nat) (s : String) : String :=
  String.ofList (List.replicate (width - s.length) '0') ++ s

/-- `num / den` with a fixed number of places, a tie going to the even last digit. -/
def fixedRatio (places num den : Nat) : String :=
  let n := Binary64.roundQuotient (num * Nat.pow 10 places) den
  if places = 0 then digits n
  else digits (n / Nat.pow 10 places) ++ "." ++ padLeft places (digits (n % Nat.pow 10 places))

/-- A number with a fixed number of places. -/
def fixed (places : Nat) : Double → String
  | .finite x =>
    (if x.negative then "-" else "") ++ fixedRatio places x.scaled.natAbs
      Binary64.stepsPerOne
  | .infinite negative => if negative then "-inf" else "inf"
  | .nan => "nan"

/-! ### Shortest digits -/

/-- `n · 10 ^ e` reads back as `x`, signs aside. -/
def readsBack (x : Binary64) (n : Nat) (e : Int) : Bool :=
  let nearest := if e < 0 then Binary64.roundRatio false n (Nat.pow 10 e.natAbs)
    else Binary64.roundRatio false (n * Nat.pow 10 e.natAbs) 1
  match nearest with
  | some y => y.mantissa = x.mantissa && y.exponent = x.exponent
  | none => false

/-- The power of ten by which the first digit of `num / den` counts. -/
def leadingExponent (num den : Nat) : Int :=
  if den ≤ num then ((Nat.toDigits 10 (num / den)).length : Int) - 1
  else
    -- the quotient of the inverse, rounded up, has one digit more than there are zeros
    -((Nat.toDigits 10 ((den + num - 1) / num - 1)).length : Int)

/-- The natural number nearest to `num / den · 10 ^ e` from below. -/
def scaleDown (num den : Nat) (e : Int) : Nat :=
  if e < 0 then num / (den * Nat.pow 10 e.natAbs) else num * Nat.pow 10 e.natAbs / den

/-- The digits and the exponent of the shortest decimal that reads back as `x`, among those of
`count` digits or more; of two that do, the nearer one. -/
def shortestFrom (x : Binary64) (num : Nat) (lead : Int) : Nat → Nat → Nat × Int
  | 0, count => (scaleDown num Binary64.stepsPerOne (count - lead), lead - count)
  | fuel + 1, count =>
    let shift : Int := (count : Int) - 1 - lead
    let low := scaleDown num Binary64.stepsPerOne shift
    let fitsLow := low > 0 && readsBack x low (-shift)
    let fitsHigh := readsBack x (low + 1) (-shift)
    if fitsLow && fitsHigh then
      -- twice the value against the middle of the two
      let twice := 2 * num * Nat.pow 10 shift.toNat
      let middle := (2 * low + 1) * Binary64.stepsPerOne * Nat.pow 10 (-shift).toNat
      if twice < middle || (twice = middle && low % 2 = 0) then (low, -shift) else (low + 1, -shift)
    else if fitsLow then (low, -shift)
    else if fitsHigh then (low + 1, -shift)
    else shortestFrom x num lead fuel (count + 1)

/-- The shortest decimal `n · 10 ^ e` that reads back as `x`, signs aside. -/
def shortest (x : Binary64) : Nat × Int :=
  let num := x.mantissa * Nat.pow 2 x.exponent
  shortestFrom x num (leadingExponent num Binary64.stepsPerOne) 17 1

/-- Digits without the zeros at their end, and the number of those zeros. -/
def trimZeros (s : List Char) : List Char × Nat :=
  let kept := (s.reverse.dropWhile (· = '0')).reverse
  (kept, s.length - kept.length)

/-- A decimal text: positional where the first digit counts at least `10 ^ -4` and less than
`10 ^ 16`, with an exponent of at least two digits elsewhere; a point is always followed by a digit
in positional notation. -/
def written (n : Nat) (e : Int) : String :=
  let (ds, zeros) := trimZeros (Nat.toDigits 10 n)
  let e := e + zeros
  let lead := e + ds.length - 1
  if lead < -4 || lead ≥ 16 then
    let mantissa := match ds with
      | [] => "0"
      | [d] => String.singleton d
      | d :: rest => String.ofList (d :: '.' :: rest)
    mantissa ++ "e" ++ (if lead < 0 then "-" else "+") ++ padLeft 2 (digits lead.natAbs)
  else if e ≥ 0 then
    String.ofList (ds ++ List.replicate e.toNat '0') ++ ".0"
  else if lead ≥ 0 then
    let whole := ds.length - e.natAbs
    String.ofList (ds.take whole) ++ "." ++ String.ofList (ds.drop whole)
  else
    "0." ++ String.ofList (List.replicate (e.natAbs - ds.length) '0' ++ ds)

/-- The shortest text that reads back as the number. -/
def shortestText : Double → String
  | .finite x =>
    (if x.negative then "-" else "") ++
      (if x.isZero then "0.0" else let (n, e) := shortest x; written n e)
  | .infinite negative => if negative then "-Infinity" else "Infinity"
  | .nan => "NaN"

end Decimal

end CodeAtlas
