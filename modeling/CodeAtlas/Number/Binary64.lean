/-!
# Floating-point numbers of double precision

A finite number is a sign, a mantissa and an exponent: `mantissa · 2 ^ (exponent - 1074)`.  Each has
exactly one such form, because the mantissa is below `2 ^ 53` and, above the lowest exponent, not
below `2 ^ 52`.  `roundRatio` finds the number nearest to a quotient of two naturals, a tie going to
the even mantissa, and is exact: everything else that rounds is defined by it.
-/

namespace CodeAtlas

/-- A finite floating-point number of double precision. -/
structure Binary64 where
  negative : Bool
  mantissa : Nat
  exponent : Nat
  mantissa_lt : mantissa < 0x20000000000000
  exponent_le : exponent ≤ 2045
  normal : exponent = 0 ∨ 0x10000000000000 ≤ mantissa
deriving DecidableEq

namespace Binary64

/-- How many steps of the lowest exponent make one, which is `2 ^ 1074`. -/
def stepsPerOne : Nat := Nat.pow 2 1074

/-- Zero. -/
def zero : Binary64 := ⟨false, 0, 0, by decide, by decide, .inl rfl⟩

instance : Inhabited Binary64 := ⟨zero⟩

/-- The quotient of two naturals rounded to a natural, a tie going to the even one. -/
def roundQuotient (num den : Nat) : Nat :=
  let q := num / den
  let r := num % den
  if 2 * r < den || (2 * r = den && q % 2 = 0) then q else q + 1

/-- The number with the given mantissa and exponent, where a mantissa of `2 ^ 53` is carried over;
none if it is too large. -/
def ofParts (negative : Bool) (mantissa exponent : Nat) : Option Binary64 :=
  if h : mantissa < 0x20000000000000 ∧ exponent ≤ 2045
      ∧ (exponent = 0 ∨ 0x10000000000000 ≤ mantissa) then
    some ⟨negative, mantissa, exponent, h.1, h.2.1, h.2.2⟩
  else if h : mantissa = 0x20000000000000 ∧ exponent < 2045 then
    some ⟨negative, 0x10000000000000, exponent + 1, by decide, by omega, .inr (Nat.le_refl _)⟩
  else none

/-- The number nearest to `num / den`; none if that is too large for a finite one. -/
def roundRatio (negative : Bool) (num den : Nat) : Option Binary64 :=
  let scaled := num * stepsPerOne
  let bits := (scaled / den).log2
  let exponent := bits - 52
  ofParts negative (roundQuotient scaled (den * Nat.pow 2 exponent)) exponent

/-- The number nearest to an integer. -/
def ofInt? (n : Int) : Option Binary64 := roundRatio (n < 0) n.natAbs 1

/-- How many steps of the lowest exponent the number is from zero. -/
def scaled (x : Binary64) : Int :=
  let magnitude := x.mantissa * Nat.pow 2 x.exponent
  if x.negative then -(magnitude : Int) else magnitude

/-- The number is zero. -/
def isZero (x : Binary64) : Bool := x.mantissa = 0

/-- The bits of the number in the interchange format. -/
def toBits (x : Binary64) : UInt64 :=
  let magnitude := if x.mantissa < 0x10000000000000 then x.mantissa
    else (x.exponent + 1) * 0x10000000000000 + (x.mantissa - 0x10000000000000)
  UInt64.ofNat (magnitude + (if x.negative then 0x8000000000000000 else 0))

/-- The finite number with given bits. -/
def ofBits? (bits : UInt64) : Option Binary64 :=
  let n := bits.toNat
  let negative := 0x8000000000000000 ≤ n
  let magnitude := n % 0x8000000000000000
  let exponent := magnitude / 0x10000000000000
  let fraction := magnitude % 0x10000000000000
  if exponent = 0 then ofParts negative fraction 0
  else if exponent < 2047 then ofParts negative (0x10000000000000 + fraction) (exponent - 1)
  else none

end Binary64

/-- A floating-point number of double precision. -/
inductive Double where
  | finite (x : Binary64)
  | infinite (negative : Bool)
  | nan
deriving DecidableEq, Inhabited

namespace Double

/-- The number nearest to `num / den`. -/
def ofRatio (negative : Bool) (num den : Nat) : Double :=
  (Binary64.roundRatio negative num den).elim (infinite negative) finite

/-- The number nearest to an integer. -/
def ofInt (n : Int) : Double := ofRatio (n < 0) n.natAbs 1

/-- The number nearest to `digits · 10 ^ exponent`.  Exponents beyond those of any finite number are
cut off first, because the power is taken exactly. -/
def ofDecimal (negative : Bool) (digits : Nat) (exponent : Int) : Double :=
  if digits = 0 then finite { Binary64.zero with negative := negative }
  else
    let size : Int := (Nat.toDigits 10 digits).length
    if exponent + size > 400 then infinite negative
    else if exponent + size < -400 then finite { Binary64.zero with negative := negative }
    else if exponent < 0 then ofRatio negative digits (Nat.pow 10 exponent.natAbs)
    else ofRatio negative (digits * Nat.pow 10 exponent.natAbs) 1

/-- The number as the machine holds it. -/
def toFloat : Double → Float
  | finite x => Float.ofBits x.toBits
  | infinite negative => if negative then -(1.0 / 0.0) else 1.0 / 0.0
  | nan => 0.0 / 0.0

/-- A number that the machine holds. -/
def ofFloat (x : Float) : Double :=
  if x.isNaN then nan
  else if x.isInf then infinite (x < 0.0)
  else match Binary64.ofBits? x.toBits with
    | some y => finite y
    | none => nan

/-- The sum, rounded. -/
def add : Double → Double → Double
  | finite x, finite y =>
    let sum := x.scaled + y.scaled
    if sum = 0 then finite { Binary64.zero with negative := x.negative && y.negative }
    else ofRatio (sum < 0) sum.natAbs Binary64.stepsPerOne
  | infinite a, infinite b => if a = b then infinite a else nan
  | infinite a, finite _ => infinite a
  | finite _, infinite b => infinite b
  | _, _ => nan

/-- The number with the other sign. -/
def neg : Double → Double
  | finite x => finite { x with negative := !x.negative }
  | infinite negative => infinite !negative
  | nan => nan

/-- The difference, rounded. -/
def sub (x y : Double) : Double := x.add y.neg

/-- Half of an integer that has a nearest finite number, by the number; none for larger ones. -/
def half? (n : Int) : Option Double :=
  (Binary64.ofInt? n).map fun x => ofRatio x.negative x.scaled.natAbs
    (2 * Binary64.stepsPerOne)

/-- The quotient of two integers, rounded once; none if it is too large. -/
def quotient? (num : Int) (den : Nat) : Option Double :=
  (Binary64.roundRatio (num < 0) num.natAbs den).map finite

/-- The first number is below the second. -/
def lt : Double → Double → Bool
  | nan, _ | _, nan => false
  | finite x, finite y => x.scaled < y.scaled
  | infinite a, infinite b => a && !b
  | infinite a, finite _ => a
  | finite _, infinite b => !b

end Double

end CodeAtlas
