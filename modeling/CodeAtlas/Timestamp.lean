import CodeAtlas.Number.Decimal

/-!
# Moments

A date and a time of day to the microsecond, with the distance from universal time where it is
known.
-/

namespace CodeAtlas

/-- A moment; the offset counts minutes east of universal time. -/
structure Timestamp where
  year : Nat
  month : Nat
  day : Nat
  hour : Nat
  minute : Nat
  second : Nat
  microsecond : Nat
  offset : Option Int
deriving DecidableEq, Inhabited

namespace Timestamp

/-- A number in at least the given number of digits. -/
def padded (width n : Nat) : String := Decimal.padLeft width (Decimal.digits n)

/-- The offset as a sign, hours and minutes. -/
def offsetText (minutes : Int) : String :=
  (if minutes < 0 then "-" else "+") ++ padded 2 (minutes.natAbs / 60) ++ ":"
    ++ padded 2 (minutes.natAbs % 60)

/-- The moment in the international format; microseconds are left out when there are none. -/
def toText (t : Timestamp) : String :=
  padded 4 t.year ++ "-" ++ padded 2 t.month ++ "-" ++ padded 2 t.day ++ "T"
    ++ padded 2 t.hour ++ ":" ++ padded 2 t.minute ++ ":" ++ padded 2 t.second
    ++ (if t.microsecond = 0 then "" else "." ++ padded 6 t.microsecond)
    ++ (match t.offset with
      | none => ""
      | some minutes => offsetText minutes)

end Timestamp

end CodeAtlas
