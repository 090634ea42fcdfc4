import CodeAtlas.Timestamp
import Mathlib.Data.String.Basic
import Mathlib.Tactic.SplitIfs

/-!
# Moments as text

`Timestamp.IsoText t s` describes the international format: fields of a fixed number of digits with
marks between them, a fraction of six digits unless the second is whole, and the offset as hours and
minutes if it is known.  The text of a moment whose fields are in range is of this form
(`Timestamp.isoText_toText`), and no other moment has it (`Timestamp.IsoText.eq_of_eq`).
-/

namespace CodeAtlas.Timestamp

/-- So many digits stand for a number. -/
def IsField (width n : Nat) (s : List Char) : Prop :=
  s.length = width ∧ (∀ c ∈ s, c.isDigit = true) ∧ Nat.ofDigitChars 10 s 0 = n

/-- The fraction of a second. -/
inductive IsoFraction : Nat → List Char → Prop where
  | whole : IsoFraction 0 []
  | part {n : Nat} {s : List Char} (hn : n ≠ 0) (h : IsField 6 n s) : IsoFraction n ('.' :: s)

/-- The offset from universal time. -/
inductive IsoOffset : Option Int → List Char → Prop where
  | unknown : IsoOffset none []
  | east {hours minutes : Nat} {s t : List Char} (hhours : IsField 2 hours s)
      (hminutes : IsField 2 minutes t) (hlt : minutes < 60) :
      IsoOffset (some (hours * 60 + minutes)) ('+' :: s ++ ':' :: t)
  | west {hours minutes : Nat} {s t : List Char} (hhours : IsField 2 hours s)
      (hminutes : IsField 2 minutes t) (hlt : minutes < 60) (hpos : 0 < hours * 60 + minutes) :
      IsoOffset (some (-(hours * 60 + minutes))) ('-' :: s ++ ':' :: t)

/-- The text of a moment in the international format. -/
inductive IsoText (t : Timestamp) : List Char → Prop where
  | mk {year month day hour minute second fraction offset : List Char}
      (hyear : IsField 4 t.year year) (hmonth : IsField 2 t.month month)
      (hday : IsField 2 t.day day) (hhour : IsField 2 t.hour hour)
      (hminute : IsField 2 t.minute minute) (hsecond : IsField 2 t.second second)
      (hfraction : IsoFraction t.microsecond fraction) (hoffset : IsoOffset t.offset offset) :
      IsoText t (year ++ '-' :: month ++ '-' :: day ++ 'T' :: hour ++ ':' :: minute
        ++ ':' :: second ++ fraction ++ offset)

/-- The fields are in the ranges of a calendar and of a clock. -/
structure IsInRange (t : Timestamp) : Prop where
  year : t.year ≤ 9999
  month : t.month ≤ 12
  day : t.day ≤ 31
  hour : t.hour ≤ 23
  minute : t.minute ≤ 59
  second : t.second ≤ 59
  microsecond : t.microsecond ≤ 999999
  offset : ∀ minutes ∈ t.offset, minutes.natAbs < 24 * 60

theorem isField_padded {width n : Nat} (hwidth : 0 < width) (h : n < 10 ^ width) :
    IsField width n (padded width n).toList := by
  have hlength : (Nat.toDigits 10 n).length ≤ width :=
    (Nat.length_toDigits_le_iff (by decide) hwidth).mpr h
  have htext : (padded width n).toList
      = List.replicate (width - (Nat.toDigits 10 n).length) '0' ++ Nat.toDigits 10 n := by
    simp [padded, Decimal.padLeft, Decimal.digits]
  rw [htext]
  refine ⟨?_, fun c hc => ?_, ?_⟩
  · rw [List.length_append, List.length_replicate]
    omega
  · rcases List.mem_append.mp hc with hc | hc
    · rw [List.eq_of_mem_replicate hc]
      rfl
    · exact Nat.isDigit_of_mem_toDigits (by decide) (by decide) hc
  · rw [Nat.ofDigitChars_append, Nat.ofDigitChars_replicate_zero, Nat.mul_zero,
      Nat.ofDigitChars_ten_toDigits]

theorem isoFraction_toText {n : Nat} (h : n ≤ 999999) :
    IsoFraction n (if n = 0 then "" else "." ++ padded 6 n).toList := by
  split_ifs with hzero
  · rw [hzero]
    exact .whole
  · rw [String.toList_append]
    exact .part hzero (isField_padded (by decide) (by omega))

theorem isoOffset_offsetText {minutes : Int} (h : minutes.natAbs < 24 * 60) :
    IsoOffset (some minutes) (offsetText minutes).toList := by
  have hhours := isField_padded (show 0 < 2 by decide) (show minutes.natAbs / 60 < 10 ^ 2 by omega)
  have hminutes := isField_padded (show 0 < 2 by decide)
    (show minutes.natAbs % 60 < 10 ^ 2 by omega)
  have hlt : minutes.natAbs % 60 < 60 := Nat.mod_lt _ (by decide)
  unfold offsetText
  split_ifs with hneg
  · have hoffset := IsoOffset.west hhours hminutes hlt (by omega)
    rw [show -(((minutes.natAbs / 60 : Nat) : Int) * 60 + (minutes.natAbs % 60 : Nat)) = minutes
      by omega] at hoffset
    simpa [List.append_assoc] using hoffset
  · have hoffset := IsoOffset.east hhours hminutes hlt
    rw [show ((minutes.natAbs / 60 : Nat) : Int) * 60 + (minutes.natAbs % 60 : Nat) = minutes
      by omega] at hoffset
    simpa [List.append_assoc] using hoffset

/-- All fields but the offset are in their places. -/
theorem isoText_of_offset {t : Timestamp} (h : t.IsInRange) {offset : String}
    (hoffset : IsoOffset t.offset offset.toList) :
    IsoText t (padded 4 t.year ++ "-" ++ padded 2 t.month ++ "-" ++ padded 2 t.day ++ "T"
      ++ padded 2 t.hour ++ ":" ++ padded 2 t.minute ++ ":" ++ padded 2 t.second
      ++ (if t.microsecond = 0 then "" else "." ++ padded 6 t.microsecond) ++ offset).toList := by
  have htwo : ∀ {n}, n ≤ 99 → IsField 2 n (padded 2 n).toList :=
    fun hn => isField_padded (by decide) (by omega)
  have hyear : IsField 4 t.year (padded 4 t.year).toList :=
    isField_padded (by decide) (Nat.lt_succ_of_le h.year)
  have htext := IsoText.mk hyear (htwo (h.month.trans (by decide))) (htwo (h.day.trans (by decide)))
    (htwo (h.hour.trans (by decide))) (htwo (h.minute.trans (by decide)))
    (htwo (h.second.trans (by decide))) (isoFraction_toText h.microsecond) hoffset
  simpa [List.append_assoc] using htext

/-- Moments are written in the international format. -/
theorem isoText_toText {t : Timestamp} (h : t.IsInRange) : IsoText t t.toText.toList := by
  unfold toText
  apply isoText_of_offset h
  have hrange := h.offset
  cases hoffset : t.offset with
  | none => exact .unknown
  | some minutes => exact isoOffset_offsetText (hrange minutes hoffset)

/-! ### The moment of a text -/

theorem IsField.unique {width n m : Nat} {s : List Char} (hn : IsField width n s)
    (hm : IsField width m s) : n = m :=
  hn.2.2.symm.trans hm.2.2

/-- Fields of one width are equal if they begin equal texts. -/
theorem IsField.append_inj {width n m : Nat} {s t u v : List Char} (hn : IsField width n s)
    (hm : IsField width m t) (h : s ++ u = t ++ v) : n = m ∧ u = v := by
  obtain ⟨rfl, huv⟩ := List.append_inj h (hn.1.trans hm.1.symm)
  exact ⟨hn.unique hm, huv⟩

theorem IsoOffset.eq_of_eq {o o' : Option Int} {s s' : List Char} (h : IsoOffset o s)
    (h' : IsoOffset o' s') (heq : s = s') : o = o' := by
  cases h with
  | unknown =>
    cases h' with
    | unknown => rfl
    | east | west => cases heq
  | east hhours hminutes =>
    cases h' with
    | unknown => cases heq
    | east hhours' hminutes' =>
      obtain ⟨rfl, hbehind⟩ := hhours.append_inj hhours' (List.cons.inj heq).2
      obtain rfl := (List.cons.inj hbehind).2
      rw [hminutes.unique hminutes']
    | west => exact absurd (List.cons.inj heq).1 (by decide)
  | west hhours hminutes =>
    cases h' with
    | unknown => cases heq
    | east => exact absurd (List.cons.inj heq).1 (by decide)
    | west hhours' hminutes' =>
      obtain ⟨rfl, hbehind⟩ := hhours.append_inj hhours' (List.cons.inj heq).2
      obtain rfl := (List.cons.inj hbehind).2
      rw [hminutes.unique hminutes']

/-- No offset begins with the mark of a fraction. -/
theorem IsoOffset.ne_point {o : Option Int} {s : List Char} (h : IsoOffset o s) (t : List Char) :
    s ≠ '.' :: t := by
  rintro rfl
  cases h

theorem IsoFraction.append_inj {n n' : Nat} {o o' : Option Int} {s s' u u' : List Char}
    (hs : IsoFraction n s) (hu : IsoOffset o u) (hs' : IsoFraction n' s') (hu' : IsoOffset o' u')
    (heq : s ++ u = s' ++ u') : n = n' ∧ o = o' := by
  cases hs with
  | whole =>
    cases hs' with
    | whole => exact ⟨rfl, hu.eq_of_eq hu' heq⟩
    | part => exact absurd heq (hu.ne_point _)
  | part hn h =>
    cases hs' with
    | whole => exact absurd heq.symm (hu'.ne_point _)
    | part hn' h' =>
      obtain ⟨rfl, hbehind⟩ := h.append_inj h' (List.cons.inj heq).2
      exact ⟨rfl, hu.eq_of_eq hu' hbehind⟩

/-- A text is that of one moment only. -/
theorem IsoText.eq_of_eq {t u : Timestamp} {s s' : List Char} (ht : IsoText t s)
    (hu : IsoText u s') (hs : s = s') : t = u := by
  obtain ⟨hyear, hmonth, hday, hhour, hminute, hsecond, hfraction, hoffset⟩ := ht
  obtain ⟨hyear', hmonth', hday', hhour', hminute', hsecond', hfraction', hoffset'⟩ := hu
  simp only [List.append_assoc, List.cons_append] at hs
  obtain ⟨h1, hs⟩ := hyear.append_inj hyear' hs
  obtain ⟨h2, hs⟩ := hmonth.append_inj hmonth' (List.cons.inj hs).2
  obtain ⟨h3, hs⟩ := hday.append_inj hday' (List.cons.inj hs).2
  obtain ⟨h4, hs⟩ := hhour.append_inj hhour' (List.cons.inj hs).2
  obtain ⟨h5, hs⟩ := hminute.append_inj hminute' (List.cons.inj hs).2
  obtain ⟨h6, hs⟩ := hsecond.append_inj hsecond' (List.cons.inj hs).2
  obtain ⟨h7, h8⟩ := hfraction.append_inj hoffset hfraction' hoffset' hs
  cases t
  cases u
  simp_all

end CodeAtlas.Timestamp
