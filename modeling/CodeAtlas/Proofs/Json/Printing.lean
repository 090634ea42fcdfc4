import CodeAtlas.Json.Printer
import CodeAtlas.Proofs.Json.Grammar
import CodeAtlas.Proofs.Number.ShortestDecimal

/-!
# Printed values are texts of the grammar

What is printed for a value stands for the value by the grammar of JSON, in every layout
(`isText_render`), unless a number in it is infinite or `nan`: there is no text for these.

The digits of a decimal are written in four ways, with an exponent or with a point behind, among or
before them; each stands for the decimal (`spellsNumber_written`), and the shortest decimal of a
number is rounded to it.  A character is written as itself, as a short escape, or as one or two
escaped units (`spellsChar_escapeChar`).
-/

namespace CodeAtlas.Json

/-! ### Digits -/

theorem natural_eq (ds : List Char) : natural ds = Nat.ofDigitChars 10 ds 0 := by
  rw [natural, Nat.ofDigitChars_eq_foldl]
  congr
  funext n c
  rw [Nat.mul_comm]
  rfl

theorem natural_append (ds es : List Char) :
    natural (ds ++ es) = natural ds * 10 ^ es.length + natural es := by
  rw [natural_eq, natural_eq, natural_eq, Nat.ofDigitChars_append,
    Nat.ofDigitChars_eq_ofDigitChars_zero, Nat.mul_comm]

theorem natural_toDigits (n : Nat) : natural (Nat.toDigits 10 n) = n := by
  rw [natural_eq, Nat.ofDigitChars_ten_toDigits]

theorem natural_zeros (k : Nat) : natural (List.replicate k '0') = 0 := by
  rw [natural_eq, Nat.ofDigitChars_replicate_zero, Nat.mul_zero]

theorem natural_append_zeros (ds : List Char) (k : Nat) :
    natural (ds ++ List.replicate k '0') = natural ds * 10 ^ k := by
  rw [natural_append, natural_zeros, List.length_replicate, Nat.add_zero]

theorem natural_zeros_append (k : Nat) (ds : List Char) :
    natural (List.replicate k '0' ++ ds) = natural ds := by
  rw [natural_append, natural_zeros, Nat.zero_mul, Nat.zero_add]

theorem isDigits_toDigits (n : Nat) : IsDigits (Nat.toDigits 10 n) :=
  ⟨Nat.toDigits_ne_nil, fun _ hc => Nat.isDigit_of_mem_toDigits (by decide) (by decide) hc⟩

theorem isDigit_of_mem_zeros {k : Nat} {c : Char} (h : c ∈ List.replicate k '0') :
    c.isDigit = true := by
  rw [List.eq_of_mem_replicate h]
  rfl

theorem IsDigits.append_zeros {ds : List Char} (h : IsDigits ds) (k : Nat) :
    IsDigits (ds ++ List.replicate k '0') := by
  refine ⟨List.append_ne_nil_of_left_ne_nil h.1 _, fun c hc => ?_⟩
  rcases List.mem_append.mp hc with hc | hc
  · exact h.2 c hc
  · exact isDigit_of_mem_zeros hc

theorem IsDigits.zeros_append {ds : List Char} (h : IsDigits ds) (k : Nat) :
    IsDigits (List.replicate k '0' ++ ds) := by
  refine ⟨List.append_ne_nil_of_right_ne_nil _ h.1, fun c hc => ?_⟩
  rcases List.mem_append.mp hc with hc | hc
  · exact isDigit_of_mem_zeros hc
  · exact h.2 c hc

theorem digitChar_ne_zero : ∀ n < 10, 0 < n → n.digitChar ≠ '0' := by decide

/-- The first digit of a positive number is not zero. -/
theorem head?_toDigits_ne {n : Nat} (hn : 0 < n) : (Nat.toDigits 10 n).head? ≠ some '0' := by
  induction n using Nat.strongRecOn with
  | _ n ih =>
  rcases Nat.lt_or_ge n 10 with hlt | hle
  · rw [Nat.toDigits_of_lt_base hlt, List.head?_cons]
    intro h
    exact digitChar_ne_zero n hlt hn (Option.some.inj h)
  · rw [Nat.toDigits_of_base_le (by decide) hle,
      List.head?_append_of_ne_nil _ Nat.toDigits_ne_nil]
    exact ih (n / 10) (by omega) (by omega)

theorem isWhole_toDigits (n : Nat) : IsWhole (Nat.toDigits 10 n) := by
  rcases Nat.eq_zero_or_pos n with rfl | hn
  · exact Or.inl rfl
  · exact Or.inr ⟨isDigits_toDigits n, head?_toDigits_ne hn⟩

/-! ### Decimals -/

theorem trimZeros_append (s : List Char) :
    (Decimal.trimZeros s).1 ++ List.replicate (Decimal.trimZeros s).2 '0' = s := by
  unfold Decimal.trimZeros
  dsimp only
  have hsplit : (s.reverse.dropWhile (· = '0')).reverse ++ (s.reverse.takeWhile (· = '0')).reverse
      = s := by
    rw [← List.reverse_append, List.takeWhile_append_dropWhile, List.reverse_reverse]
  have hzeros : (s.reverse.takeWhile (· = '0')).reverse
      = List.replicate (s.length - (s.reverse.dropWhile (· = '0')).reverse.length) '0' := by
    rw [List.eq_replicate_iff]
    refine ⟨?_, fun c hc => ?_⟩
    · have hlength := congrArg List.length hsplit
      rw [List.length_append] at hlength
      omega
    · simpa using List.mem_takeWhile_imp (List.mem_reverse.mp hc)
  rw [← hzeros, hsplit]

/-- The digits of a positive number without the zeros at their end. -/
theorem trimZeros_toDigits {n : Nat} (hn : 0 < n) :
    IsDigits (Decimal.trimZeros (Nat.toDigits 10 n)).1 ∧
      (Decimal.trimZeros (Nat.toDigits 10 n)).1.head? ≠ some '0' ∧
      natural (Decimal.trimZeros (Nat.toDigits 10 n)).1
        * 10 ^ (Decimal.trimZeros (Nat.toDigits 10 n)).2 = n := by
  have happend := trimZeros_append (Nat.toDigits 10 n)
  generalize Decimal.trimZeros (Nat.toDigits 10 n) = trimmed at happend ⊢
  obtain ⟨ds, zeros⟩ := trimmed
  have hnatural : natural ds * 10 ^ zeros = n := by
    rw [← natural_append_zeros, happend, natural_toDigits]
  have hne : ds ≠ [] := by
    rintro rfl
    rw [show natural [] = 0 from rfl, Nat.zero_mul] at hnatural
    omega
  refine ⟨⟨hne, fun c hc => ?_⟩, ?_, hnatural⟩
  · apply (isDigits_toDigits n).2
    rw [← happend]
    exact List.mem_append_left _ hc
  · have hhead := head?_toDigits_ne hn
    rwa [← happend, List.head?_append_of_ne_nil _ hne] at hhead

/-- A number of the same value as the digits. -/
theorem SpellsNumber.ofValue {negative : Bool} {ds s fs t : List Char} {e : Option Int}
    (hds : IsWhole ds) (hs : SpellsFraction s fs) (ht : SpellsExponent t e)
    (hsome : fs ≠ [] ∨ e ≠ none) {n k : Nat} (hn : natural (ds ++ fs) = n * 10 ^ k) {x : Int}
    (hx : e.getD 0 - fs.length = x - k) :
    SpellsNumber negative (ds ++ s ++ t) (float (Double.ofDecimal negative n x)) := by
  have h := @SpellsNumber.decimal negative ds s fs t e hds hs ht hsome
  rwa [hn, hx, Double.ofDecimal_shift] at h

/-- The text of an exponent has a sign and two digits at least. -/
theorem spellsExponent_padLeft (e : Int) :
    SpellsExponent
      ("e" ++ (if e < 0 then "-" else "+") ++ Decimal.padLeft 2 (Decimal.digits e.natAbs)).toList
      (some e) := by
  have hdigits : IsDigits (Decimal.padLeft 2 (Decimal.digits e.natAbs)).toList ∧
      natural (Decimal.padLeft 2 (Decimal.digits e.natAbs)).toList = e.natAbs := by
    simp only [Decimal.padLeft, Decimal.digits, String.toList_append, String.toList_ofList]
    exact ⟨(isDigits_toDigits _).zeros_append _, by rw [natural_zeros_append, natural_toDigits]⟩
  obtain ⟨hdigits, hnatural⟩ := hdigits
  split_ifs with hneg
  · have h := SpellsExponent.present (Or.inl rfl) SpellsSign.minus hdigits
    rw [hnatural, if_pos rfl, show -(e.natAbs : Int) = e by omega] at h
    rwa [String.toList_append, String.toList_append]
  · have h := SpellsExponent.present (Or.inl rfl) SpellsSign.plus hdigits
    rw [hnatural, if_neg Bool.false_ne_true, show (e.natAbs : Int) = e by omega] at h
    rwa [String.toList_append, String.toList_append]

section Notations

variable (negative : Bool) {ds : List Char} (hds : IsDigits ds) (hhead : ds.head? ≠ some '0')
include hds hhead

theorem spellsNumber_zerosBehind {e : Int} (he : 0 ≤ e) :
    SpellsNumber negative (ds ++ List.replicate e.toNat '0' ++ ['.', '0'])
      (float (Double.ofDecimal negative (natural ds) e)) := by
  have hwhole : IsWhole (ds ++ List.replicate e.toNat '0') := by
    refine Or.inr ⟨hds.append_zeros _, ?_⟩
    rwa [List.head?_append_of_ne_nil _ hds.1]
  have hfraction : SpellsFraction ['.', '0'] ['0'] := .present (isDigits_toDigits 0)
  have hn : natural (ds ++ List.replicate e.toNat '0' ++ ['0'])
      = natural ds * 10 ^ (e.toNat + 1) := by
    rw [List.append_assoc, ← List.replicate_succ' , natural_append_zeros]
  have hx : (none : Option Int).getD 0 - (['0'].length : Int) = e - (e.toNat + 1 : Nat) := by
    rw [Option.getD_none, List.length_singleton]
    omega
  rw [← List.append_nil (ds ++ _ ++ _)]
  exact .ofValue hwhole hfraction .absent (Or.inl (List.cons_ne_nil _ _)) hn hx

theorem spellsNumber_pointAmong {e : Int} (hneg : e < 0) (hlength : 0 < e + ds.length) :
    SpellsNumber negative
      (ds.take (ds.length - e.natAbs) ++ '.' :: ds.drop (ds.length - e.natAbs))
      (float (Double.ofDecimal negative (natural ds) e)) := by
  have hsplit : ds.take (ds.length - e.natAbs) ++ ds.drop (ds.length - e.natAbs) = ds :=
    List.take_append_drop _ _
  have hlength_take : (ds.take (ds.length - e.natAbs)).length = ds.length - e.natAbs :=
    List.length_take_of_le (Nat.sub_le _ _)
  have hlength_drop : (ds.drop (ds.length - e.natAbs)).length = e.natAbs := by
    rw [List.length_drop]
    omega
  generalize ds.take (ds.length - e.natAbs) = whole at hsplit hlength_take ⊢
  generalize ds.drop (ds.length - e.natAbs) = behind at hsplit hlength_drop ⊢
  have hne : whole ≠ [] := List.ne_nil_of_length_pos (by omega)
  have hne' : behind ≠ [] := List.ne_nil_of_length_pos (by omega)
  have hwhole : IsWhole whole := by
    refine Or.inr ⟨⟨hne, fun c hc => hds.2 c ?_⟩, ?_⟩
    · rw [← hsplit]
      exact List.mem_append_left _ hc
    · rwa [← hsplit, List.head?_append_of_ne_nil _ hne] at hhead
  have hfraction : SpellsFraction ('.' :: behind) behind := by
    refine .present ⟨hne', fun c hc => hds.2 c ?_⟩
    rw [← hsplit]
    exact List.mem_append_right _ hc
  have hn : natural (whole ++ behind) = natural ds * 10 ^ 0 := by
    rw [hsplit, Nat.pow_zero, Nat.mul_one]
  have hx : (none : Option Int).getD 0 - (behind.length : Int) = e - (0 : Nat) := by
    rw [Option.getD_none]
    omega
  rw [← List.append_nil (_ ++ _ :: _)]
  exact .ofValue hwhole hfraction .absent (Or.inl hne') hn hx

omit hhead in
theorem spellsNumber_zerosBefore {e : Int} (hlength : e + ds.length ≤ 0) :
    SpellsNumber negative ('0' :: '.' :: (List.replicate (e.natAbs - ds.length) '0' ++ ds))
      (float (Double.ofDecimal negative (natural ds) e)) := by
  have hbehind := hds.zeros_append (e.natAbs - ds.length)
  have hn : natural (['0'] ++ (List.replicate (e.natAbs - ds.length) '0' ++ ds))
      = natural ds * 10 ^ 0 := by
    rw [Nat.pow_zero, Nat.mul_one]
    show natural (List.replicate 1 '0' ++ _) = _
    rw [natural_zeros_append, natural_zeros_append]
  have hx : (none : Option Int).getD 0
      - ((List.replicate (e.natAbs - ds.length) '0' ++ ds).length : Int) = e - (0 : Nat) := by
    rw [Option.getD_none, List.length_append, List.length_replicate]
    omega
  rw [← List.append_nil ('0' :: '.' :: _)]
  exact .ofValue (Or.inl rfl) (.present hbehind) .absent (Or.inl hbehind.1) hn hx

end Notations

theorem spellsNumber_exponential_one (negative : Bool) {d : Char} (hds : IsDigits [d])
    (hhead : [d].head? ≠ some '0') (e : Int) {t : List Char} (ht : SpellsExponent t (some e)) :
    SpellsNumber negative (d :: t) (float (Double.ofDecimal negative (natural [d]) e)) := by
  have hn : natural ([d] ++ []) = natural [d] * 10 ^ 0 := by
    rw [List.append_nil, Nat.pow_zero, Nat.mul_one]
  have hx : (some e).getD 0 - (([] : List Char).length : Int) = e - (0 : Nat) := rfl
  exact .ofValue (Or.inr ⟨hds, hhead⟩) .absent ht (Or.inr (Option.some_ne_none _)) hn hx

theorem spellsNumber_exponential (negative : Bool) {d d' : Char} {rest : List Char}
    (hds : IsDigits (d :: d' :: rest)) (hhead : (d :: d' :: rest).head? ≠ some '0') (e : Int)
    {t : List Char} (ht : SpellsExponent t (some (e + (d :: d' :: rest).length - 1))) :
    SpellsNumber negative (d :: '.' :: d' :: rest ++ t)
      (float (Double.ofDecimal negative (natural (d :: d' :: rest)) e)) := by
  have hwhole : IsWhole [d] :=
    Or.inr ⟨⟨List.cons_ne_nil _ _, fun c hc => hds.2 c (by simp_all)⟩, hhead⟩
  have hfraction : SpellsFraction ('.' :: d' :: rest) (d' :: rest) :=
    .present ⟨List.cons_ne_nil _ _, fun c hc => hds.2 c (List.mem_cons_of_mem d hc)⟩
  have hn : natural ([d] ++ d' :: rest) = natural (d :: d' :: rest) * 10 ^ 0 := by
    rw [Nat.pow_zero, Nat.mul_one, List.singleton_append]
  have hx : (some (e + ((d :: d' :: rest).length : Int) - 1)).getD 0 - ((d' :: rest).length : Int)
      = e - (0 : Nat) := by
    rw [Option.getD_some, List.length_cons (a := d)]
    omega
  exact .ofValue hwhole hfraction ht (Or.inl (List.cons_ne_nil _ _)) hn hx

/-- Every notation stands for the decimal. -/
theorem spellsNumber_written (negative : Bool) {n : Nat} (hn : 0 < n) (e : Int) :
    SpellsNumber negative (Decimal.written n e).toList
      (float (Double.ofDecimal negative n e)) := by
  obtain ⟨hds, hhead, hnatural⟩ := trimZeros_toDigits hn
  unfold Decimal.written
  generalize Decimal.trimZeros (Nat.toDigits 10 n) = trimmed at hds hhead hnatural ⊢
  obtain ⟨ds, zeros⟩ := trimmed
  dsimp only at hds hhead hnatural ⊢
  have hvalue : Double.ofDecimal negative n e
      = Double.ofDecimal negative (natural ds) (e + zeros) := by
    rw [← Double.ofDecimal_shift negative (natural ds) zeros, hnatural, Int.add_sub_cancel]
  rw [hvalue]
  clear hvalue hnatural hn
  generalize e + zeros = e
  have hexponent := spellsExponent_padLeft (e + ds.length - 1)
  generalize (if e + (ds.length : Int) - 1 < 0 then "-" else "+") = sign at hexponent ⊢
  simp only [Bool.or_eq_true, decide_eq_true_eq]
  split_ifs with hfar hwholes hamong
  · rcases ds with _ | ⟨d, _ | ⟨d', rest⟩⟩
    · exact absurd rfl hds.1
    · rw [show e + (([d] : List Char).length : Int) - 1 = e by simp] at hexponent ⊢
      have h := spellsNumber_exponential_one negative hds hhead e hexponent
      simpa [String.toList_append, List.append_assoc] using h
    · have h := spellsNumber_exponential negative hds hhead e hexponent
      simpa only [String.toList_append, List.append_assoc, String.toList_ofList] using h
  · rw [String.toList_append, String.toList_ofList]
    exact spellsNumber_zerosBehind negative hds hhead hwholes
  · have hlength : 0 < e + ds.length := by omega
    simp only [String.toList_append, String.toList_ofList, List.append_assoc]
    exact spellsNumber_pointAmong negative hds hhead (by omega) hlength
  · have hlength : e + ds.length ≤ 0 := by omega
    simp only [String.toList_append, String.toList_ofList]
    exact spellsNumber_zerosBefore negative hds hlength

/-- Zero has a text of its own, because it has no first digit. -/
theorem spellsNumber_zero (negative : Bool) :
    SpellsNumber negative ['0', '.', '0']
      (float (.finite { Binary64.zero with negative := negative })) := by
  have hvalue : Double.ofDecimal negative (natural ['0', '0']) (-1)
      = .finite { Binary64.zero with negative := negative } := rfl
  rw [← hvalue]
  exact @SpellsNumber.decimal negative ['0'] ['.', '0'] ['0'] [] none (Or.inl rfl)
    (.present (isDigits_toDigits 0)) .absent (Or.inl (List.cons_ne_nil _ _))

theorem eq_zero_of_isZero {x : Binary64} (h : x.isZero = true) :
    x = { Binary64.zero with negative := x.negative } := by
  have hmantissa : x.mantissa = 0 := of_decide_eq_true h
  refine Binary64.eq_of_negative_eq rfl ?_
  rw [Binary64.magnitude, hmantissa, Nat.zero_mul]
  rfl

theorem exists_text_shortestText (x : Binary64) :
    ∃ text, Decimal.shortestText (.finite x) = (if x.negative then "-" else "") ++ text ∧
      SpellsNumber x.negative text.toList (float (.finite x)) := by
  refine ⟨_, rfl, ?_⟩
  split_ifs with hzero
  · rw [eq_zero_of_isZero hzero]
    exact spellsNumber_zero x.negative
  · obtain ⟨hdigits, hvalue⟩ := Decimal.ofDecimal_shortest (Bool.eq_false_iff.mpr hzero)
    generalize Decimal.shortest x = decimal at hdigits hvalue ⊢
    rw [← hvalue]
    exact spellsNumber_written x.negative hdigits decimal.2

/-- The text of a finite number stands for the number. -/
theorem denotes_shortestText (x : Binary64) :
    Denotes (Decimal.shortestText (.finite x)).toList (float (.finite x)) := by
  obtain ⟨text, htext, hnumber⟩ := exists_text_shortestText x
  rw [htext, String.toList_append]
  cases hnegative : x.negative with
  | false =>
    rw [hnegative] at hnumber
    exact .number hnumber
  | true =>
    rw [hnegative] at hnumber
    exact .negative hnumber

/-! ### Strings -/

theorem hexValue?_hexDigit : ∀ n < 16, hexValue? (hexDigit n) = some n := by decide

theorem unit?_hexDigits {n : Nat} (h : n < 0x10000) :
    unit? (hexDigit (n / 4096 % 16)) (hexDigit (n / 256 % 16)) (hexDigit (n / 16 % 16))
      (hexDigit (n % 16)) = some n := by
  have hdigit : ∀ m, hexValue? (hexDigit (m % 16)) = some (m % 16) :=
    fun m => hexValue?_hexDigit _ (Nat.mod_lt m (by decide))
  simp only [unit?, hdigit]
  show some _ = some n
  congr 1
  omega

theorem spellsChar_escapeUnit {c : Char} (h : c.toNat < 0x10000) :
    SpellsChar (escapeUnit c.toNat) c :=
  .unit (unit?_hexDigits h)

theorem spellsChar_escapeChar (c : Char) : SpellsChar (escapeChar c) c := by
  unfold escapeChar
  split_ifs with hquote hslash hn hr ht hb hf hplain hsmall
  · subst hquote; exact .short rfl
  · subst hslash; exact .short rfl
  · subst hn; exact .short rfl
  · subst hr; exact .short rfl
  · subst ht; exact .short rfl
  · subst hb; exact .short rfl
  · subst hf; exact .short rfl
  · rw [Bool.and_eq_true, decide_eq_true_eq, decide_eq_true_eq] at hplain
    exact .plain hplain.1 hquote hslash
  · exact spellsChar_escapeUnit hsmall
  · have hvalid := toNat_lt_or_le c
    exact .pair (unit?_hexDigits (by omega)) (unit?_hexDigits (by omega)) (by omega) (by omega)
      (by omega)

theorem spells_flatMap (s : List Char) : Spells (s.flatMap escapeChar) s := by
  induction s with
  | nil => exact .nil
  | cons c s ih => exact .cons (spellsChar_escapeChar c) ih

theorem denotes_quote (s : String) : Denotes (quote s.toList) (str s) :=
  .string (spells_flatMap s.toList)

theorem denotes_integer (n : Int) : Denotes (integer n) (int n) := by
  have hwhole := isWhole_toDigits n.natAbs
  unfold integer
  split_ifs with hneg
  · have h := Denotes.negative (.integer hwhole)
    rwa [natural_toDigits, if_pos rfl, show -(n.natAbs : Int) = n by omega] at h
  · have h := Denotes.number (.integer hwhole)
    rwa [natural_toDigits, if_neg Bool.false_ne_true, show (n.natAbs : Int) = n by omega] at h

/-! ### Values in values -/

/-- A statement holds of every value if it holds of arrays and objects as soon as it holds of what
is in them. -/
theorem induction {motive : Json → Prop} (null : motive null) (bool : ∀ b, motive (bool b))
    (int : ∀ n, motive (int n)) (float : ∀ x, motive (float x)) (str : ∀ s, motive (str s))
    (arr : ∀ items, (∀ v ∈ items, motive v) → motive (arr items))
    (obj : ∀ members, (∀ m ∈ members, motive m.2) → motive (obj members)) (v : Json) : motive v :=
  match v with
  | .null => null
  | .bool b => bool b
  | .int n => int n
  | .float x => float x
  | .str s => str s
  | .arr items => arr items fun v _hv => induction null bool int float str arr obj v
  | .obj members => obj members fun m _hm => induction null bool int float str arr obj m.2
termination_by sizeOf v
decreasing_by
  · have hsize := List.sizeOf_lt_of_mem _hv
    rw [Json.arr.sizeOf_spec]
    omega
  · have hsize := List.sizeOf_lt_of_mem _hm
    have hpair : sizeOf m = 1 + sizeOf m.1 + sizeOf m.2 := rfl
    rw [Json.obj.sizeOf_spec]
    omega

/-- A value is somewhere in another. -/
inductive Occurs (w : Json) : Json → Prop where
  | self : Occurs w w
  | item {items : List Json} {v : Json} (hv : v ∈ items) (h : Occurs w v) : Occurs w (arr items)
  | member {members : List (String × Json)} {m : String × Json} (hm : m ∈ members)
      (h : Occurs w m.2) : Occurs w (obj members)

/-- A statement holds of a value and of all values in it. -/
def Everywhere (p : Json → Prop) (v : Json) : Prop := ∀ w, Occurs w v → p w

theorem everywhere_arr {p : Json → Prop} {items : List Json} :
    Everywhere p (arr items) ↔ p (arr items) ∧ ∀ v ∈ items, Everywhere p v := by
  refine ⟨fun h => ⟨h _ .self, fun v hv w hw => h w (.item hv hw)⟩, fun ⟨hself, h⟩ w hw => ?_⟩
  cases hw with
  | self => exact hself
  | item hv hw => exact h _ hv w hw

theorem everywhere_obj {p : Json → Prop} {members : List (String × Json)} :
    Everywhere p (obj members) ↔ p (obj members) ∧ ∀ m ∈ members, Everywhere p m.2 := by
  refine ⟨fun h => ⟨h _ .self, fun m hm w hw => h w (.member hm hw)⟩, fun ⟨hself, h⟩ w hw => ?_⟩
  cases hw with
  | self => exact hself
  | member hm hw => exact h _ hm w hw

/-- The value is not a number that is infinite or `nan`. -/
def IsFinite : Json → Prop
  | float x => ∃ y, x = .finite y
  | _ => True

/-! ### Values -/

theorem blank_lineBreak (indent : Option Nat) (depth : Nat) : Blank (lineBreak indent depth) := by
  cases indent with
  | none => exact fun c hc => absurd hc List.not_mem_nil
  | some n =>
    intro c hc
    rcases List.mem_cons.mp hc with rfl | hc
    · exact Or.inr (Or.inr (Or.inl rfl))
    · exact Or.inl (List.eq_of_mem_replicate hc)

/-- Between two items there are a comma and blanks. -/
theorem exists_separator (indent : Option Nat) (depth : Nat) :
    ∃ a, separator indent depth = ',' :: a ∧ Blank a := by
  cases indent with
  | none => exact ⟨[' '], rfl, fun c hc => Or.inl (List.mem_singleton.mp hc)⟩
  | some n => exact ⟨_, rfl, blank_lineBreak (some n) depth⟩

theorem blank_nil : Blank [] := fun _ hc => absurd hc List.not_mem_nil

theorem blank_space : Blank [' '] := fun _ hc => Or.inl (List.mem_singleton.mp hc)

section Layout

variable (indent : Option Nat) (depth : Nat) {b : List Char} (hb : Blank b)
include hb

theorem denotesItems_chars {item : Json} {items : List Json}
    (h : ∀ v ∈ item :: items, Denotes (chars indent depth v) v) {a : List Char} (ha : Blank a) :
    DenotesItems (a ++ chars indent depth item ++ itemChars indent depth items ++ b)
      (item :: items) := by
  induction items generalizing item a with
  | nil =>
    rw [itemChars, List.append_nil]
    exact .last ha (h item List.mem_cons_self) hb
  | cons next items ih =>
    obtain ⟨c, hseparator, hc⟩ := exists_separator indent depth
    have hnext := ih (fun v hv => h v (List.mem_cons_of_mem item hv)) hc
    have hall := DenotesItems.cons ha (h item List.mem_cons_self) blank_nil hnext
    rw [itemChars, hseparator]
    simpa [List.append_assoc] using hall

theorem denotesMembers_chars {key : String} {value : Json} {members : List (String × Json)}
    (h : ∀ m ∈ (key, value) :: members, Denotes (chars indent depth m.2) m.2) {a : List Char}
    (ha : Blank a) :
    DenotesMembers (a ++ quote key.toList ++ [':', ' '] ++ chars indent depth value
      ++ memberChars indent depth members ++ b) ((key, value) :: members) := by
  induction members generalizing key value a with
  | nil =>
    have hall := DenotesMembers.last ha (spells_flatMap key.toList) blank_nil blank_space
      (h (key, value) List.mem_cons_self) hb
    rw [memberChars, List.append_nil]
    simpa [quote, List.append_assoc] using hall
  | cons next members ih =>
    obtain ⟨c, hseparator, hc⟩ := exists_separator indent depth
    have hnext := ih (fun m hm => h m (List.mem_cons_of_mem _ hm)) hc
    have hall := DenotesMembers.cons ha (spells_flatMap key.toList) blank_nil blank_space
      (h (key, value) List.mem_cons_self) blank_nil hnext
    rw [memberChars, hseparator]
    simpa [quote, List.append_assoc] using hall

end Layout

/-- The text of a value stands for it, at every depth of every layout. -/
theorem denotes_chars (indent : Option Nat) {v : Json} (h : v.Everywhere IsFinite) (depth : Nat) :
    Denotes (chars indent depth v) v := by
  induction v using Json.induction generalizing depth with
  | null => exact .null
  | bool b =>
    cases b with
    | false => exact .false
    | true => exact .true
  | int n => exact denotes_integer n
  | float x =>
    obtain ⟨y, rfl⟩ := h _ .self
    exact denotes_shortestText y
  | str s => exact denotes_quote s
  | arr items ih =>
    cases items with
    | nil => exact .emptyArray blank_nil
    | cons item items =>
      have hfinite := (everywhere_arr.mp h).2
      have hitems := denotesItems_chars indent (depth + 1) (blank_lineBreak indent depth)
        (fun v hv => ih v hv (hfinite v hv) (depth + 1)) (blank_lineBreak indent (depth + 1))
      simpa [chars, List.append_assoc] using Denotes.array hitems
  | obj members ih =>
    cases members with
    | nil => exact .emptyObject blank_nil
    | cons m members =>
      have hfinite := (everywhere_obj.mp h).2
      have hmembers := denotesMembers_chars indent (depth + 1) (blank_lineBreak indent depth)
        (fun m hm => ih m hm (hfinite m hm) (depth + 1)) (blank_lineBreak indent (depth + 1))
      simpa [chars, List.append_assoc] using Denotes.object hmembers

/-- The text of a value is a text of JSON for the value, in every layout. -/
theorem isText_render (indent : Option Nat) {v : Json} (h : v.Everywhere IsFinite) :
    IsText (render indent v) v := by
  refine ⟨[], chars indent 0 v, [], ?_, blank_nil, denotes_chars indent h 0, blank_nil⟩
  rw [render, String.toList_ofList, List.nil_append, List.append_nil]

example : render (some 1) (.arr [.str "é😀\n", .obj [],
      .float (.finite ⟨true, 0x1999999999999A, 1018, by decide, by decide, .inr (by decide)⟩)])
    = "[\n \"\\u00e9\\ud83d\\ude00\\n\",\n \x7b\x7d,\n -0.1\n]" := by decide +kernel

/-- What was printed is read again. -/
theorem parse?_render (indent : Option Nat) {v : Json} (h : v.Everywhere IsFinite) :
    parse? (render indent v) = some v :=
  parse?_of_isText (isText_render indent h)

end CodeAtlas.Json
