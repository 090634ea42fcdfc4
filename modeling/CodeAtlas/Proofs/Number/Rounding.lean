import CodeAtlas.Number.Binary64
import Mathlib.Algebra.Group.Nat.Defs
import Mathlib.Data.Nat.Log
import Mathlib.Order.Defs.PartialOrder
import Mathlib.Tactic.SplitIfs

/-!
# Rounding keeps the order

The numbers that are not `nan` stand in a row: `Double.position` counts the steps of the lowest
exponent from zero, and the infinite numbers stand where the first number that is too large would
(`Double.lt_iff`).  A quotient is rounded to a number that stands at `Binary64.nearest`, or at the
limit if that is beyond it (`Double.position_ofRatio`), and `nearest` grows with the quotient
(`Binary64.nearest_mono`).  So sums keep the order of their first parts
(`Double.lt_add_of_le`).
-/

namespace CodeAtlas

namespace Binary64

/-! ### Rounding a quotient -/

theorem roundQuotient_bounds (num den : Nat) :
    num / den ≤ roundQuotient num den ∧ roundQuotient num den ≤ num / den + 1 := by
  unfold roundQuotient
  dsimp only
  split_ifs <;> omega

theorem roundQuotient_mono {num num' : Nat} (den : Nat) (h : num ≤ num') :
    roundQuotient num den ≤ roundQuotient num' den := by
  rcases (Nat.div_le_div_right (c := den) h).lt_or_eq with hlt | heq
  · exact (roundQuotient_bounds num den).2.trans
      (hlt.trans_le (roundQuotient_bounds num' den).1)
  · -- The quotients are equal, so the remainders are in order.
    have hmod : num % den ≤ num' % den := by
      have hnum := Nat.div_add_mod num den
      have hnum' := Nat.div_add_mod num' den
      rw [heq] at hnum
      omega
    unfold roundQuotient
    dsimp only
    rw [heq]
    simp only [Bool.or_eq_true, Bool.and_eq_true, decide_eq_true_eq]
    split_ifs <;> omega

theorem roundQuotient_zero (den : Nat) : roundQuotient 0 den = 0 := by
  unfold roundQuotient
  rcases Nat.eq_zero_or_pos den with rfl | hpos
  · rfl
  · simp [hpos]

/-- The exponent with which `num / den` steps are rounded. -/
def roundingExponent (num den : Nat) : Nat := (num / den).log2 - 52

/-- The mantissa to which `num / den` steps are rounded. -/
def roundedMantissa (num den : Nat) : Nat :=
  roundQuotient num (den * 2 ^ roundingExponent num den)

/-- How many steps of the lowest exponent there are to the number nearest to `num / den` steps, as
if exponents had no limit. -/
def nearest (num den : Nat) : Nat := roundedMantissa num den * 2 ^ roundingExponent num den

/-- The mantissa has at most 53 bits, or is the next one. -/
theorem roundedMantissa_le (num den : Nat) : roundedMantissa num den ≤ 2 ^ 53 := by
  refine (roundQuotient_bounds _ _).2.trans ?_
  rw [← Nat.div_div_eq_div_mul]
  have hlt : num / den < 2 ^ roundingExponent num den * 2 ^ 53 := by
    rw [← Nat.pow_add]
    refine Nat.lt_log2_self.trans_le (Nat.pow_le_pow_right (by decide) ?_)
    unfold roundingExponent
    omega
  exact Nat.div_lt_of_lt_mul hlt

/-- Above the lowest exponent the mantissa has at least 53 bits. -/
theorem le_roundedMantissa {num den : Nat} (h : 0 < roundingExponent num den) :
    2 ^ 52 ≤ roundedMantissa num den := by
  refine le_trans ?_ (roundQuotient_bounds _ _).1
  rw [← Nat.div_div_eq_div_mul, Nat.le_div_iff_mul_le (Nat.two_pow_pos _), ← Nat.pow_add]
  have hlog : 52 + roundingExponent num den ≤ (num / den).log2 := by
    unfold roundingExponent at h ⊢
    omega
  have hne : num / den ≠ 0 := by
    intro hzero
    rw [hzero, Nat.log2_zero] at hlog
    omega
  exact (Nat.pow_le_pow_right (by decide) hlog).trans (Nat.log2_self_le hne)

theorem roundingExponent_mono {num num' : Nat} (den : Nat) (h : num ≤ num') :
    roundingExponent num den ≤ roundingExponent num' den := by
  have hlog : (num / den).log2 ≤ (num' / den).log2 := by
    rw [Nat.log2_eq_log_two, Nat.log2_eq_log_two]
    exact Nat.log_mono_right (Nat.div_le_div_right h)
  exact Nat.sub_le_sub_right hlog 52

theorem nearest_mono {num num' : Nat} (den : Nat) (h : num ≤ num') :
    nearest num den ≤ nearest num' den := by
  unfold nearest
  rcases (roundingExponent_mono den h).lt_or_eq with hlt | heq
  · -- The least mantissa with the greater exponent is beyond every one with the lesser.
    calc roundedMantissa num den * 2 ^ roundingExponent num den
        ≤ 2 ^ 53 * 2 ^ roundingExponent num den :=
          Nat.mul_le_mul_right _ (roundedMantissa_le num den)
      _ = 2 ^ 52 * 2 ^ (roundingExponent num den + 1) := by omega
      _ ≤ 2 ^ 52 * 2 ^ roundingExponent num' den :=
          Nat.mul_le_mul_left _ (Nat.pow_le_pow_right (by decide) hlt)
      _ ≤ roundedMantissa num' den * 2 ^ roundingExponent num' den :=
          Nat.mul_le_mul_right _ (le_roundedMantissa (Nat.zero_lt_of_lt hlt))
  · unfold roundedMantissa
    rw [heq]
    exact Nat.mul_le_mul_right _ (roundQuotient_mono _ h)

/-! ### Equal quotients -/

theorem roundQuotient_mul_right (num den : Nat) {k : Nat} (hk : 0 < k) :
    roundQuotient (num * k) (den * k) = roundQuotient num den := by
  have hlt : 2 * (num % den * k) < den * k ↔ 2 * (num % den) < den := by
    rw [← Nat.mul_assoc]
    exact Nat.mul_lt_mul_right hk
  have heq : 2 * (num % den * k) = den * k ↔ 2 * (num % den) = den := by
    rw [← Nat.mul_assoc]
    exact Nat.mul_left_inj hk.ne'
  unfold roundQuotient
  rw [Nat.mul_div_mul_right _ _ hk, Nat.mul_mod_mul_right]
  simp only [hlt, heq]

/-- A multiple of the denominator is rounded as a number of steps. -/
theorem nearest_mul_right (m : Nat) {den : Nat} (hden : 0 < den) :
    nearest (m * den) den = nearest m 1 := by
  have hexponent : roundingExponent (m * den) den = roundingExponent m 1 := by
    unfold roundingExponent
    rw [Nat.mul_div_cancel m hden, Nat.div_one]
  unfold nearest roundedMantissa
  rw [hexponent, Nat.mul_comm den, roundQuotient_mul_right _ _ hden, Nat.one_mul]

/-! ### Finite numbers -/

/-- The greatest exponent. -/
def lastExponent : Nat := 2045

/-- The least number of steps that is too large for a finite number. -/
def limit : Nat := 2 ^ 53 * 2 ^ lastExponent

theorem limit_pos : 0 < limit := Nat.mul_pos (Nat.two_pow_pos _) (Nat.two_pow_pos _)

/-- How many steps of the lowest exponent the number is from zero, either way. -/
def magnitude (x : Binary64) : Nat := x.mantissa * 2 ^ x.exponent

theorem scaled_eq (x : Binary64) :
    x.scaled = if x.negative then -(x.magnitude : Int) else x.magnitude := rfl

theorem magnitude_lt (x : Binary64) : x.magnitude < limit := by
  have hm : x.mantissa < 2 ^ 53 := x.mantissa_lt
  have hpow : 2 ^ x.exponent ≤ 2 ^ lastExponent := Nat.pow_le_pow_right (by decide) x.exponent_le
  exact (Nat.mul_lt_mul_of_pos_right hm (Nat.two_pow_pos _)).trans_le
    (Nat.mul_le_mul_left _ hpow)

/-- A mantissa and an exponent make a number of their magnitude, unless that reaches the limit. -/
theorem ofParts_spec (negative : Bool) {m e : Nat} (hm : m ≤ 2 ^ 53)
    (hnormal : 0 < e → 2 ^ 52 ≤ m) :
    (∃ x, ofParts negative m e = some x ∧ x.negative = negative ∧ x.magnitude = m * 2 ^ e) ∨
      (ofParts negative m e = none ∧ limit ≤ m * 2 ^ e) := by
  unfold ofParts
  split_ifs with hfits hcarry
  · exact Or.inl ⟨_, rfl, rfl, rfl⟩
  · obtain ⟨rfl, -⟩ := hcarry
    refine Or.inl ⟨_, rfl, rfl, ?_⟩
    show 2 ^ 52 * 2 ^ (e + 1) = 2 ^ 53 * 2 ^ e
    omega
  · refine Or.inr ⟨rfl, ?_⟩
    have hm' : m = 2 ^ 53 ∨ m < 2 ^ 53 := by omega
    unfold limit
    rcases hm' with rfl | hlt
    · have he : lastExponent ≤ e := by
        unfold lastExponent
        omega
      exact Nat.mul_le_mul_left _ (Nat.pow_le_pow_right (by decide) he)
    · have he : lastExponent + 1 ≤ e := by
        unfold lastExponent
        omega
      calc 2 ^ 53 * 2 ^ lastExponent = 2 ^ 52 * 2 ^ (lastExponent + 1) := by omega
        _ ≤ 2 ^ 52 * 2 ^ e := Nat.mul_le_mul_left _ (Nat.pow_le_pow_right (by decide) he)
        _ ≤ m * 2 ^ e := Nat.mul_le_mul_right _ (hnormal (by omega))

theorem roundRatio_eq (negative : Bool) (num den : Nat) :
    roundRatio negative num den
      = ofParts negative (roundedMantissa (num * stepsPerOne) den)
          (roundingExponent (num * stepsPerOne) den) := rfl

/-- A quotient is rounded to the number at `nearest`, unless that reaches the limit. -/
theorem roundRatio_spec (negative : Bool) (num den : Nat) :
    (∃ x, roundRatio negative num den = some x ∧ x.negative = negative ∧
      x.magnitude = nearest (num * stepsPerOne) den) ∨
      (roundRatio negative num den = none ∧ limit ≤ nearest (num * stepsPerOne) den) := by
  rw [roundRatio_eq]
  exact ofParts_spec negative (roundedMantissa_le _ _) le_roundedMantissa

/-! ### Numbers that need no rounding -/

/-- A multiple of the denominator is divided exactly. -/
theorem roundQuotient_mul_left (q : Nat) {den : Nat} (hden : 0 < den) :
    roundQuotient (q * den) den = q := by
  unfold roundQuotient
  simp [Nat.mul_div_cancel q hden, hden]

theorem roundingExponent_shift {n : Nat} (h : n < 2 ^ 53) (k : Nat) :
    roundingExponent (n * 2 ^ k) 1 ≤ k := by
  unfold roundingExponent
  rw [Nat.div_one]
  rcases Nat.eq_zero_or_pos n with rfl | hpos
  · rw [Nat.zero_mul, Nat.log2_zero]
    omega
  · have hlt : n * 2 ^ k < 2 ^ (53 + k) := by
      rw [Nat.pow_add]
      exact Nat.mul_lt_mul_of_pos_right h (Nat.two_pow_pos k)
    have hne : n * 2 ^ k ≠ 0 := (Nat.mul_pos hpos (Nat.two_pow_pos k)).ne'
    have hlog := (Nat.log2_lt hne).mpr hlt
    omega

/-- Natural numbers of at most 53 bits need no rounding, however far they are shifted. -/
theorem nearest_shift {n : Nat} (h : n < 2 ^ 53) (k : Nat) :
    nearest (n * 2 ^ k) 1 = n * 2 ^ k := by
  unfold nearest roundedMantissa
  obtain ⟨d, hd⟩ := Nat.exists_eq_add_of_le' (roundingExponent_shift h k)
  generalize roundingExponent (n * 2 ^ k) 1 = e at hd ⊢
  have hmul : n * 2 ^ k = n * 2 ^ d * (1 * 2 ^ e) := by
    rw [hd, Nat.pow_add, Nat.one_mul, Nat.mul_assoc]
  have hpos : 0 < 1 * 2 ^ e := by
    rw [Nat.one_mul]
    exact Nat.two_pow_pos e
  rw [hmul, roundQuotient_mul_left _ hpos, Nat.one_mul]

theorem shift_lt_limit {n k : Nat} (h : n < 2 ^ 53) (hk : k ≤ lastExponent) :
    n * 2 ^ k < limit := by
  have hpow : 2 ^ k ≤ 2 ^ lastExponent := Nat.pow_le_pow_right (by decide) hk
  exact (Nat.mul_lt_mul_of_pos_right h (Nat.two_pow_pos k)).trans_le (Nat.mul_le_mul_left _ hpow)

theorem stepsPerOne_pos : 0 < stepsPerOne := Nat.two_pow_pos _

/-- A quotient that is nearest to a number of steps below the limit is rounded to that number. -/
theorem roundRatio_of_nearest {num den steps : Nat} (h : nearest (num * stepsPerOne) den = steps)
    (hlimit : steps < limit) :
    ∃ x, roundRatio false num den = some x ∧ x.negative = false ∧ x.scaled = steps := by
  rcases roundRatio_spec false num den with ⟨x, hx, hsign, hmagnitude⟩ | ⟨-, hle⟩
  · refine ⟨x, hx, hsign, ?_⟩
    rw [scaled_eq, hsign, if_neg Bool.false_ne_true, hmagnitude, h]
  · rw [h] at hle
    exact absurd hlimit hle.not_gt

/-- Wholes of at most 53 bits need no rounding. -/
theorem nearest_wholes {n : Nat} (h : n < 2 ^ 53) :
    nearest (n * stepsPerOne) 1 = n * stepsPerOne ∧ n * stepsPerOne < limit := by
  have hsteps : stepsPerOne = 2 ^ 1074 := by rw [stepsPerOne, Nat.pow_eq]
  rw [hsteps]
  exact ⟨nearest_shift h 1074, shift_lt_limit h (by decide)⟩

/-- A natural number of at most 53 bits is a floating-point number. -/
theorem roundRatio_natural {n : Nat} (h : n < 2 ^ 53) :
    ∃ x, roundRatio false n 1 = some x ∧ x.scaled = n * stepsPerOne := by
  obtain ⟨hnearest, hlimit⟩ := nearest_wholes h
  obtain ⟨x, hx, -, hscaled⟩ := roundRatio_of_nearest hnearest hlimit
  exact ⟨x, hx, by rw [hscaled, Int.natCast_mul]⟩

end Binary64

namespace Double

open Binary64

/-! ### The order of the numbers -/

/-- How many steps of the lowest exponent the number is above zero, where the infinite numbers are
as far away as the first number that is too large. -/
def position : Double → Int
  | finite x => x.scaled
  | infinite negative => if negative then -(limit : Int) else limit
  | nan => 0

/-- Neither is `nan`, and the first is not above the second. -/
instance : LE Double where
  le x y := x ≠ nan ∧ y ≠ nan ∧ x.position ≤ y.position

instance (x y : Double) : Decidable (x ≤ y) :=
  inferInstanceAs (Decidable (x ≠ nan ∧ y ≠ nan ∧ x.position ≤ y.position))

theorem abs_position_finite_lt (x : Binary64) :
    -(limit : Int) < (finite x).position ∧ (finite x).position < limit := by
  have hlt := magnitude_lt x
  rw [position, scaled_eq]
  split_ifs <;> omega

theorem position_infinite_true : (infinite true).position = -(limit : Int) := by
  rw [position, if_pos rfl]

theorem position_infinite_false : (infinite false).position = limit := by
  rw [position, if_neg Bool.false_ne_true]

theorem position_infinite_lt : (infinite true).position < (infinite false).position := by
  have hlimit := limit_pos
  rw [position_infinite_true, position_infinite_false]
  omega

theorem position_infinite_lt_finite (x : Binary64) :
    (infinite true).position < (finite x).position := by
  rw [position_infinite_true]
  exact (abs_position_finite_lt x).1

theorem position_finite_lt_infinite (x : Binary64) :
    (finite x).position < (infinite false).position := by
  rw [position_infinite_false]
  exact (abs_position_finite_lt x).2

theorem lt_iff {x y : Double} (hx : x ≠ nan) (hy : y ≠ nan) :
    x.lt y = true ↔ x.position < y.position := by
  cases x with
  | nan => exact absurd rfl hx
  | finite x =>
    cases y with
    | nan => exact absurd rfl hy
    | finite y => exact decide_eq_true_iff
    | infinite b =>
      cases b with
      | false => exact iff_of_true rfl (position_finite_lt_infinite x)
      | true => exact iff_of_false Bool.false_ne_true (position_infinite_lt_finite x).not_gt
  | infinite a =>
    cases y with
    | nan => exact absurd rfl hy
    | finite y =>
      cases a with
      | false => exact iff_of_false Bool.false_ne_true (position_finite_lt_infinite y).not_gt
      | true => exact iff_of_true rfl (position_infinite_lt_finite y)
    | infinite b =>
      cases a with
      | false =>
        cases b with
        | false => exact iff_of_false Bool.false_ne_true (lt_irrefl _)
        | true => exact iff_of_false Bool.false_ne_true position_infinite_lt.not_gt
      | true =>
        cases b with
        | false => exact iff_of_true rfl position_infinite_lt
        | true => exact iff_of_false Bool.false_ne_true (lt_irrefl _)

theorem lt_infinite_true (z : Double) : z.lt (infinite true) = false := by
  cases z with
  | finite x => rfl
  | infinite a => exact Bool.and_false a
  | nan => rfl

theorem infinite_false_lt (w : Double) : (infinite false).lt w = false := by
  cases w <;> rfl

theorem eq_of_le_infinite_true {x : Double} (h : x ≤ infinite true) : x = infinite true := by
  obtain ⟨hx, -, hle⟩ := h
  cases x with
  | nan => exact absurd rfl hx
  | finite x => exact absurd hle (position_infinite_lt_finite x).not_ge
  | infinite a =>
    cases a with
    | true => rfl
    | false => exact absurd hle position_infinite_lt.not_ge

theorem eq_of_infinite_false_le {y : Double} (h : infinite false ≤ y) : y = infinite false := by
  obtain ⟨-, hy, hle⟩ := h
  cases y with
  | nan => exact absurd rfl hy
  | finite y => exact absurd hle (position_finite_lt_infinite y).not_ge
  | infinite a =>
    cases a with
    | true => exact absurd hle position_infinite_lt.not_ge
    | false => rfl

/-! ### Sums -/

/-- A quotient is rounded to a number at `nearest`, or to an infinite one. -/
theorem position_ofRatio (negative : Bool) (num den : Nat) :
    ofRatio negative num den ≠ nan ∧
      (ofRatio negative num den).position
        = if negative then -(min (nearest (num * stepsPerOne) den) limit : Int)
          else min (nearest (num * stepsPerOne) den) limit := by
  unfold ofRatio
  rcases roundRatio_spec negative num den with ⟨x, hx, rfl, hmagnitude⟩ | ⟨hnone, hlimit⟩
  · rw [hx, ← hmagnitude, min_eq_left (by exact_mod_cast (magnitude_lt x).le)]
    exact ⟨Double.noConfusion, scaled_eq x⟩
  · rw [hnone, min_eq_right (by exact_mod_cast hlimit)]
    exact ⟨Double.noConfusion, rfl⟩

/-- The position of the number to which a number of steps is rounded. -/
def roundedPosition (n : Int) : Int :=
  let steps := min (nearest (n.natAbs * stepsPerOne) stepsPerOne) limit
  if n < 0 then -(steps : Int) else steps

theorem roundedPosition_mono {m n : Int} (h : m ≤ n) : roundedPosition m ≤ roundedPosition n := by
  have hnearest : ∀ {a b : Nat}, a ≤ b →
      nearest (a * stepsPerOne) stepsPerOne ≤ nearest (b * stepsPerOne) stepsPerOne :=
    fun h => nearest_mono _ (Nat.mul_le_mul_right _ h)
  unfold roundedPosition
  dsimp only
  split_ifs with hm hn hn
  · have := hnearest (show n.natAbs ≤ m.natAbs by omega)
    omega
  · omega
  · omega
  · have := hnearest (show m.natAbs ≤ n.natAbs by omega)
    omega

theorem roundedPosition_zero : roundedPosition 0 = 0 := by
  have hnearest : nearest ((0 : Int).natAbs * stepsPerOne) stepsPerOne = 0 := by
    rw [Int.natAbs_zero, Nat.zero_mul, nearest, roundedMantissa, roundQuotient_zero, Nat.zero_mul]
  rw [roundedPosition, hnearest, Nat.zero_min]
  decide

/-- A sum of finite numbers is rounded from the exact sum. -/
theorem position_add_finite (x y : Binary64) :
    (finite x).add (finite y) ≠ nan ∧
      ((finite x).add (finite y)).position = roundedPosition (x.scaled + y.scaled) := by
  unfold add
  dsimp only
  split_ifs with hzero
  · refine ⟨Double.noConfusion, ?_⟩
    rw [hzero, roundedPosition_zero, position, scaled_eq]
    simp [magnitude, zero]
  · obtain ⟨hnan, hposition⟩ :=
      position_ofRatio (decide (x.scaled + y.scaled < 0)) (x.scaled + y.scaled).natAbs stepsPerOne
    refine ⟨hnan, ?_⟩
    rw [hposition, roundedPosition]
    simp only [decide_eq_true_eq]
    split_ifs <;> omega

/-- What is below a sum is below the sum with a first part that is not less. -/
theorem lt_add_of_le {x y s z : Double} (h : x ≤ y) (hlt : z.lt (x.add s) = true) :
    z.lt (y.add s) = true := by
  have hlowest : x.add s ≠ infinite true := by
    intro heq
    rw [heq, lt_infinite_true] at hlt
    exact Bool.noConfusion hlt
  have hsum : x.add s ≠ nan := by
    intro heq
    rw [heq] at hlt
    cases z <;> exact Bool.noConfusion hlt
  have hz : z ≠ nan := by
    rintro rfl
    exact Bool.noConfusion hlt
  cases x with
  | nan => exact absurd rfl h.1
  | infinite a =>
    cases a with
    | false => rwa [eq_of_infinite_false_le h]
    | true =>
      -- With the lowest number a sum is lowest, or there is none.
      cases s with
      | finite s => exact absurd rfl hlowest
      | infinite c =>
        cases c with
        | false => exact absurd rfl hsum
        | true => exact absurd rfl hlowest
      | nan => exact absurd rfl hsum
  | finite x =>
    cases y with
    | nan => exact absurd rfl h.2.1
    | infinite b =>
      cases b with
      | true => exact Double.noConfusion (eq_of_le_infinite_true h)
      | false =>
        cases s with
        | nan => exact absurd rfl hsum
        | infinite c =>
          cases c with
          | false => exact hlt
          | true => exact absurd rfl hlowest
        | finite s =>
          -- Every number but the highest is below the highest.
          cases z with
          | nan => exact absurd rfl hz
          | finite z => rfl
          | infinite d =>
            cases d with
            | true => rfl
            | false => rwa [infinite_false_lt] at hlt
    | finite y =>
      cases s with
      | nan => exact absurd rfl hsum
      | infinite c => exact hlt
      | finite s =>
        obtain ⟨hxnan, hx⟩ := position_add_finite x s
        obtain ⟨hynan, hy⟩ := position_add_finite y s
        rw [lt_iff hz hxnan, hx] at hlt
        rw [lt_iff hz hynan, hy]
        exact hlt.trans_le (roundedPosition_mono (Int.add_le_add_right h.2.2 _))

end Double

end CodeAtlas
