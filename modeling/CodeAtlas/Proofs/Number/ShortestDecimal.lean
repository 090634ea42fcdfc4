import CodeAtlas.Number.Decimal
import CodeAtlas.Proofs.Number.Rounding
import Mathlib.Data.Nat.Digits.Defs
import Mathlib.Tactic.Ring

/-!
# Shortest decimals read back

A decimal is rounded by its value alone: the exponents that are cut off belong to decimals that are
rounded to infinity or to zero anyway (`Double.ofDecimal_eq`), and zeros at the end of the digits
are worth as much as a greater exponent (`Double.ofDecimal_shift`).

The digits of a number are counted up until they read back.  The last attempt is not tested; it
errs by less than `2 ^ -56` of the number, which is less than half of the distance to the number
below it, so it reads back as well (`Binary64.nearest_of_close`).  Hence the shortest decimal of
every number except zero is rounded to the number (`Decimal.ofDecimal_shortest`).
-/

namespace CodeAtlas

namespace Binary64

/-! ### Equal quotients -/

theorem roundRatio_mul_right (negative : Bool) (num den : Nat) {k : Nat} (hk : 0 < k) :
    roundRatio negative (num * k) (den * k) = roundRatio negative num den := by
  have hsteps : num * k * stepsPerOne = num * stepsPerOne * k := Nat.mul_right_comm _ _ _
  have hdiv : num * k * stepsPerOne / (den * k) = num * stepsPerOne / den := by
    rw [hsteps, Nat.mul_div_mul_right _ _ hk]
  unfold roundRatio
  dsimp only
  rw [hdiv, hsteps, Nat.mul_right_comm den k, roundQuotient_mul_right _ _ hk]

/-- Equal quotients are rounded alike. -/
theorem roundRatio_congr (negative : Bool) {num den num' den' : Nat} (hden : 0 < den)
    (hden' : 0 < den') (h : num * den' = num' * den) :
    roundRatio negative num den = roundRatio negative num' den' := by
  calc roundRatio negative num den
      = roundRatio negative (num * den') (den * den') :=
        (roundRatio_mul_right negative num den hden').symm
    _ = roundRatio negative (num' * den) (den' * den) := by rw [h, Nat.mul_comm den den']
    _ = roundRatio negative num' den' := roundRatio_mul_right negative num' den' hden

/-! ### Quotients that are too small or too large -/

/-- Less than half a step is rounded to zero. -/
theorem nearest_eq_zero {num den : Nat} (h : 2 * num < den) : nearest num den = 0 := by
  have hdiv : num / den = 0 := Nat.div_eq_of_lt (by omega)
  have hexponent : roundingExponent num den = 0 := by
    rw [roundingExponent, hdiv, Nat.log2_zero]
  rw [nearest, roundedMantissa, hexponent, Nat.pow_zero, Nat.mul_one, Nat.mul_one, roundQuotient,
    Nat.mod_eq_of_lt (show num < den by omega), hdiv]
  simp [h]

theorem nearest_limit : nearest limit 1 = limit := by
  have hlimit : limit = 2 ^ 52 * 2 ^ (lastExponent + 1) := by
    unfold limit
    omega
  rw [hlimit]
  exact nearest_shift (by decide) _

/-- As many steps as there are to the limit are not rounded below it. -/
theorem limit_le_nearest {num den : Nat} (hden : 0 < den) (h : limit * den ≤ num) :
    limit ≤ nearest num den := by
  calc limit = nearest (limit * den) den := by rw [nearest_mul_right _ hden, nearest_limit]
    _ ≤ nearest num den := nearest_mono den h

/-! ### Quotients close to a number -/

/-- Rounding moves a quotient by half of the unit at most. -/
theorem two_mul_le_roundQuotient (num : Nat) {den : Nat} (hden : 0 < den) :
    2 * num ≤ (2 * roundQuotient num den + 1) * den := by
  have hdiv := Nat.div_add_mod num den
  have hmod := Nat.mod_lt num hden
  have hexpand : ∀ q, (2 * q + 1) * den = 2 * (den * q) + den := fun q => by ring
  unfold roundQuotient
  dsimp only
  rw [hexpand]
  split_ifs with h
  · simp only [Bool.or_eq_true, Bool.and_eq_true, decide_eq_true_eq] at h
    omega
  · rw [Nat.mul_add]
    omega

/-- The steps of a quotient fill at most 53 bits behind its exponent. -/
theorem lt_roundingExponent (num : Nat) {den : Nat} (hden : 0 < den) :
    num < 2 ^ 53 * (2 ^ roundingExponent num den * den) := by
  have hlog : num / den < 2 ^ (53 + roundingExponent num den) := by
    refine Nat.lt_log2_self.trans_le (Nat.pow_le_pow_right (by decide) ?_)
    unfold roundingExponent
    omega
  rw [Nat.div_lt_iff_lt_mul hden, Nat.pow_add, Nat.mul_assoc] at hlog
  exact hlog

/-- A quotient that is below a number by at most `2 ^ -56` of it is rounded to it. -/
theorem nearest_of_close {m e num den : Nat} (hm : m < 2 ^ 53) (hden : 0 < den)
    (hle : num ≤ m * 2 ^ e * den)
    (hclose : (m * 2 ^ e * den - num) * 2 ^ 56 ≤ m * 2 ^ e * den) :
    nearest num den = m * 2 ^ e := by
  have hexact : nearest (m * 2 ^ e * den) den = m * 2 ^ e := by
    rw [nearest_mul_right _ hden, nearest_shift hm]
  have hexponent : roundingExponent num den ≤ e := by
    have hmono := roundingExponent_mono den hle
    have hdiv : roundingExponent (m * 2 ^ e * den) den = roundingExponent (m * 2 ^ e) 1 := by
      rw [roundingExponent, roundingExponent, Nat.mul_div_cancel _ hden, Nat.div_one]
    exact hmono.trans (hdiv.trans_le (roundingExponent_shift hm e))
  have hupper : nearest num den ≤ m * 2 ^ e := (nearest_mono den hle).trans_eq hexact
  have hfill := lt_roundingExponent num hden
  have hhalf := two_mul_le_roundQuotient num
    (Nat.mul_pos hden (Nat.two_pow_pos (roundingExponent num den)))
  unfold nearest at hupper ⊢
  unfold roundedMantissa at hupper ⊢
  generalize roundingExponent num den = k at hexponent hupper hfill hhalf ⊢
  generalize roundQuotient num (den * 2 ^ k) = r at hupper hhalf ⊢
  -- The number has the exponent of the quotient as well, with a mantissa that may be larger.
  obtain ⟨d, rfl⟩ := Nat.exists_eq_add_of_le' hexponent
  have hshift : m * 2 ^ (d + k) = m * 2 ^ d * 2 ^ k := by rw [Nat.pow_add, Nat.mul_assoc]
  rw [hshift] at hle hclose hupper ⊢
  have hr : r ≤ m * 2 ^ d := Nat.le_of_mul_le_mul_right hupper (Nat.two_pow_pos k)
  refine congrArg (· * 2 ^ k) (le_antisymm hr (not_lt.mp fun hlt => ?_))
  have hunit : 0 < 2 ^ k * den := Nat.mul_pos (Nat.two_pow_pos k) hden
  -- One unit more is not beyond the number, so the distance is half a unit at least.
  have hnext : (r + 1) * (2 ^ k * den) ≤ m * 2 ^ d * 2 ^ k * den := by
    rw [Nat.mul_assoc (m * 2 ^ d)]
    exact Nat.mul_le_mul_right _ hlt
  have hdistance : 2 * num + 2 ^ k * den ≤ 2 * (m * 2 ^ d * 2 ^ k * den) := by
    calc 2 * num + 2 ^ k * den ≤ (2 * r + 1) * (den * 2 ^ k) + 2 ^ k * den :=
          Nat.add_le_add_right hhalf _
      _ = 2 * ((r + 1) * (2 ^ k * den)) := by ring
      _ ≤ 2 * (m * 2 ^ d * 2 ^ k * den) := Nat.mul_le_mul_left 2 hnext
  omega

/-! ### Numbers of one magnitude -/

/-- The mantissa and the exponent are determined by the magnitude. -/
theorem eq_of_magnitude_eq {x y : Binary64} (h : x.magnitude = y.magnitude) :
    x.mantissa = y.mantissa ∧ x.exponent = y.exponent := by
  have hle : ∀ {x y : Binary64}, x.magnitude = y.magnitude → y.exponent ≤ x.exponent := by
    intro x y h
    by_contra hlt
    obtain ⟨d, hd⟩ := Nat.exists_eq_add_of_lt (not_le.mp hlt)
    have hm : 2 ^ 52 ≤ y.mantissa := y.normal.resolve_left (by omega)
    have hx : x.mantissa < 2 ^ 53 := x.mantissa_lt
    have hmul : x.mantissa * 2 ^ x.exponent = y.mantissa * 2 ^ (d + 1) * 2 ^ x.exponent := by
      rw [Nat.mul_assoc, ← Nat.pow_add]
      exact h.trans (by rw [magnitude, hd]; ring_nf)
    have heq := Nat.eq_of_mul_eq_mul_right (Nat.two_pow_pos _) hmul
    have hpow : 2 ^ 1 ≤ 2 ^ (d + 1) := Nat.pow_le_pow_right (by decide) (by omega)
    have := Nat.mul_le_mul hm hpow
    omega
  have hexponent : x.exponent = y.exponent := le_antisymm (hle h.symm) (hle h)
  refine ⟨?_, hexponent⟩
  unfold magnitude at h
  rw [hexponent] at h
  exact Nat.eq_of_mul_eq_mul_right (Nat.two_pow_pos _) h

theorem eq_of_negative_eq {x y : Binary64} (hnegative : x.negative = y.negative)
    (h : x.magnitude = y.magnitude) : x = y := by
  obtain ⟨hmantissa, hexponent⟩ := eq_of_magnitude_eq h
  cases x
  cases y
  simp_all

end Binary64

namespace Decimal

/-! ### Powers of ten -/

theorem ten_pow_pos (k : Nat) : 0 < 10 ^ k := Nat.pow_pos (by decide)

theorem lt_pow_length_toDigits (n : Nat) : n < 10 ^ (Nat.toDigits 10 n).length :=
  (Nat.length_toDigits_le_iff (by decide) Nat.length_toDigits_pos).mp (le_refl _)

theorem pow_length_toDigits_le {n : Nat} (hn : 0 < n) :
    10 ^ ((Nat.toDigits 10 n).length - 1) ≤ n := by
  by_contra hlt
  rcases Nat.eq_zero_or_pos ((Nat.toDigits 10 n).length - 1) with hzero | hpos
  · rw [hzero, Nat.pow_zero] at hlt
    omega
  · have hle := (Nat.length_toDigits_le_iff (by decide) hpos).mpr (not_le.mp hlt)
    omega

end Decimal

namespace Double

open Binary64 Decimal

/-! ### The value of a decimal -/

theorem ofRatio_eq_zero (negative : Bool) {num den : Nat} (h : 2 * (num * stepsPerOne) < den) :
    ofRatio negative num den = finite { zero with negative := negative } := by
  have hnearest := nearest_eq_zero h
  unfold ofRatio
  rcases roundRatio_spec negative num den with ⟨x, hx, hnegative, hmagnitude⟩ | ⟨-, hlimit⟩
  · have hzero : x = { zero with negative := negative } := by
      refine eq_of_negative_eq hnegative ?_
      rw [hmagnitude, hnearest]
      rfl
    rw [hx, hzero]
    rfl
  · rw [hnearest] at hlimit
    exact absurd limit_pos hlimit.not_gt

theorem ofRatio_eq_infinite (negative : Bool) {num den : Nat} (hden : 0 < den)
    (h : limit * den ≤ num * stepsPerOne) : ofRatio negative num den = infinite negative := by
  have hnearest := limit_le_nearest hden h
  unfold ofRatio
  rcases roundRatio_spec negative num den with ⟨x, -, -, hmagnitude⟩ | ⟨hnone, -⟩
  · rw [← hmagnitude] at hnearest
    exact absurd (magnitude_lt x) hnearest.not_gt
  · rw [hnone]
    rfl

/-- The number nearest to `n · 10 ^ e`, for all exponents. -/
theorem ofDecimal_eq (negative : Bool) (n : Nat) (e : Int) :
    ofDecimal negative n e = ofRatio negative (n * 10 ^ e.toNat) (10 ^ (-e).toNat) := by
  have hden : 0 < 10 ^ (-e).toNat := ten_pow_pos _
  unfold ofDecimal
  dsimp only
  split_ifs with hzero hlarge hsmall hneg
  · rw [hzero, Nat.zero_mul, ofRatio_eq_zero _ (by omega)]
  · symm
    apply ofRatio_eq_infinite negative hden
    have hpow : 10 ^ 400 * 10 ^ (-e).toNat ≤ n * 10 ^ e.toNat := by
      calc 10 ^ 400 * 10 ^ (-e).toNat
          ≤ 10 ^ ((Nat.toDigits 10 n).length - 1) * 10 ^ e.toNat := by
            rw [← Nat.pow_add, ← Nat.pow_add]
            exact Nat.pow_le_pow_right (by decide) (by omega)
        _ ≤ n * 10 ^ e.toNat :=
            Nat.mul_le_mul_right _ (pow_length_toDigits_le (Nat.pos_of_ne_zero hzero))
    have hlimit : limit ≤ 10 ^ 400 * stepsPerOne := by decide +kernel
    calc limit * 10 ^ (-e).toNat ≤ 10 ^ 400 * stepsPerOne * 10 ^ (-e).toNat :=
          Nat.mul_le_mul_right _ hlimit
      _ = 10 ^ 400 * 10 ^ (-e).toNat * stepsPerOne := Nat.mul_right_comm _ _ _
      _ ≤ n * 10 ^ e.toNat * stepsPerOne := Nat.mul_le_mul_right _ hpow
  · symm
    apply ofRatio_eq_zero
    have hwhole : e.toNat = 0 := by omega
    rw [hwhole, Nat.pow_zero, Nat.mul_one]
    have hsteps : 2 * stepsPerOne ≤ 10 ^ 401 := by decide +kernel
    calc 2 * (n * stepsPerOne) = n * (2 * stepsPerOne) := Nat.mul_left_comm _ _ _
      _ ≤ n * 10 ^ 401 := Nat.mul_le_mul_left n hsteps
      _ < 10 ^ (Nat.toDigits 10 n).length * 10 ^ 401 :=
          Nat.mul_lt_mul_of_pos_right (lt_pow_length_toDigits n) (ten_pow_pos _)
      _ ≤ 10 ^ (-e).toNat := by
          rw [← Nat.pow_add]
          exact Nat.pow_le_pow_right (by decide) (by omega)
  · rw [show e.toNat = 0 by omega, show (-e).toNat = e.natAbs by omega, Nat.pow_zero, Nat.mul_one]
    rfl
  · rw [show (-e).toNat = 0 by omega, show e.toNat = e.natAbs by omega, Nat.pow_zero]
    rfl

/-- A zero behind the digits is worth one in the exponent. -/
theorem ofDecimal_shift (negative : Bool) (n k : Nat) (e : Int) :
    ofDecimal negative (n * 10 ^ k) (e - k) = ofDecimal negative n e := by
  rw [ofDecimal_eq, ofDecimal_eq, ofRatio, ofRatio]
  rw [roundRatio_congr negative (ten_pow_pos _) (ten_pow_pos _)]
  have hexponents : k + (e - k).toNat + (-e).toNat = e.toNat + (-(e - k)).toNat := by omega
  calc n * 10 ^ k * 10 ^ (e - k).toNat * 10 ^ (-e).toNat
      = n * 10 ^ (k + (e - k).toNat + (-e).toNat) := by
        rw [Nat.pow_add, Nat.pow_add, Nat.mul_assoc, Nat.mul_assoc, Nat.mul_assoc]
    _ = n * 10 ^ e.toNat * 10 ^ (-(e - k)).toNat := by
        rw [hexponents, Nat.pow_add, Nat.mul_assoc]

end Double

namespace Decimal

open Binary64

/-! ### Reading back -/

/-- A decimal reads back as the numbers of the magnitude to which it is rounded. -/
theorem readsBack_iff (x : Binary64) (n : Nat) (e : Int) :
    readsBack x n e = true ↔
      nearest (n * 10 ^ e.toNat * stepsPerOne) (10 ^ (-e).toNat) = x.magnitude := by
  have hratio : (if e < 0 then roundRatio false n (Nat.pow 10 e.natAbs)
      else roundRatio false (n * Nat.pow 10 e.natAbs) 1)
      = roundRatio false (n * 10 ^ e.toNat) (10 ^ (-e).toNat) := by
    split_ifs
    · rw [show e.toNat = 0 by omega, show (-e).toNat = e.natAbs by omega, Nat.pow_zero, Nat.mul_one]
      rfl
    · rw [show (-e).toNat = 0 by omega, show e.toNat = e.natAbs by omega, Nat.pow_zero]
      rfl
  unfold readsBack
  dsimp only
  rw [hratio]
  rcases roundRatio_spec false (n * 10 ^ e.toNat) (10 ^ (-e).toNat) with
    ⟨y, hy, -, hmagnitude⟩ | ⟨hnone, hlimit⟩
  · rw [hy, ← hmagnitude]
    simp only [Bool.and_eq_true, decide_eq_true_eq]
    refine ⟨fun h => ?_, eq_of_magnitude_eq⟩
    rw [magnitude, magnitude, h.1, h.2]
  · rw [hnone]
    refine ⟨fun h => absurd h Bool.false_ne_true, fun h => ?_⟩
    rw [h] at hlimit
    exact absurd (magnitude_lt x) hlimit.not_gt

theorem ofDecimal_of_readsBack {x : Binary64} {n : Nat} {e : Int} (h : readsBack x n e = true) :
    Double.ofDecimal x.negative n e = .finite x := by
  have hnearest := (readsBack_iff x n e).mp h
  rw [Double.ofDecimal_eq, Double.ofRatio]
  rcases roundRatio_spec x.negative (n * 10 ^ e.toNat) (10 ^ (-e).toNat) with
    ⟨y, hy, hnegative, hmagnitude⟩ | ⟨-, hlimit⟩
  · rw [hy, eq_of_negative_eq hnegative (hmagnitude.trans hnearest)]
    rfl
  · rw [hnearest] at hlimit
    exact absurd (magnitude_lt x) hlimit.not_gt

/-! ### The first digit -/

theorem scaleDown_eq (num den : Nat) (e : Int) :
    scaleDown num den e = num * 10 ^ e.toNat / (den * 10 ^ (-e).toNat) := by
  unfold scaleDown
  split_ifs
  · rw [show e.toNat = 0 by omega, show (-e).toNat = e.natAbs by omega, Nat.pow_zero, Nat.mul_one]
    rfl
  · rw [show (-e).toNat = 0 by omega, show e.toNat = e.natAbs by omega, Nat.pow_zero, Nat.mul_one]
    rfl

/-- The first digit of a quotient counts no more than the quotient. -/
theorem pow_leadingExponent_le {num den : Nat} (hnum : 0 < num) :
    den * 10 ^ (leadingExponent num den).toNat ≤ num * 10 ^ (-leadingExponent num den).toNat := by
  unfold leadingExponent
  split_ifs with hle
  · rcases Nat.eq_zero_or_pos den with rfl | hden
    · rw [Nat.zero_mul]
      exact Nat.zero_le _
    have hlength : 0 < (Nat.toDigits 10 (num / den)).length := Nat.length_toDigits_pos
    have hpow := pow_length_toDigits_le (Nat.div_pos hle hden)
    rw [show (-(((Nat.toDigits 10 (num / den)).length : Int) - 1)).toNat = 0 by omega, Nat.pow_zero,
      Nat.mul_one,
      show (((Nat.toDigits 10 (num / den)).length : Int) - 1).toNat
        = (Nat.toDigits 10 (num / den)).length - 1 by omega]
    calc den * 10 ^ ((Nat.toDigits 10 (num / den)).length - 1) ≤ den * (num / den) :=
          Nat.mul_le_mul_left den hpow
      _ ≤ num := Nat.mul_div_le num den
  · have hlt := lt_pow_length_toDigits ((den + num - 1) / num - 1)
    generalize (Nat.toDigits 10 ((den + num - 1) / num - 1)).length = k at hlt ⊢
    rw [show (-(k : Int)).toNat = 0 by omega, Nat.pow_zero, Nat.mul_one,
      show (- -(k : Int)).toNat = k by omega]
    have hceil : (den + num - 1) / num ≤ 10 ^ k := by omega
    have hden := Nat.lt_mul_of_div_lt (Nat.lt_succ_of_le hceil) hnum
    rw [Nat.succ_mul, Nat.mul_comm (10 ^ k)] at hden
    omega

/-! ### The shortest digits -/

/-- So many digits behind the first one make an error that is too small to matter. -/
theorem readsBack_scaleDown {x : Binary64} {lead : Int}
    (hlead : stepsPerOne * 10 ^ lead.toNat ≤ x.magnitude * 10 ^ (-lead).toNat) :
    0 < scaleDown x.magnitude stepsPerOne (18 - lead) ∧
      readsBack x (scaleDown x.magnitude stepsPerOne (18 - lead)) (lead - 18) = true := by
  rw [readsBack_iff, scaleDown_eq, show -(18 - lead) = lead - 18 by omega,
    show -(lead - 18) = 18 - lead by omega]
  have hunit : 0 < stepsPerOne * 10 ^ (lead - 18).toNat :=
    Nat.mul_pos stepsPerOne_pos (ten_pow_pos _)
  have hlow : 10 ^ 18 * (stepsPerOne * 10 ^ (lead - 18).toNat)
      ≤ x.magnitude * 10 ^ (18 - lead).toNat := by
    apply Nat.le_of_mul_le_mul_right _ (ten_pow_pos (-lead).toNat)
    have hexponents : 18 + (lead - 18).toNat + (-lead).toNat = lead.toNat + (18 - lead).toNat := by
      omega
    calc 10 ^ 18 * (stepsPerOne * 10 ^ (lead - 18).toNat) * 10 ^ (-lead).toNat
        = stepsPerOne * 10 ^ (18 + (lead - 18).toNat + (-lead).toNat) := by
          rw [Nat.pow_add, Nat.pow_add]
          ring
      _ = stepsPerOne * 10 ^ lead.toNat * 10 ^ (18 - lead).toNat := by
          rw [hexponents, Nat.pow_add, Nat.mul_assoc]
      _ ≤ x.magnitude * 10 ^ (-lead).toNat * 10 ^ (18 - lead).toNat :=
          Nat.mul_le_mul_right _ hlead
      _ = x.magnitude * 10 ^ (18 - lead).toNat * 10 ^ (-lead).toNat := Nat.mul_right_comm _ _ _
  have hdigits : 10 ^ 18 ≤ x.magnitude * 10 ^ (18 - lead).toNat
      / (stepsPerOne * 10 ^ (lead - 18).toNat) := (Nat.le_div_iff_mul_le hunit).mpr hlow
  have hbelow := Nat.div_mul_le_self (x.magnitude * 10 ^ (18 - lead).toNat)
    (stepsPerOne * 10 ^ (lead - 18).toNat)
  have habove := Nat.lt_mul_div_succ (x.magnitude * 10 ^ (18 - lead).toNat) hunit
  generalize x.magnitude * 10 ^ (18 - lead).toNat / (stepsPerOne * 10 ^ (lead - 18).toNat) = q
    at hdigits hbelow habove ⊢
  refine ⟨by omega, ?_⟩
  rw [Nat.mul_assoc, Nat.mul_comm (10 ^ (lead - 18).toNat)]
  unfold magnitude at *
  apply nearest_of_close x.mantissa_lt (ten_pow_pos _) hbelow
  rw [Nat.mul_succ, Nat.mul_comm _ q] at habove
  omega

/-- The shortest decimal of a number except zero has digits, and reads back as the number. -/
theorem shortestFrom_spec {x : Binary64} {lead : Int}
    (hlead : stepsPerOne * 10 ^ lead.toNat ≤ x.magnitude * 10 ^ (-lead).toNat) (fuel : Nat)
    {count : Nat} (hcount : fuel + count = 18) :
    0 < (shortestFrom x x.magnitude lead fuel count).1 ∧
      readsBack x (shortestFrom x x.magnitude lead fuel count).1
        (shortestFrom x x.magnitude lead fuel count).2 = true := by
  induction fuel generalizing count with
  | zero =>
    obtain rfl : count = 18 := by omega
    exact readsBack_scaleDown hlead
  | succ fuel ih =>
    unfold shortestFrom
    dsimp only
    simp only [Bool.and_eq_true, decide_eq_true_eq]
    split_ifs with hboth hcloser hlow hhigh
    · exact hboth.1
    · exact ⟨Nat.succ_pos _, hboth.2⟩
    · exact hlow
    · exact ⟨Nat.succ_pos _, hhigh⟩
    · exact ih (by omega)

theorem magnitude_pos {x : Binary64} (hx : x.isZero = false) : 0 < x.magnitude :=
  Nat.mul_pos (Nat.pos_of_ne_zero (of_decide_eq_false hx)) (Nat.two_pow_pos _)

/-- The shortest decimal of a number except zero is rounded to the number. -/
theorem ofDecimal_shortest {x : Binary64} (hx : x.isZero = false) :
    0 < (shortest x).1 ∧ Double.ofDecimal x.negative (shortest x).1 (shortest x).2 = .finite x := by
  obtain ⟨hdigits, hreads⟩ := shortestFrom_spec (pow_leadingExponent_le (magnitude_pos hx)) 17
    (show 17 + 1 = 18 from rfl)
  exact ⟨hdigits, ofDecimal_of_readsBack hreads⟩

end Decimal

end CodeAtlas
