import CodeAtlas.Complexity.Formula
import CodeAtlas.Proofs.Number.Rounding
import Mathlib.Tactic.Ring

/-!
# Technical debt

The debt of files is added up in floating-point numbers, one file after the other.  It is zero
exactly if no complexity is above the threshold (`Score.technicalDebt_eq_zero_iff`): what is added
is above zero, and then so is the sum, however it is rounded.  As long as there are fewer than
`2 ^ 53` half points, no step rounds, and the debt is the exact one (`Score.technicalDebt_exact`).
-/

namespace CodeAtlas

namespace Binary64

/-- A quotient that is not below one is not rounded to zero. -/
theorem nearest_pos {num den : Nat} (h : 0 < num / den) : 0 < nearest num den := by
  unfold nearest
  refine Nat.mul_pos ?_ (Nat.two_pow_pos _)
  rcases Nat.eq_zero_or_pos (roundingExponent num den) with hzero | hpos
  · unfold roundedMantissa
    rw [hzero, Nat.pow_zero, Nat.mul_one]
    exact h.trans_le (roundQuotient_bounds num den).1
  · exact (Nat.two_pow_pos 52).trans_le (le_roundedMantissa hpos)

/-! ### Halves -/

/-- How many steps of the lowest exponent make one half. -/
def stepsPerHalf : Nat := Nat.pow 2 1073

theorem stepsPerHalf_pos : 0 < stepsPerHalf := Nat.two_pow_pos _

theorem two_mul_stepsPerHalf : 2 * stepsPerHalf = stepsPerOne := by
  rw [stepsPerHalf, stepsPerOne, Nat.pow_eq, Nat.pow_eq, ← Nat.pow_succ']

/-- Halves of at most 53 bits need no rounding. -/
theorem nearest_halves {n : Nat} (h : n < 2 ^ 53) :
    nearest (n * stepsPerHalf) 1 = n * stepsPerHalf ∧ n * stepsPerHalf < limit := by
  have hsteps : stepsPerHalf = 2 ^ 1073 := by rw [stepsPerHalf, Nat.pow_eq]
  rw [hsteps]
  exact ⟨nearest_shift h 1073, shift_lt_limit h (by decide)⟩

end Binary64

namespace Double

open Binary64

/-! ### Sums of numbers that are not below zero -/

/-- The number is above zero. -/
def IsPositive (x : Double) : Prop := x ≠ nan ∧ 0 < x.position

/-- The number is not below zero. -/
def IsNonnegative (x : Double) : Prop := x ≠ nan ∧ 0 ≤ x.position

theorem IsPositive.isNonnegative {x : Double} (h : x.IsPositive) : x.IsNonnegative :=
  ⟨h.1, h.2.le⟩

theorem isNonnegative_zero : (finite zero).IsNonnegative := ⟨Double.noConfusion, le_refl 0⟩

theorem not_isPositive_zero : ¬(finite zero).IsPositive := fun h => lt_irrefl _ h.2

theorem isPositive_infinite : (infinite false).IsPositive := by
  refine ⟨Double.noConfusion, ?_⟩
  rw [position_infinite_false]
  exact_mod_cast limit_pos

theorem roundedPosition_pos {n : Int} (h : 0 < n) : 0 < roundedPosition n := by
  have hnearest : 0 < nearest (n.natAbs * stepsPerOne) stepsPerOne := by
    rw [nearest_mul_right _ stepsPerOne_pos]
    refine nearest_pos ?_
    rw [Nat.div_one]
    omega
  have hlimit := limit_pos
  unfold roundedPosition
  dsimp only
  rw [if_neg h.not_gt]
  omega

theorem IsNonnegative.add {x y : Double} (hx : x.IsNonnegative) (hy : y.IsPositive) :
    (x.add y).IsPositive := by
  have hlimit := limit_pos
  cases x with
  | nan => exact absurd rfl hx.1
  | infinite a =>
    cases a with
    | true =>
      have hposition := hx.2
      rw [position_infinite_true] at hposition
      omega
    | false =>
      cases y with
      | nan => exact absurd rfl hy.1
      | finite y => exact isPositive_infinite
      | infinite b =>
        cases b with
        | true =>
          have hposition := hy.2
          rw [position_infinite_true] at hposition
          omega
        | false => exact isPositive_infinite
  | finite x =>
    cases y with
    | nan => exact absurd rfl hy.1
    | infinite b => exact hy
    | finite y =>
      obtain ⟨hnan, hposition⟩ := position_add_finite x y
      refine ⟨hnan, ?_⟩
      rw [hposition]
      exact roundedPosition_pos (Int.add_pos_of_nonneg_of_pos hx.2 hy.2)

/-- Half of an integer above zero is above zero. -/
theorem isPositive_of_half? {n : Int} (hn : 0 < n) {points : Double}
    (h : half? n = some points) : points.IsPositive := by
  obtain ⟨x, hx, rfl⟩ := Option.map_eq_some_iff.mp h
  have hsteps : 2 ≤ stepsPerOne := by
    rw [← two_mul_stepsPerHalf]
    exact Nat.le_mul_of_pos_right 2 stepsPerHalf_pos
  -- The integer is not below one, so its number is not below that of one.
  have hx' : x.negative = false ∧ stepsPerOne ≤ x.magnitude := by
    unfold ofInt? at hx
    rw [decide_eq_false hn.not_gt] at hx
    rcases roundRatio_spec false n.natAbs 1 with ⟨y, hy, hsign, hmagnitude⟩ | ⟨hnone, -⟩
    · obtain rfl := Option.some.inj (hx.symm.trans hy)
      refine ⟨hsign, ?_⟩
      have hone := (nearest_wholes (show 1 < 2 ^ 53 by decide)).1
      rw [Nat.one_mul] at hone
      calc stepsPerOne = nearest stepsPerOne 1 := hone.symm
        _ ≤ nearest (n.natAbs * stepsPerOne) 1 :=
          nearest_mono 1 (Nat.le_mul_of_pos_left _ (by omega))
        _ = x.magnitude := hmagnitude.symm
    · rw [hnone] at hx
      exact nomatch hx
  obtain ⟨hnan, hposition⟩ := position_ofRatio x.negative x.scaled.natAbs (2 * stepsPerOne)
  refine ⟨hnan, ?_⟩
  rw [hposition, hx'.1, if_neg Bool.false_ne_true]
  have hnearest : 0 < nearest (x.scaled.natAbs * stepsPerOne) (2 * stepsPerOne) := by
    refine nearest_pos ?_
    rw [Nat.mul_div_mul_right _ _ stepsPerOne_pos, scaled_eq, hx'.1, if_neg Bool.false_ne_true,
      Int.natAbs_natCast]
    omega
  have hlimit := limit_pos
  omega

/-! ### Numbers of halves -/

/-- Half of a natural number of at most 53 bits is a floating-point number. -/
theorem half?_natural {n : Nat} (h : n < 2 ^ 53) :
    ∃ x, half? n = some (finite x) ∧ x.scaled = (n * stepsPerHalf : Nat) := by
  obtain ⟨hwhole, hwholeLimit⟩ := nearest_wholes h
  obtain ⟨w, hw, hsign, hscaled⟩ := roundRatio_of_nearest hwhole hwholeLimit
  obtain ⟨hhalves, hlimit⟩ := nearest_halves h
  have hhalf : nearest (n * stepsPerOne * stepsPerOne) (2 * stepsPerOne) = n * stepsPerHalf := by
    have hquotient : n * stepsPerOne * stepsPerOne = n * stepsPerHalf * (2 * stepsPerOne) := by
      rw [← two_mul_stepsPerHalf]
      ring
    rw [hquotient, nearest_mul_right _ (Nat.mul_pos Nat.two_pos stepsPerOne_pos), hhalves]
  obtain ⟨x, hx, -, hexact⟩ := roundRatio_of_nearest hhalf hlimit
  refine ⟨x, ?_, hexact⟩
  have hint : ofInt? n = some w := by
    unfold ofInt?
    rw [decide_eq_false (Int.natCast_nonneg n).not_gt, Int.natAbs_natCast, hw]
  rw [half?, hint, Option.map_some, hsign, hscaled, Int.natAbs_natCast, ofRatio, hx]
  rfl

/-- A sum of halves is exact as long as there are at most 53 bits of them. -/
theorem add_halves {x y : Binary64} {m n : Nat} (hx : x.scaled = (m * stepsPerHalf : Nat))
    (hy : y.scaled = (n * stepsPerHalf : Nat)) (h : m + n < 2 ^ 53) :
    ∃ z, (finite x).add (finite y) = finite z ∧ z.scaled = ((m + n) * stepsPerHalf : Nat) := by
  have hsum : x.scaled + y.scaled = ((m + n) * stepsPerHalf : Nat) := by
    rw [hx, hy, Nat.add_mul, Int.natCast_add]
  unfold add
  dsimp only
  rw [hsum]
  split_ifs with hzero
  · refine ⟨_, rfl, ?_⟩
    rw [hzero, scaled_eq]
    simp [magnitude, zero]
  · obtain ⟨hnearest, hlimit⟩ := nearest_halves h
    rw [← nearest_mul_right _ stepsPerOne_pos] at hnearest
    obtain ⟨z, hz, -, hexact⟩ := roundRatio_of_nearest hnearest hlimit
    refine ⟨z, ?_, hexact⟩
    rw [decide_eq_false (Int.natCast_nonneg _).not_gt, Int.natAbs_natCast, ofRatio, hz]
    rfl

end Double

namespace Score

open Double

variable {threshold : Int}

/-- The debt with one more file. -/
def accrue (threshold : Int) (debt : Double) (c : Int) : Except ScoreError Double :=
  if c - threshold > 0 then
    match half? (c - threshold) with
    | some points => .ok (debt.add points)
    | none => .error .integerTooLarge
  else .ok debt

theorem technicalDebt_eq_foldlM (threshold : Int) (cs : List Int) :
    technicalDebt threshold cs = cs.foldlM (accrue threshold) (.finite .zero) := by
  unfold technicalDebt accrue
  rfl

/-! ### Whether there is any debt -/

theorem accrue_of_le {c : Int} (h : c ≤ threshold) (debt : Double) :
    accrue threshold debt c = .ok debt := by
  unfold accrue
  rw [if_neg (by omega)]

theorem isPositive_accrue {c : Int} (h : threshold < c) {debt next : Double}
    (hdebt : debt.IsNonnegative) (hnext : accrue threshold debt c = .ok next) :
    next.IsPositive := by
  unfold accrue at hnext
  rw [if_pos (by omega)] at hnext
  cases hpoints : half? (c - threshold) with
  | none =>
    rw [hpoints] at hnext
    exact nomatch hnext
  | some points =>
    rw [hpoints] at hnext
    obtain rfl := Except.ok.inj hnext
    exact hdebt.add (isPositive_of_half? (by omega) hpoints)

theorem foldlM_accrue_of_le {cs : List Int} (h : ∀ c ∈ cs, c ≤ threshold) (debt : Double) :
    cs.foldlM (accrue threshold) debt = .ok debt := by
  induction cs with
  | nil => rfl
  | cons c cs ih =>
    obtain ⟨hc, hcs⟩ := List.forall_mem_cons.mp h
    rw [List.foldlM_cons, accrue_of_le hc]
    exact ih hcs

/-- The debt is above zero after a complexity above the threshold, and stays there. -/
theorem isPositive_foldlM_accrue {cs : List Int} {debt total : Double}
    (hdebt : debt.IsNonnegative) (h : debt.IsPositive ∨ ∃ c ∈ cs, threshold < c)
    (htotal : cs.foldlM (accrue threshold) debt = .ok total) : total.IsPositive := by
  induction cs generalizing debt with
  | nil =>
    obtain rfl := Except.ok.inj htotal
    exact h.elim id fun ⟨c, hc, _⟩ => absurd hc List.not_mem_nil
  | cons c cs ih =>
    rw [List.foldlM_cons] at htotal
    cases hnext : accrue threshold debt c with
    | error e =>
      rw [hnext] at htotal
      exact nomatch htotal
    | ok next =>
      rw [hnext] at htotal
      rcases le_or_gt c threshold with hle | hlt
      · rw [accrue_of_le hle] at hnext
        obtain rfl := Except.ok.inj hnext
        refine ih hdebt (h.imp_right ?_) htotal
        rintro ⟨b, hb, hgreater⟩
        rcases List.mem_cons.mp hb with rfl | hb
        · omega
        · exact ⟨b, hb, hgreater⟩
      · have hpositive := isPositive_accrue hlt hdebt hnext
        exact ih hpositive.isNonnegative (Or.inl hpositive) htotal

/-- There is no debt exactly if no complexity is above the threshold. -/
theorem technicalDebt_eq_zero_iff {cs : List Int} :
    technicalDebt threshold cs = .ok (.finite .zero) ↔ ∀ c ∈ cs, c ≤ threshold := by
  rw [technicalDebt_eq_foldlM]
  constructor
  · intro h c hc
    by_contra hlt
    exact not_isPositive_zero
      (isPositive_foldlM_accrue isNonnegative_zero (Or.inr ⟨c, hc, not_le.mp hlt⟩) h)
  · intro h
    exact foldlM_accrue_of_le h _

theorem halfPointsOfDebt_cons (threshold c : Int) (cs : List Int) :
    halfPointsOfDebt threshold (c :: cs)
      = max 0 (c - threshold) + halfPointsOfDebt threshold cs := rfl

theorem halfPointsOfDebt_nonneg (threshold : Int) (cs : List Int) :
    0 ≤ halfPointsOfDebt threshold cs := by
  induction cs with
  | nil => exact le_refl 0
  | cons c cs ih =>
    rw [halfPointsOfDebt_cons]
    omega

/-- The same is true of the exact debt. -/
theorem halfPointsOfDebt_eq_zero_iff {cs : List Int} :
    halfPointsOfDebt threshold cs = 0 ↔ ∀ c ∈ cs, c ≤ threshold := by
  induction cs with
  | nil => exact iff_of_true rfl fun c hc => absurd hc List.not_mem_nil
  | cons c cs ih =>
    have hnonneg := halfPointsOfDebt_nonneg threshold cs
    rw [halfPointsOfDebt_cons, List.forall_mem_cons, ← ih]
    omega

/-! ### How much debt there is -/

/-- As long as there are at most 53 bits of half points, they are added up exactly. -/
theorem foldlM_accrue_exact {cs : List Int} {x : Binary64} {n : Nat}
    (hx : x.scaled = (n * Binary64.stepsPerHalf : Nat))
    (h : n + halfPointsOfDebt threshold cs < 2 ^ 53) :
    ∃ z, cs.foldlM (accrue threshold) (.finite x) = .ok (.finite z) ∧
      z.scaled = (n + halfPointsOfDebt threshold cs) * Binary64.stepsPerHalf := by
  induction cs generalizing x n with
  | nil =>
    have hnone : halfPointsOfDebt threshold [] = 0 := rfl
    refine ⟨x, rfl, ?_⟩
    rw [hx, Int.natCast_mul, hnone, Int.add_zero]
  | cons c cs ih =>
    have hnonneg := halfPointsOfDebt_nonneg threshold cs
    rw [halfPointsOfDebt_cons] at h ⊢
    rw [List.foldlM_cons]
    rcases le_or_gt c threshold with hle | hlt
    · rw [accrue_of_le hle, max_eq_left (by omega), Int.zero_add]
      exact ih hx (by omega)
    · -- the half points of this file are few enough themselves
      obtain ⟨m, hm⟩ := Int.eq_ofNat_of_zero_le (show 0 ≤ c - threshold by omega)
      rw [max_eq_right (by omega), hm] at h ⊢
      obtain ⟨points, hpoints, hscaled⟩ := half?_natural (show m < 2 ^ 53 by omega)
      obtain ⟨y, hy, hsum⟩ := add_halves hx hscaled (by omega)
      have hstep : accrue threshold (.finite x) c = .ok (.finite y) := by
        unfold accrue
        rw [if_pos (by omega), hm, hpoints]
        exact congrArg Except.ok hy
      rw [hstep]
      obtain ⟨z, hz, hexact⟩ := ih hsum (by omega)
      refine ⟨z, hz, ?_⟩
      rw [hexact, Int.natCast_add, Int.add_assoc]

/-- As long as there are fewer than `2 ^ 53` half points, the debt is not rounded. -/
theorem technicalDebt_exact {cs : List Int} (h : halfPointsOfDebt threshold cs < 2 ^ 53) :
    ∃ x, technicalDebt threshold cs = .ok (.finite x) ∧
      x.scaled = halfPointsOfDebt threshold cs * Binary64.stepsPerHalf := by
  rw [technicalDebt_eq_foldlM]
  have hzero : Binary64.zero.scaled = (0 * Binary64.stepsPerHalf : Nat) := by
    rw [Nat.zero_mul]
    rfl
  obtain ⟨x, hx, hexact⟩ := foldlM_accrue_exact hzero (by rwa [Int.natCast_zero, Int.zero_add])
  refine ⟨x, hx, ?_⟩
  rw [hexact, Int.natCast_zero, Int.zero_add]

end Score

end CodeAtlas
