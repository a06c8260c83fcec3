import Reckon.Proofs.Number.Decimal
import Reckon.Proofs.Number.Places

/-!
# The nearest multiple of a power of ten

Two grids take part in rounding to decimal places: the multiples of a power of ten, and the doubles.
On both the nearest place is taken, and the even one of two that are equally near. A multiple is
nearest if it is at most half a step away, so that whatever lies closer to it than a number that is
rounded to it is rounded to it, too. Places so many or so few that nothing is computed for them are
no exception.
-/
namespace Reckon.Number

/-- A place of a grid that is nearest to a number: no other one is nearer, and it is even if another
one is equally near. -/
structure Nearest (grid : Nat → ℚ) (x : ℚ) (m : Nat) : Prop where
  near : ∀ other, |x - grid m| ≤ |x - grid other|
  even : ∀ other, other ≠ m → |x - grid other| = |x - grid m| → m % 2 = 0

variable {grid : Nat → ℚ} {x y step : ℚ} {m q : Nat}

/-- On a growing grid there is only one nearest place. -/
theorem Nearest.unique (hgrid : StrictMono grid) {other : Nat} (h : Nearest grid x m)
    (h' : Nearest grid x other) : m = other := by
  wlog hlt : m < other generalizing m other
  · rcases Nat.lt_trichotomy m other with hlt' | rfl | hgt
    · exact absurd hlt' hlt
    · rfl
    · exact (this h' h hgt).symm
  exfalso
  have hsame : |x - grid m| = |x - grid other| := le_antisymm (h.near other) (h'.near m)
  have heven := h.even other hlt.ne' hsame.symm
  have heven' := h'.even m hlt.ne hsame
  -- both are even, so there is a place between them, which is nearer
  have hfirst : grid m < grid (m + 1) := hgrid (Nat.lt_succ_self m)
  have hsecond : grid (m + 1) < grid other := hgrid (by omega)
  have hnear := h.near (m + 1)
  rcases abs_cases (x - grid m) with hm | hm <;>
    rcases abs_cases (x - grid other) with ho | ho <;>
      rcases abs_cases (x - grid (m + 1)) with hb | hb <;> linarith

/-- The multiples of a step. -/
def multiple (step : ℚ) (q : Nat) : ℚ := q * step

@[simp] theorem multiple_zero (step : ℚ) : multiple step 0 = 0 := by simp [multiple]

theorem multiple_succ (step : ℚ) (q : Nat) : multiple step (q + 1) = multiple step q + step := by
  rw [multiple, Nat.cast_succ, add_mul, one_mul, multiple]

theorem multiple_strictMono (hstep : 0 < step) : StrictMono (multiple step) :=
  strictMono_nat_of_lt_succ fun q => by
    rw [multiple_succ]
    linarith

theorem step_le_of_ne (hstep : 0 < step) {other : Nat} (hne : other ≠ q) :
    step ≤ |multiple step other - multiple step q| := by
  have hmono := (multiple_strictMono hstep).monotone
  rcases Nat.lt_or_gt_of_ne hne with hlt | hlt
  · have hle := hmono (Nat.succ_le_of_lt hlt)
    rw [Nat.succ_eq_add_one, multiple_succ] at hle
    rw [abs_of_nonpos] <;> linarith
  · have hle := hmono (Nat.succ_le_of_lt hlt)
    rw [Nat.succ_eq_add_one, multiple_succ] at hle
    rw [abs_of_nonneg] <;> linarith

/-- The nearest multiple is at most half a step away, and even if it is just that far. -/
theorem nearest_multiple_iff (hstep : 0 < step) (hx : 0 ≤ x) :
    Nearest (multiple step) x q ↔
      |x - multiple step q| ≤ step / 2 ∧ (|x - multiple step q| = step / 2 → q % 2 = 0) := by
  constructor
  · intro h
    have habove := h.near (q + 1)
    have habove' := h.even (q + 1) (by omega)
    rw [multiple_succ] at habove habove'
    cases q with
    | zero =>
      simp only [multiple_zero, sub_zero, zero_add, abs_of_nonneg hx] at habove habove' ⊢
      refine ⟨?_, fun _ => trivial⟩
      rcases abs_cases (x - step) with hs | hs <;> linarith
    | succ p =>
      have hbelow := h.near p
      have hbelow' := h.even p (by omega)
      rw [multiple_succ] at habove habove' hbelow hbelow' ⊢
      generalize multiple step p = z at *
      rcases abs_cases (x - (z + step)) with hz | hz
      · rcases abs_cases (x - (z + step + step)) with ha | ha
        · exact ⟨by linarith, fun _ => by linarith⟩
        · exact ⟨by linarith, fun heq => habove' (by linarith)⟩
      · rcases abs_cases (x - z) with hb | hb
        · exact ⟨by linarith, fun heq => hbelow' (by linarith)⟩
        · exact ⟨by linarith, fun _ => by linarith⟩
  · rintro ⟨hhalf, heven⟩
    have hfar : ∀ other, other ≠ q → step / 2 ≤ |x - multiple step other| := by
      intro other hne
      have hgap := step_le_of_ne hstep hne
      have hsum := abs_sub_le (multiple step other) x (multiple step q)
      rw [abs_sub_comm (multiple step other) x] at hsum
      linarith
    refine ⟨fun other => ?_, fun other hne heq => ?_⟩
    · by_cases hne : other = q
      · rw [hne]
      · exact hhalf.trans (hfar other hne)
    · exact heven (le_antisymm hhalf (heq ▸ hfar other hne))

/-- What is no further from the nearest multiple of a number has that nearest multiple, too. -/
theorem Nearest.of_nearer (hstep : 0 < step) (hx : 0 ≤ x) (hy : 0 ≤ y)
    (h : Nearest (multiple step) x q) (hle : |y - multiple step q| ≤ |x - multiple step q|) :
    Nearest (multiple step) y q := by
  obtain ⟨hhalf, heven⟩ := (nearest_multiple_iff hstep hx).mp h
  refine (nearest_multiple_iff hstep hy).mpr ⟨hle.trans hhalf, fun heq => heven ?_⟩
  exact le_antisymm hhalf (heq ▸ hle)

/-- The whole number nearest to a fraction makes the multiple nearest to as many steps. -/
theorem nearest_roundHalfEven (num : Nat) {den : Nat} (hden : 0 < den) (hstep : 0 < step) :
    Nearest (multiple step) (num / den * step) (roundHalfEven num den) := by
  have hden' : (0 : ℚ) < den := Nat.cast_pos.mpr hden
  obtain ⟨rest, hsplit, hrest, hrest', hlow, hhalf⟩ : ∃ rest : ℚ,
      num / den * step = multiple step (num / den : Nat) + rest ∧ 0 ≤ rest ∧ rest < step ∧
        (2 * (num % den) < den ↔ 2 * rest < step) ∧ (2 * (num % den) = den ↔ 2 * rest = step) := by
    have hnum : (num : ℚ) = den * (num / den : Nat) + (num % den : Nat) := by
      exact_mod_cast (Nat.div_add_mod num den).symm
    have hmod : ((num % den : Nat) : ℚ) < den := by exact_mod_cast Nat.mod_lt num hden
    refine ⟨(num % den : Nat) / den * step, ?_, by positivity, ?_, ?_, ?_⟩
    · rw [multiple, ← add_mul, hnum]
      field_simp
    · rw [div_mul_eq_mul_div, div_lt_iff₀ hden', mul_comm]
      exact mul_lt_mul_of_pos_left hmod hstep
    · rw [← mul_assoc, ← mul_div_assoc, div_mul_eq_mul_div, div_lt_iff₀ hden', mul_comm step,
        mul_lt_mul_iff_left₀ hstep]
      norm_cast
    · rw [← mul_assoc, ← mul_div_assoc, div_mul_eq_mul_div, div_eq_iff hden'.ne', mul_comm step,
        mul_left_inj' hstep.ne']
      norm_cast
  have hx : 0 ≤ num / den * step := by positivity
  rw [nearest_multiple_iff hstep hx, roundHalfEven, hsplit]
  by_cases hnear : 2 * (num % den) < den ∨ (2 * (num % den) = den ∧ num / den % 2 = 0)
  · simp only [if_pos hnear, add_sub_cancel_left, abs_of_nonneg hrest]
    rw [hlow, hhalf] at hnear
    rcases hnear with hless | ⟨htie, heven⟩
    · exact ⟨by linarith, fun heq => by linarith⟩
    · exact ⟨by linarith, fun _ => heven⟩
  · have hdown : multiple step (num / den) + rest - multiple step (num / den + 1) = rest - step := by
      rw [multiple_succ]
      ring
    simp only [if_neg hnear, hdown, abs_of_nonpos (by linarith : rest - step ≤ 0)]
    rw [hlow, hhalf, not_or, not_and, not_lt] at hnear
    exact ⟨by linarith [hnear.1], fun heq => by have := hnear.2 (by linarith); omega⟩

/-- The value of a finite pattern. The grid goes on past the largest double. -/
def value (m : Nat) : ℚ := units m / unitsPerOne

theorem unitsPerOne_cast_pos : (0 : ℚ) < unitsPerOne := Nat.cast_pos.mpr unitsPerOne_pos

theorem value_nonneg (m : Nat) : 0 ≤ value m := by
  rw [value]
  positivity

theorem value_strictMono : StrictMono value := fun _ _ h =>
  div_lt_div_of_pos_right (Nat.cast_lt.mpr (units_strictMono h)) unitsPerOne_cast_pos

section Fraction
variable {num den : Nat} (hden : 0 < den)
include hden

theorem offBy_eq (num m : Nat) : (offBy num den m : ℚ) = |num / den - value m| * (den * unitsPerOne) := by
  have hden' : (0 : ℚ) < den := Nat.cast_pos.mpr hden
  have hunits := unitsPerOne_cast_pos
  have hdist : ∀ a b : Nat, (Nat.dist a b : ℚ) = |(a : ℚ) - b| := by
    intro a b
    rcases Nat.le_total a b with h | h
    · rw [Nat.dist_eq_sub_of_le h, Nat.cast_sub h, abs_sub_comm, abs_of_nonneg]
      exact sub_nonneg.mpr (Nat.cast_le.mpr h)
    · rw [Nat.dist_eq_sub_of_le_right h, Nat.cast_sub h, abs_of_nonneg]
      exact sub_nonneg.mpr (Nat.cast_le.mpr h)
  have hfraction : (num / den : ℚ) * (den * unitsPerOne) = num * unitsPerOne := by
    rw [← mul_assoc, div_mul_cancel₀ _ hden'.ne']
  have hpattern : value m * (den * unitsPerOne) = units m * den := by
    rw [value, mul_comm (den : ℚ), ← mul_assoc, div_mul_cancel₀ _ hunits.ne']
  rw [offBy, hdist, ← abs_of_pos (mul_pos hden' hunits), ← abs_mul, sub_mul, hfraction, hpattern,
    Nat.cast_mul, Nat.cast_mul]

theorem offBy_le_iff {m other : Nat} :
    offBy num den m ≤ offBy num den other ↔ |num / den - value m| ≤ |(num / den : ℚ) - value other| := by
  have hpos : (0 : ℚ) < den * unitsPerOne := mul_pos (Nat.cast_pos.mpr hden) unitsPerOne_cast_pos
  rw [← Nat.cast_le (α := ℚ), offBy_eq hden, offBy_eq hden, mul_le_mul_iff_left₀ hpos]

theorem offBy_inj {m other : Nat} :
    offBy num den m = offBy num den other ↔ |num / den - value m| = |(num / den : ℚ) - value other| := by
  rw [le_antisymm_iff, le_antisymm_iff, offBy_le_iff hden, offBy_le_iff hden]

/-- The nearest place of the whole grid is the rounding of a fraction, unless it is past infinity. -/
theorem Nearest.rounds (h : Nearest value (num / den) m) (hm : m ≤ infinite) : Rounds num den m :=
  ⟨hm, fun other _ => (offBy_le_iff hden).mpr (h.near other), fun other _ hne heq =>
    h.even other hne ((offBy_inj hden).mp heq)⟩

/-- A finite rounding is the nearest place of the whole grid: what lies past infinity is further
away than infinity. -/
theorem Rounds.nearest_value (h : Rounds num den m) (hm : m < infinite) :
    Nearest value (num / den) m := by
  have hlast := (offBy_le_iff hden).mp (h.nearest infinite le_rfl)
  have hgrow : value m < value infinite := value_strictMono hm
  have hfar : ∀ other, infinite < other → |(num / den : ℚ) - value m| < |num / den - value other| := by
    intro other hother
    have hother' : value infinite < value other := value_strictMono hother
    rcases abs_cases ((num / den : ℚ) - value m) with h₁ | h₁ <;>
      rcases abs_cases ((num / den : ℚ) - value infinite) with h₂ | h₂ <;>
        rcases abs_cases ((num / den : ℚ) - value other) with h₃ | h₃ <;> linarith
  refine ⟨fun other => ?_, fun other hne heq => ?_⟩
  · rcases le_or_gt other infinite with hle | hgt
    · exact (offBy_le_iff hden).mp (h.nearest other hle)
    · exact (hfar other hgt).le
  · rcases le_or_gt other infinite with hle | hgt
    · exact h.even other hle hne ((offBy_inj hden).mpr heq)
    · exact absurd heq (hfar other hgt).ne'

end Fraction

/-- What is off by less than half the least positive double is rounded to that double. -/
theorem nearest_value_of_lt (h : 2 * (|x - value m| * unitsPerOne) < 1) : Nearest value x m := by
  have hunits := unitsPerOne_cast_pos
  have hfar : ∀ other, other ≠ m → |x - value m| < |x - value other| := by
    intro other hne
    have hapart : 1 ≤ |value other - value m| * unitsPerOne := by
      rw [← abs_of_pos hunits, ← abs_mul, sub_mul, value, value,
        div_mul_cancel₀ _ hunits.ne', div_mul_cancel₀ _ hunits.ne']
      have hne' : (units other : Int) - units m ≠ 0 := by
        rw [sub_ne_zero]
        exact_mod_cast units_strictMono.injective.ne hne
      exact_mod_cast Int.one_le_abs hne'
    have hsum := abs_sub_le (value other) x (value m)
    rw [abs_sub_comm (value other) x] at hsum
    have hscaled := mul_le_mul_of_nonneg_right hsum hunits.le
    rw [add_mul] at hscaled
    exact lt_of_mul_lt_mul_right (by linarith) hunits.le
  refine ⟨fun other => ?_, fun other hne heq => absurd heq (hfar other hne).ne'⟩
  by_cases hne : other = m
  · rw [hne]
  · exact (hfar other hne).le

/-- The step between multiples that are written with so many places. -/
def stepOf (places : Int) : ℚ := 10 ^ (-places)

theorem stepOf_pos (places : Int) : 0 < stepOf places := by
  rw [stepOf]
  positivity

theorem Decimal.value_eq (q : Nat) (places : Int) :
    ((Decimal.mk q (-places)).numerator : ℚ) / (Decimal.mk q (-places)).denominator =
      multiple (stepOf places) q := by
  rw [Decimal.numerator, Decimal.denominator, multiple, stepOf]
  push_cast [Nat.pow_eq]
  rcases le_total 0 places with h | h
  · obtain ⟨n, rfl⟩ := Int.eq_ofNat_of_zero_le h
    simp [zpow_neg, div_eq_mul_inv]
  · obtain ⟨n, hn⟩ := Int.eq_ofNat_of_zero_le (neg_nonneg.mpr h)
    obtain rfl : places = -n := by omega
    simp

theorem scaledFraction_value (m : Nat) (places : Int) :
    ((scaledFraction m (-places)).1 : ℚ) / (scaledFraction m (-places)).2 * stepOf places = value m := by
  have hunits := unitsPerOne_cast_pos.ne'
  rw [scaledFraction, value, stepOf]
  push_cast [Nat.pow_eq]
  rcases le_total 0 places with h | h
  · obtain ⟨n, rfl⟩ := Int.eq_ofNat_of_zero_le h
    simp only [neg_neg, Int.toNat_natCast, zpow_neg, zpow_natCast]
    rw [Int.toNat_of_nonpos (by omega)]
    field_simp
  · obtain ⟨n, hn⟩ := Int.eq_ofNat_of_zero_le (neg_nonneg.mpr h)
    obtain rfl : places = -n := by omega
    simp only [neg_neg, Int.toNat_natCast, zpow_natCast]
    rw [Int.toNat_of_nonpos (by omega)]
    field_simp

theorem denominator_scaledFraction_pos (m : Nat) (exponent : Int) : 0 < (scaledFraction m exponent).2 :=
  Nat.mul_pos unitsPerOne_pos (Nat.pow_pos (by decide))

/-- With so many places the step is below the least positive double. -/
theorem stepOf_mul_unitsPerOne_lt {places : Int} (h : placesLimit < places) :
    stepOf places * unitsPerOne < 1 := by
  have hpower : (unitsPerOne : ℚ) < 10 ^ (324 : Int) := by
    have hnat : unitsPerOne < 10 ^ 324 := by decide +kernel
    exact_mod_cast hnat
  have hle : stepOf places ≤ 10 ^ (-324 : Int) :=
    zpow_le_zpow_right₀ (by norm_num) (by simp only [placesLimit] at h; omega)
  calc stepOf places * unitsPerOne ≤ 10 ^ (-324 : Int) * unitsPerOne :=
        mul_le_mul_of_nonneg_right hle unitsPerOne_cast_pos.le
    _ < 10 ^ (-324 : Int) * 10 ^ (324 : Int) := mul_lt_mul_of_pos_left hpower (by positivity)
    _ = 1 := by rw [← zpow_add₀ (by norm_num)]; norm_num

/-- With so few places half a step is above the largest double. -/
theorem two_mul_value_lt_stepOf {places : Int} (h : places < placesFloor) (hm : m < infinite) :
    2 * value m < stepOf places := by
  have hvalue : value m ≤ largestInteger := by
    rw [value, div_le_iff₀ unitsPerOne_cast_pos]
    exact_mod_cast units_le_largest hm
  have hpower : (2 * largestInteger : ℚ) < 10 ^ (309 : Int) := by
    have hnat : 2 * largestInteger < 10 ^ 309 := by decide +kernel
    exact_mod_cast hnat
  have hle : (10 : ℚ) ^ (309 : Int) ≤ stepOf places :=
    zpow_le_zpow_right₀ (by norm_num) (by simp only [placesFloor] at h; omega)
  linarith

/-- A pattern is rounded to the double nearest to its nearest multiple, for any number of places. -/
theorem exists_multiple (places : Int) (hm : m < infinite) :
    ∃ q, Nearest (multiple (stepOf places)) (value m) q ∧
      Rounds (Decimal.mk q (-places)).numerator (Decimal.mk q (-places)).denominator
        (roundedPattern places m) := by
  have hstep := stepOf_pos places
  have hnearest := nearest_roundHalfEven (scaledFraction m (-places)).1
    (denominator_scaledFraction_pos m (-places)) hstep
  rw [scaledFraction_value] at hnearest
  rw [roundedPattern]
  split
  case isTrue hmany =>
    refine ⟨_, hnearest, Nearest.rounds (Decimal.denominator_pos _) ?_ hm.le⟩
    rw [Decimal.value_eq]
    refine nearest_value_of_lt ?_
    have hhalf := ((nearest_multiple_iff hstep (value_nonneg m)).mp hnearest).1
    have hsmall := stepOf_mul_unitsPerOne_lt hmany
    have hscaled := mul_le_mul_of_nonneg_right hhalf unitsPerOne_cast_pos.le
    rw [abs_sub_comm]
    linarith
  case isFalse =>
    split
    case isTrue hfew =>
      refine ⟨0, ?_, Nearest.rounds (Decimal.denominator_pos _) ?_ (by decide)⟩
      · rw [nearest_multiple_iff hstep (value_nonneg m), multiple_zero, sub_zero,
          abs_of_nonneg (value_nonneg m)]
        have hlarge := two_mul_value_lt_stepOf hfew hm
        exact ⟨by linarith, fun heq => by linarith⟩
      · have hzero : value 0 = 0 := by rw [value, units_of_lt (by decide), Nat.cast_zero, zero_div]
        rw [Decimal.value_eq, multiple_zero]
        refine nearest_value_of_lt ?_
        rw [hzero, sub_zero, abs_zero, zero_mul, mul_zero]
        exact zero_lt_one
    case isFalse => exact ⟨_, hnearest, Decimal.rounds_nearest _⟩

end Reckon.Number
