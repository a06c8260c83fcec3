import Reckon.Number.Shortest
import Reckon.Proofs.Number.Rounding

/-!
# Decimals and doubles

Every decimal is rounded to the nearest double, also where its exponent alone decides the result. So
the double of a decimal depends on its value and not on how the value is split into digits and an
exponent. The shortest decimal of a double is rounded to that double again.
-/
namespace Reckon.Number

variable {m num den num' den' : Nat}

theorem offBy_scaled (h : num * den' = num' * den) (m : Nat) :
    offBy num den m * den' = offBy num' den' m * den := by
  have hfraction : num * unitsPerOne * den' = num' * unitsPerOne * den := by
    rw [Nat.mul_right_comm, h, Nat.mul_right_comm]
  have hpattern : units m * den * den' = units m * den' * den := Nat.mul_right_comm _ _ _
  simp only [offBy, ← Nat.dist_mul_right, hfraction, hpattern]

/-- Fractions of the same value have the same rounding. -/
theorem Rounds.congr (h : num * den' = num' * den) (hden : 0 < den) (hden' : 0 < den')
    (hm : Rounds num den m) : Rounds num' den' m := by
  have hscaled := offBy_scaled h
  refine ⟨hm.le_infinite, fun other hle => ?_, fun other hle hne heq => ?_⟩
  · have hnear := Nat.mul_le_mul_right den' (hm.nearest other hle)
    rw [hscaled, hscaled] at hnear
    exact Nat.le_of_mul_le_mul_right hnear hden
  · refine hm.even other hle hne (Nat.eq_of_mul_eq_mul_right hden' ?_)
    rw [hscaled, hscaled, heq]

/-- The value of a pattern is rounded to that pattern. -/
theorem rounds_of_eq (hm : m ≤ infinite) (hden : 0 < den)
    (h : num * unitsPerOne = units m * den) : Rounds num den m := by
  have hexact : offBy num den m = 0 := by rw [offBy, h, Nat.dist_self]
  refine ⟨hm, fun other _ => by omega, fun other _ hne heq => ?_⟩
  rw [hexact, offBy, h] at heq
  have hsame := Nat.eq_of_mul_eq_mul_right hden (Nat.eq_of_dist_eq_zero heq)
  exact absurd (units_strictMono.injective hsame).symm hne

/-- Below half the least positive double everything is rounded to zero. -/
theorem rounds_zero (h : 2 * (num * unitsPerOne) < den) : Rounds num den 0 := by
  have hgap : gap 0 = 1 := gap_of_lt (by decide)
  have hzero : units 0 = 0 := units_of_lt (by decide)
  have hscaled : num * unitsPerOne = units 0 * den + num * unitsPerOne := by rw [hzero]; omega
  have hrounds := rounds_of_between (by decide) hscaled (by rw [hgap]; omega)
  rwa [hgap, Nat.one_mul, if_pos (.inl h)] at hrounds

namespace Decimal

theorem numerator_of_nonpos {d : Decimal} (h : d.exponent ≤ 0) : d.numerator = d.digits := by
  rw [numerator, Int.toNat_of_nonpos h, Nat.pow_eq, Nat.pow_zero, Nat.mul_one]

theorem denominator_of_nonneg {d : Decimal} (h : 0 ≤ d.exponent) : d.denominator = 1 := by
  rw [denominator, Int.toNat_of_nonpos (by omega), Nat.pow_eq, Nat.pow_zero]

/-- Two decimals that are the same number. -/
def SameValue (d other : Decimal) : Prop :=
  d.numerator * other.denominator = other.numerator * d.denominator

theorem sameValue_of_eq {digits digits' : Nat} {exponent exponent' : Int} (h : digits = digits')
    (he : exponent = exponent') : SameValue ⟨digits, exponent⟩ ⟨digits', exponent'⟩ := by
  rw [h, he, SameValue]

theorem sameValue_of_zero {d other : Decimal} (h : d.digits = 0) (h' : other.digits = 0) :
    d.SameValue other := by
  simp [SameValue, numerator, h, h']

/-- Zeros behind the digits may be written as a part of the exponent. -/
theorem sameValue_shift (digits zeros : Nat) (exponent : Int) :
    SameValue ⟨digits * 10 ^ zeros, exponent⟩ ⟨digits, exponent + zeros⟩ := by
  simp only [SameValue, numerator, denominator, Nat.pow_eq]
  have hpower : zeros + exponent.toNat + (-(exponent + zeros)).toNat =
      (exponent + zeros).toNat + (-exponent).toNat := by omega
  rw [Nat.mul_assoc digits, Nat.mul_assoc digits, Nat.mul_assoc digits, ← Nat.pow_add, ← Nat.pow_add,
    ← Nat.pow_add, hpower]

/-- Three binary digits make less than a decimal one. -/
theorem lt_ten_pow (digits : Nat) : digits < 10 ^ (digits.log2 / 3 + 1) := by
  calc digits < 2 ^ (digits.log2 + 1) := Nat.lt_log2_self
    _ ≤ 2 ^ (3 * (digits.log2 / 3 + 1)) := Nat.pow_le_pow_right (by decide) (by omega)
    _ = 8 ^ (digits.log2 / 3 + 1) := Nat.pow_mul 2 3 _
    _ ≤ 10 ^ (digits.log2 / 3 + 1) := Nat.pow_le_pow_left (by decide) _

/-- A decimal is below any bound that its exponent leaves no digits for. -/
theorem mul_lt_ten_pow {digits bound limit power : Nat} (hbound : bound < 10 ^ limit)
    (h : digits.log2 / 3 + 1 + limit ≤ power) : digits * bound < 10 ^ power := by
  calc digits * bound ≤ 10 ^ (digits.log2 / 3 + 1) * bound := Nat.mul_le_mul_right _ (lt_ten_pow _).le
    _ < 10 ^ (digits.log2 / 3 + 1) * 10 ^ limit :=
        Nat.mul_lt_mul_of_pos_left hbound (Nat.pow_pos (by decide))
    _ = 10 ^ (digits.log2 / 3 + 1 + limit) := (Nat.pow_add 10 _ _).symm
    _ ≤ 10 ^ power := Nat.pow_le_pow_right (by decide) h

/-- A decimal is rounded to the nearest double. -/
theorem rounds_nearest (d : Decimal) : Rounds d.numerator d.denominator d.nearest := by
  by_cases hzero : d.digits = 0
  · rw [nearest, if_pos hzero]
    refine rounds_zero ?_
    rw [numerator, hzero, Nat.zero_mul, Nat.zero_mul]
    exact d.denominator_pos
  by_cases hlarge : tooLarge ≤ d.exponent
  · have hlimit : 2 ^ 1024 ≤ 10 ^ tooLarge.toNat := by decide +kernel
    have hpast : 2 ^ 1024 * d.denominator ≤ d.numerator := by
      have hpositive : 0 ≤ tooLarge := by decide
      rw [denominator_of_nonneg (hpositive.trans hlarge), Nat.mul_one]
      calc 2 ^ 1024 ≤ 10 ^ tooLarge.toNat := hlimit
        _ ≤ 10 ^ d.exponent.toNat := Nat.pow_le_pow_right (by decide) (Int.toNat_le_toNat hlarge)
        _ ≤ d.numerator := Nat.le_mul_of_pos_left _ (Nat.pos_of_ne_zero hzero)
    rw [nearest, if_neg hzero, if_pos hlarge, ← nearest_eq_infinite d.denominator_pos hpast]
    exact Number.rounds_nearest _ d.denominator_pos
  by_cases hsmall : d.exponent + (d.digits.log2 / 3 + 1 : Nat) ≤ tooSmall
  · have hlimit : 2 * unitsPerOne < 10 ^ (-tooSmall).toNat := by decide +kernel
    have hexponent : d.exponent ≤ 0 := by
      simp only [tooSmall] at hsmall
      omega
    rw [nearest, if_neg hzero, if_neg hlarge, if_pos hsmall]
    refine rounds_zero ?_
    rw [numerator_of_nonpos hexponent, Nat.mul_left_comm]
    refine mul_lt_ten_pow hlimit ?_
    simp only [tooSmall] at hsmall ⊢
    omega
  · rw [nearest, if_neg hzero, if_neg hlarge, if_neg hsmall]
    exact Number.rounds_nearest _ d.denominator_pos

/-- The double of a decimal depends on nothing but its value. -/
theorem SameValue.nearest_eq {d other : Decimal} (h : d.SameValue other) :
    d.nearest = other.nearest :=
  (d.rounds_nearest.congr h d.denominator_pos other.denominator_pos).unique other.denominator_pos
    other.rounds_nearest

end Decimal

theorem nearest_of_onGrid? {exponent : Int} {d : Decimal} (h : onGrid? m exponent = some d) :
    d.nearest = m := by
  unfold onGrid? at h
  extract_lets _ _ _ _ _ _ first second at h
  split at h
  · next hfirst =>
    obtain rfl := Option.some.inj h
    exact hfirst
  · split at h
    · next hsecond =>
      obtain rfl := Option.some.inj h
      exact hsecond
    · cases h

theorem nearest_of_shortestFrom {leading : Int} {count more : Nat} {d : Decimal}
    (h : shortestFrom m leading count more = some d) : d.nearest = m := by
  induction more generalizing count with
  | zero => cases h
  | succ more ih =>
    rw [shortestFrom] at h
    rcases Option.or_eq_some_iff.mp h with hgrid | ⟨-, hmore⟩
    · exact nearest_of_onGrid? hgrid
    · exact ih hmore

/-- All digits of a double are rounded to it. -/
theorem nearest_expansion (h : m < infinite) : (expansion m).nearest = m := by
  refine (expansion m).rounds_nearest.unique (expansion m).denominator_pos ?_
  refine rounds_of_eq h.le (expansion m).denominator_pos ?_
  have hten : Nat.pow 5 1074 * unitsPerOne = Nat.pow 10 (-(-1074 : Int)).toNat := by
    decide +kernel
  have hexponent : (expansion m).exponent ≤ 0 := (by decide : (-1074 : Int) ≤ 0)
  rw [Decimal.numerator_of_nonpos hexponent, expansion, Decimal.denominator, ← hten]
  exact Nat.mul_assoc ..

/-- The shortest decimal of a double is rounded to it. -/
theorem nearest_shortest (h : m < infinite) : (shortest m).nearest = m := by
  rw [shortest]
  split
  · next hzero =>
    subst hzero
    rfl
  · cases hfound : shortestFrom m (leadingExponent m) 1 digitLimit with
    | some d => exact nearest_of_shortestFrom hfound
    | none => exact nearest_expansion h

end Reckon.Number
