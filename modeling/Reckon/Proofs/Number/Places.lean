import Reckon.Number.Places
import Reckon.Proofs.Number.Rounding

/-!
# Rounded values stay finite

Rounding to places behind the point never takes a finite double past the largest one, as the largest
one is an integer. Rounding in front of the point can.
-/
namespace Reckon.Number

/-- Rounding to a whole number stays below every whole number that the fraction stays below. -/
theorem roundHalfEven_le {num den bound : Nat} (hden : 0 < den) (h : num ≤ bound * den) :
    roundHalfEven num den ≤ bound := by
  have hsplit := Nat.div_add_mod num den
  have hmod := Nat.mod_lt num hden
  have hle : num / den ≤ bound := Nat.div_le_of_le_mul (by rwa [Nat.mul_comm])
  rcases hle.lt_or_eq with hlt | heq
  · simp only [roundHalfEven]
    split <;> omega
  · -- the fraction is the bound itself, so nothing is left to round
    have hexact : num % den = 0 := by
      rw [heq, Nat.mul_comm] at hsplit
      omega
    simp [roundHalfEven, hexact, hden, heq]

theorem units_le_largest {m : Nat} (h : m < infinite) : units m ≤ largestInteger * unitsPerOne := by
  rw [← units_largest]
  exact units_strictMono.monotone (by omega)

theorem nearest_decimal_lt_infinite {digits places : Nat}
    (h : digits ≤ largestInteger * 10 ^ places) :
    (Decimal.mk digits (-places)).nearest < infinite := by
  have hpositive : 0 < infinite := by decide
  have hexponent : ¬Decimal.tooLarge ≤ -(places : Int) := by
    simp only [Decimal.tooLarge]
    omega
  simp only [Decimal.nearest, if_neg hexponent]
  split
  · exact hpositive
  · split
    · exact hpositive
    · refine nearest_lt_infinite (Decimal.denominator_pos _) ?_
      simpa [Decimal.numerator, Decimal.denominator] using h

theorem scaledFraction_neg (m count : Nat) :
    scaledFraction m (-(count : Int)) = (units m * 10 ^ count, unitsPerOne) := by
  have hback : (-(-(count : Int))).toNat = count := by omega
  have hzero : (-(count : Int)).toNat = 0 := by omega
  simp only [scaledFraction, hback, hzero, Nat.pow_eq, Nat.pow_zero, Nat.mul_one]

/-- Rounding to places behind the point always has a result. -/
theorem roundTo?_isSome {places : Int} (h : 0 ≤ places) (x : Float) :
    (roundTo? places x).isSome = true := by
  obtain ⟨count, rfl⟩ := Int.eq_ofNat_of_zero_le h
  rw [roundTo?]
  split
  · next hfinite =>
    have hm : magnitude x < infinite := of_decide_eq_true hfinite
    have hpattern : roundedPattern count (magnitude x) < infinite := by
      rw [roundedPattern]
      split
      · exact hm
      · split
        · exact (by decide : 0 < infinite)
        · have hle := Nat.mul_le_mul_right (10 ^ count) (units_le_largest hm)
          rw [Nat.mul_right_comm] at hle
          simp only [scaledFraction_neg]
          exact nearest_decimal_lt_infinite (roundHalfEven_le unitsPerOne_pos hle)
    simp only [if_pos hpattern, Option.isSome_some]
  · rfl

end Reckon.Number
