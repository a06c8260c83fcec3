import Reckon.Calculator
import Reckon.Proofs.Number.Multiple

/-!
# Rounded results

A result is rounded to the nearest multiple of a power of ten, and the multiple to the nearest
double, which need not be a multiple itself. Still it is no further from the multiple than the
result was, so that rounding it again leads to the same multiple and stays where it is.
-/
namespace Reckon
open Number

variable {count : Int} {x y : Float}

/-- What a double is rounded to: the double nearest to the nearest multiple of `10 ^ -count`, under
the sign that it had. What is not finite stays. -/
inductive RoundedTo (count : Int) (x : Float) : Float → Prop
  | finite {q m : Nat} (hx : isFinite x = true)
      (hq : Nearest (multiple (10 ^ (-count))) (value (magnitude x)) q)
      (hm : Nearest value (multiple (10 ^ (-count)) q) m) (h : m < infinite) :
      RoundedTo count x (signed (isNegative x) m)
  | unchanged (h : isFinite x = false) : RoundedTo count x x

theorem magnitude_lt_infinite (h : isFinite x = true) : magnitude x < infinite := of_decide_eq_true h

/-- The result of rounding is nearest to the same multiple. -/
theorem RoundedTo.again (h : RoundedTo count x y) : RoundedTo count y y := by
  cases h with
  | unchanged h => exact .unchanged h
  | @finite q m hx hq hm h =>
    have hnearer := hm.near (magnitude x)
    rw [abs_sub_comm, abs_sub_comm _ (value (magnitude x))] at hnearer
    have hagain : Nearest (multiple (10 ^ (-count))) (value m) q :=
      hq.of_nearer (stepOf_pos count) (value_nonneg _) (value_nonneg _) hnearer
    have hrounded : RoundedTo count (signed (isNegative x) m)
        (signed (isNegative (signed (isNegative x) m)) m) :=
      .finite (isFinite_signed _ h) (by rwa [magnitude_signed _ h]) hm h
    rwa [isNegative_signed _ h] at hrounded

/-- Rounding has a result where the nearest double to the nearest multiple is finite. -/
theorem roundTo?_eq_some_iff : roundTo? count x = some y ↔ RoundedTo count x y := by
  rw [roundTo?]
  by_cases hx : isFinite x = true
  · have hmagnitude := magnitude_lt_infinite hx
    obtain ⟨q, hq, hrounds⟩ := exists_multiple count hmagnitude
    have hden := (Decimal.mk q (-count)).denominator_pos
    simp only [if_pos hx]
    constructor
    · intro h
      split at h
      · next hfinite =>
        obtain rfl := Option.some.inj h
        have hm := hrounds.nearest_value hden hfinite
        rw [Decimal.value_eq] at hm
        exact .finite hx hq hm hfinite
      · cases h
    · intro h
      cases h with
      | unchanged h =>
        rw [hx] at h
        cases h
      | @finite q' m _ hq' hm h =>
        obtain rfl : q' = q := hq'.unique (multiple_strictMono (stepOf_pos count)) hq
        have hm' : Rounds (Decimal.mk q' (-count)).numerator (Decimal.mk q' (-count)).denominator
            m := Nearest.rounds hden (by rwa [Decimal.value_eq]) h.le
        rw [hrounds.unique hden hm', if_pos h]
  · simp only [if_neg hx]
    constructor
    · intro h
      obtain rfl := Option.some.inj h
      exact .unchanged (by simpa using hx)
    · intro h
      cases h with
      | unchanged h => rfl
      | finite hx' _ _ _ => exact absurd hx' hx

namespace Precision

theorem round_places_iff : (places count).round x = .ok y ↔ RoundedTo count x y := by
  rw [← roundTo?_eq_some_iff, Precision.round]
  cases roundTo? count x <;> simp

/-- A result is rounded to the double nearest to its nearest multiple of the power of ten, if that
is finite, and rounding it again at the same precision does not change a bit of it. -/
theorem round_round (count : Int) (x : Float) :
    (∀ y, (places count).round x = .ok y ↔ RoundedTo count x y) ∧
      ∀ y, (places count).round x = .ok y → (places count).round y = .ok y :=
  ⟨fun _ => round_places_iff, fun _ h => round_places_iff.mpr (round_places_iff.mp h).again⟩

/-- The double of 1.5e-323 becomes that of 1e-323, which is not a multiple of it. -/
theorem round_round_least :
    (places 323).round (signed false 3) = .ok (signed false 2) ∧
      (places 323).round (signed false 2) = .ok (signed false 2) := by
  have h : (places 323).round (signed false 3) = .ok (signed false 2) := by decide +kernel
  exact ⟨h, (round_round 323 (signed false 3)).2 _ h⟩

end Precision

end Reckon
