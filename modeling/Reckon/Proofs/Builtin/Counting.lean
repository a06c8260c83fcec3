import Reckon.Builtin.Counting
import Reckon.Proofs.Number.Rounding

/-!
# Counts that fit a double

The counting functions build an exact integer and round it once, unless an estimate of its logarithm
says that it is past the largest double. So they are exact on a count that fits just where the
estimate says so too.
-/
namespace Reckon.Builtin
open Number

variable {n k : Nat} {x y : Float}

/-- Every division on the way to a binomial coefficient is exact. -/
theorem subsets_eq_choose (n k : Nat) : subsets n k = n.choose k := by
  induction k with
  | zero => rw [subsets, Nat.choose_zero_right]
  | succ k ih => rw [subsets, ih, ← Nat.choose_succ_right_eq, Nat.mul_div_cancel _ k.succ_pos]

theorem arrangements_eq_descFactorial (n k : Nat) : arrangements n k = n.descFactorial k := by
  induction k with
  | zero => rw [arrangements, Nat.descFactorial_zero]
  | succ k ih => rw [arrangements, ih, Nat.descFactorial_succ, Nat.mul_comm]

theorem arrangements_eq_div (h : k ≤ n) : arrangements n k = n.factorial / (n - k).factorial := by
  rw [arrangements_eq_descFactorial, Nat.descFactorial_eq_div h]

/-- As many elements are chosen as left, so the smaller choice counts both. -/
theorem subsets_min (h : k ≤ n) : subsets n (min k (n - k)) = n.choose k := by
  rw [subsets_eq_choose]
  rcases Nat.le_total k (n - k) with hle | hle
  · rw [Nat.min_eq_left hle]
  · rw [Nat.min_eq_right hle, Nat.choose_symm h]

/-- A count as a finite double. -/
def Exact (result : Except Breakdown Float) (count : Nat) : Prop :=
  ∃ m < infinite, Rounds count 1 m ∧ result = .ok (signed false m)

/-- A count is exact if it fits and the estimate says so, and infinite if it does not fit and there
is an estimate. An empty choice is not estimated. -/
def Guarded (result : Except Breakdown Float) (count size : Nat) (exceeds : Except Breakdown Bool) :
    Prop :=
  (count ≤ largestInteger → (Exact result count ↔ size = 0 ∨ exceeds = .ok false)) ∧
    (2 ^ 1024 ≤ count → (result = .ok infinity ↔ ∃ answer, exceeds = .ok answer))

theorem exact_rounded {count : Nat} (h : count ≤ largestInteger) :
    Exact (.ok (rounded count)) count := by
  have hfinite := nearest_lt_infinite Nat.one_pos (h.trans_eq (Nat.mul_one _).symm)
  exact ⟨_, hfinite, rounds_nearest count Nat.one_pos, rfl⟩

theorem not_exact_infinity {count : Nat} : ¬Exact (.ok infinity) count := by
  rintro ⟨m, hm, -, heq⟩
  have hfinite := isFinite_signed false hm
  rw [← Except.ok.inj heq] at hfinite
  exact absurd hfinite (by decide +kernel)

theorem rounded_eq_infinity {count : Nat} (h : 2 ^ 1024 ≤ count) : rounded count = infinity := by
  have hinfinite := nearest_eq_infinite Nat.one_pos ((Nat.mul_one _).trans_le h)
  rw [rounded, quotient, hinfinite, infinity]

theorem counted_guarded (exceeds : Nat → Nat → Except Breakdown Bool) (count : Nat → Nat → Nat)
    (hone : count n 0 = 1) :
    Guarded (counted exceeds count n k) (count n k) k (exceeds n k) := by
  cases k with
  | zero =>
    rw [hone, counted, if_pos rfl, hone]
    have hfits : 1 ≤ largestInteger := by decide +kernel
    have hnot : ¬2 ^ 1024 ≤ 1 := by decide +kernel
    exact ⟨fun h => ⟨fun _ => .inl rfl, fun _ => exact_rounded h⟩, fun h => absurd h hnot⟩
  | succ k =>
    rw [counted, if_neg k.succ_ne_zero]
    rcases exceeds n (k + 1) with breakdown | ⟨⟩ | ⟨⟩
    · change Guarded (.error breakdown) _ _ _
      exact ⟨fun _ => by simp [Exact], fun _ => by simp⟩
    · change Guarded (.ok (rounded (count n (k + 1)))) _ _ _
      exact ⟨fun h => ⟨fun _ => .inr rfl, fun _ => exact_rounded h⟩,
        fun h => ⟨fun _ => ⟨_, rfl⟩, fun _ => congrArg _ (rounded_eq_infinity h)⟩⟩
    · change Guarded (.ok infinity) _ _ _
      exact ⟨fun _ => ⟨fun h => absurd h not_exact_infinity, fun h => by simp at h⟩,
        fun _ => ⟨fun _ => ⟨_, rfl⟩, fun _ => rfl⟩⟩

theorem onTruncated_of_le {count : Nat → Nat → Except Breakdown Float}
    (hx : truncated? x = some (n : Int)) (hy : truncated? y = some (k : Int)) (hk : k ≤ n) :
    onTruncated count x y = count n k := by
  simp only [onTruncated, hx, hy]
  exact if_neg (Nat.not_lt.mpr hk)

/-- Both counting functions are exact on a count that fits if and only if their estimate says that
it does, and infinite past the doubles if and only if there is an estimate. -/
theorem counts_guarded (e : Estimates) (hx : truncated? x = some (n : Int))
    (hy : truncated? y = some (k : Int)) (hk : k ≤ n) :
    Guarded (binomial e x y) (n.choose k) (min k (n - k)) (e.subsetsExceed n (min k (n - k))) ∧
      Guarded (permutations e x y) (n.factorial / (n - k).factorial) k
        (e.arrangementsExceed n k) := by
  constructor
  · rw [binomial, onTruncated_of_le hx hy hk, ← subsets_min hk]
    exact counted_guarded e.subsetsExceed subsets rfl
  · rw [permutations, onTruncated_of_le hx hy hk, ← arrangements_eq_div hk]
    exact counted_guarded e.arrangementsExceed arrangements rfl

theorem counts_guarded_pairs :
    Guarded (binomial .double 5.0 3.5) (Nat.choose 5 3) (min 3 (5 - 3))
        (Estimates.double.subsetsExceed 5 (min 3 (5 - 3))) ∧
      Guarded (permutations .double 5.0 3.5) (Nat.factorial 5 / Nat.factorial (5 - 3)) 3
        (Estimates.double.arrangementsExceed 5 3) :=
  counts_guarded .double (by decide +kernel) (by decide +kernel) (by decide)

/-- The logarithms that are asked for below, each the nearest double. -/
def nearestLogarithms : Estimates where
  log x := if x == largest then 709.782712893384 else 36.67617594786067
  logGamma? x :=
    some (if x == 18.0 then 33.50507345013689
      else if x == 144115188075855936.0 then 5549787880490953728.0
      else 5549787880490955776.0)

/-- The estimate cancels out for large numbers, however exact the logarithms are: a count of 278
digits is taken to be past the doubles. -/
theorem not_exact_of_cancelling :
    Nat.choose 144115188075855968 17 ≤ largestInteger ∧
      binomial nearestLogarithms 144115188075855968.0 17.0 = .ok infinity := by
  constructor
  · rw [← subsets_eq_choose]
    decide +kernel
  · decide +kernel

end Reckon.Builtin
