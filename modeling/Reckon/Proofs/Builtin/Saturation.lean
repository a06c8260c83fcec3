import Mathlib.Analysis.SpecialFunctions.Log.Basic
import Reckon.Proofs.Builtin.Counting

/-!
# Saturating before counting

The first estimate of a count and the limit of the factorials are lower bounds: read with exact
logarithms they saturate a count only where it is past the largest double. Nothing like it holds
of the second estimate, which is a difference.
-/
namespace Reckon.Builtin
open Number

variable {n k limit : Nat} {x y : Float}

/-- How the first estimates are read: whole numbers, the logarithms of fractions, and the logarithm
that saturates. -/
structure Reading (α : Type) where
  whole : Nat → α
  log : Nat → Nat → α
  bound : α

/-- The first estimate for subsets, `k` times the logarithm of `n / k`. -/
def Reading.subsetsBelow {α : Type} [Mul α] (r : Reading α) (n k : Nat) : α :=
  r.whole k * r.log n k

/-- The first estimate for arrangements: none of the `k` factors is less than the last. -/
def Reading.arrangementsBelow {α : Type} [Mul α] (r : Reading α) (n k : Nat) : α :=
  r.whole k * r.log (n - k + 1) 1

/-- The reading in doubles, every step rounded. -/
def Estimates.reading (e : Estimates) : Reading Float where
  whole := rounded
  log num den := e.log (quotient num den)
  bound := e.log largest

/-- The exact reading, for counts past `limit`. -/
noncomputable def exactly (limit : Nat) : Reading ℝ where
  whole k := k
  log num den := Real.log (num / den)
  bound := Real.log limit

/-- The second estimate for subsets alone, a difference of logarithms. -/
def Estimates.subsetsDifference (e : Estimates) (n k : Nat) : Except Breakdown Bool := do
  let all ← e.logFactorial n
  let left ← e.logFactorial (n - k)
  let chosen ← e.logFactorial k
  return e.exceeds (all - left - chosen)

/-- The second estimate for arrangements alone. -/
def Estimates.arrangementsDifference (e : Estimates) (n k : Nat) : Except Breakdown Bool := do
  let all ← e.logFactorial n
  let left ← e.logFactorial (n - k)
  return e.exceeds (all - left)

/-- The guard for subsets is the second estimate where the first one does not saturate. -/
theorem subsetsExceed_of_not {e : Estimates}
    (h : ¬e.reading.bound < e.reading.subsetsBelow n k) :
    e.subsetsExceed n k = e.subsetsDifference n k := by
  have hfirst : e.exceeds (rounded k * e.log (quotient n k)) = false := decide_eq_false h
  simp only [Estimates.subsetsExceed, Estimates.subsetsDifference, hfirst, Bool.false_or]

theorem arrangementsExceed_of_not {e : Estimates}
    (h : ¬e.reading.bound < e.reading.arrangementsBelow n k) :
    e.arrangementsExceed n k = e.arrangementsDifference n k := by
  have hfirst : e.exceeds (rounded k * e.log (rounded (n - k + 1))) = false := decide_eq_false h
  simp only [Estimates.arrangementsExceed, Estimates.arrangementsDifference, hfirst, Bool.false_or]

/-- Each factor `n - j` is at least `n / k` times the factor `k - j`. -/
theorem arrangements_mul_pow_le (h : k ≤ n) (j : Nat) :
    arrangements k j * n ^ j ≤ arrangements n j * k ^ j := by
  induction j with
  | zero => exact le_rfl
  | succ j ih =>
    have hfactor : (k - j) * n ≤ (n - j) * k := by
      rw [Nat.sub_mul, Nat.sub_mul, Nat.mul_comm k n]
      exact Nat.sub_le_sub_left (Nat.mul_le_mul_left j h) _
    calc arrangements k (j + 1) * n ^ (j + 1)
        = arrangements k j * n ^ j * ((k - j) * n) := by rw [arrangements, pow_succ]; ring
      _ ≤ arrangements n j * k ^ j * ((n - j) * k) := Nat.mul_le_mul ih hfactor
      _ = arrangements n (j + 1) * k ^ (j + 1) := by rw [arrangements, pow_succ]; ring

theorem pow_le_subsets_mul_pow (h : k ≤ n) : n ^ k ≤ subsets n k * k ^ k := by
  have hall := arrangements_mul_pow_le h k
  rw [arrangements_eq_descFactorial, arrangements_eq_descFactorial, Nat.descFactorial_self,
    Nat.descFactorial_eq_factorial_mul_choose, ← subsets_eq_choose, Nat.mul_assoc] at hall
  exact Nat.le_of_mul_le_mul_left hall k.factorial_pos

theorem pow_le_arrangements (h : k ≤ n) : (n - k + 1) ^ k ≤ arrangements n k := by
  rw [arrangements_eq_descFactorial, ← Nat.sub_add_comm h]
  exact Nat.pow_sub_le_descFactorial n k

theorem lt_subsets (h : k ≤ n) (hpast : limit * k ^ k < n ^ k) :
    limit < subsets n k :=
  Nat.lt_of_mul_lt_mul_right (hpast.trans_le (pow_le_subsets_mul_pow h))

theorem lt_arrangements (h : k ≤ n) (hpast : limit < (n - k + 1) ^ k) :
    limit < arrangements n k :=
  hpast.trans_le (pow_le_arrangements h)

/-- The logarithm of a power is past a logarithm where the power is. -/
theorem log_lt_mul_log_iff {num den : Nat} (hlimit : 1 ≤ limit) (hnum : 0 < num) (hden : 0 < den) :
    (exactly limit).bound < (exactly limit).whole k * (exactly limit).log num den ↔
      limit * den ^ k < num ^ k := by
  have hlimit' : (0 : ℝ) < limit := Nat.cast_pos.mpr hlimit
  have hnum' : (0 : ℝ) < num := Nat.cast_pos.mpr hnum
  have hden' : (0 : ℝ) < den := Nat.cast_pos.mpr hden
  calc Real.log limit < k * Real.log (num / den)
      ↔ Real.log limit < Real.log ((num / den) ^ k) := by rw [Real.log_pow]
    _ ↔ (limit : ℝ) < (num / den) ^ k :=
        Real.log_lt_log_iff hlimit' (pow_pos (div_pos hnum' hden') k)
    _ ↔ (limit : ℝ) * den ^ k < num ^ k := by rw [div_pow, lt_div_iff₀ (pow_pos hden' k)]
    _ ↔ limit * den ^ k < num ^ k := by exact_mod_cast Iff.rfl

theorem subsetsBelow_iff (hlimit : 1 ≤ limit) (hk : 1 ≤ k) (h : k ≤ n) :
    (exactly limit).bound < (exactly limit).subsetsBelow n k ↔ limit * k ^ k < n ^ k :=
  log_lt_mul_log_iff hlimit (hk.trans h) hk

theorem arrangementsBelow_iff (hlimit : 1 ≤ limit) :
    (exactly limit).bound < (exactly limit).arrangementsBelow n k ↔ limit < (n - k + 1) ^ k := by
  have hlog := log_lt_mul_log_iff (k := k) hlimit (n - k).succ_pos Nat.one_pos
  rwa [one_pow, Nat.mul_one] at hlog

theorem factorial_eq (n : Nat) : factorial n = n.factorial := by
  induction n with
  | zero => rfl
  | succ n ih => rw [factorial, ih, Nat.factorial_succ]

theorem factorial_le_largestInteger (h : n ≤ factorialLimit) : factorial n ≤ largestInteger := by
  have hlimit : factorial factorialLimit ≤ largestInteger := by decide +kernel
  rw [factorial_eq] at hlimit ⊢
  exact (Nat.factorial_le h).trans hlimit

theorem le_factorial (h : factorialLimit < n) : 2 ^ 1024 ≤ factorial n := by
  have hnext : 2 ^ 1024 ≤ factorial (factorialLimit + 1) := by decide +kernel
  rw [factorial_eq] at hnext ⊢
  exact hnext.trans (Nat.factorial_le h)

theorem le_factorial_iff : 2 ^ 1024 ≤ factorial n ↔ factorialLimit < n := by
  refine ⟨fun h => Nat.lt_of_not_le fun hle => ?_, le_factorial⟩
  have hlt : largestInteger < 2 ^ 1024 := by decide +kernel
  exact absurd (factorial_le_largestInteger hle) (Nat.not_le.mpr (hlt.trans_le h))

/-- The limit changes no result: the factorials past it are infinite as doubles. -/
theorem factorialOf_eq (hx : truncated? x = some (n : Int)) :
    factorialOf x = rounded (factorial n) := by
  simp only [factorialOf, hx]
  split
  · next h => exact (rounded_eq_infinity (le_factorial h)).symm
  · rfl

/-- The number of subsets of the truncated arguments, behind any guard. -/
def binomialBy (exceeds : Nat → Nat → Except Breakdown Bool) :
    Float → Float → Except Breakdown Float :=
  onTruncated fun n k => counted exceeds subsets n (min k (n - k))

/-- The number of arrangements of the truncated arguments, behind any guard. -/
def permutationsBy (exceeds : Nat → Nat → Except Breakdown Bool) :
    Float → Float → Except Breakdown Float :=
  onTruncated (counted exceeds arrangements)

/-- A guard matters at the arguments it is asked about, and is not asked about an empty choice. -/
theorem counted_congr {exceeds exceeds' : Nat → Nat → Except Breakdown Bool}
    {count : Nat → Nat → Nat} (h : 1 ≤ k → exceeds n k = exceeds' n k) :
    counted exceeds count n k = counted exceeds' count n k := by
  by_cases hk : k = 0
  · rw [counted, counted, if_pos hk, if_pos hk]
  · rw [counted, counted, h (Nat.one_le_iff_ne_zero.mpr hk)]

theorem one_le_largestInteger : 1 ≤ largestInteger := by
  decide +kernel

/-- On a count that fits, the first estimate changes nothing if it compares as it does with exact
logarithms. -/
theorem binomial_of_le {e : Estimates} (hx : truncated? x = some (n : Int))
    (hy : truncated? y = some (k : Int)) (h : k ≤ n) (hfits : n.choose k ≤ largestInteger)
    (hread : e.reading.bound < e.reading.subsetsBelow n (min k (n - k)) →
      (exactly largestInteger).bound < (exactly largestInteger).subsetsBelow n (min k (n - k))) :
    binomial e x y = binomialBy e.subsetsDifference x y := by
  rw [binomial, binomialBy, onTruncated_of_le hx hy h, onTruncated_of_le hx hy h]
  refine counted_congr fun hmin => subsetsExceed_of_not fun hfirst => ?_
  have hle : min k (n - k) ≤ n := (Nat.min_le_left k (n - k)).trans h
  have hpast : largestInteger < subsets n (min k (n - k)) :=
    lt_subsets hle ((subsetsBelow_iff one_le_largestInteger hmin hle).mp (hread hfirst))
  rw [subsets_min h] at hpast
  exact absurd hfits (Nat.not_le.mpr hpast)

theorem permutations_of_le {e : Estimates} (hx : truncated? x = some (n : Int))
    (hy : truncated? y = some (k : Int)) (h : k ≤ n)
    (hfits : n.factorial / (n - k).factorial ≤ largestInteger)
    (hread : e.reading.bound < e.reading.arrangementsBelow n k →
      (exactly largestInteger).bound < (exactly largestInteger).arrangementsBelow n k) :
    permutations e x y = permutationsBy e.arrangementsDifference x y := by
  rw [permutations, permutationsBy, onTruncated_of_le hx hy h, onTruncated_of_le hx hy h]
  refine counted_congr fun _ => arrangementsExceed_of_not fun hfirst => ?_
  have hpast : largestInteger < arrangements n k :=
    lt_arrangements h ((arrangementsBelow_iff one_le_largestInteger).mp (hread hfirst))
  rw [arrangements_eq_div h] at hpast
  exact absurd hfits (Nat.not_le.mpr hpast)

/-- The shortcuts are sound. Read exactly, the first estimates are past the logarithm of a limit
just where certain powers are past it, and the counts are no less than those; the factorials are
past the doubles from 171 on; and the smaller of two choices counts both. So the limit changes no
factorial, and the first estimates, if they compare as they do with exact logarithms, change no
count that fits. -/
theorem saturation_sound (n k limit : Nat) (hlimit : 1 ≤ limit) :
    (1 ≤ k → k ≤ n →
      ((exactly limit).bound < (exactly limit).subsetsBelow n k ↔ limit * k ^ k < n ^ k) ∧
      (limit * k ^ k < n ^ k → limit < n.choose k) ∧
      ((exactly limit).bound < (exactly limit).arrangementsBelow n k ↔ limit < (n - k + 1) ^ k) ∧
      (limit < (n - k + 1) ^ k → limit < n.factorial / (n - k).factorial)) ∧
    (2 ^ 1024 ≤ n.factorial ↔ 170 < n) ∧ (n ≤ 170 → n.factorial ≤ largestInteger) ∧
    (k ≤ n → subsets n (min k (n - k)) = n.choose k ∧ subsets n k = n.choose k) ∧
    ∀ (e : Estimates) (x y : Float), truncated? x = some (n : Int) → truncated? y = some (k : Int) →
      factorialOf x = rounded n.factorial ∧
      (k ≤ n → n.choose k ≤ largestInteger →
        (e.reading.bound < e.reading.subsetsBelow n (min k (n - k)) →
          (exactly largestInteger).bound <
            (exactly largestInteger).subsetsBelow n (min k (n - k))) →
        binomial e x y = binomialBy e.subsetsDifference x y) ∧
      (k ≤ n → n.factorial / (n - k).factorial ≤ largestInteger →
        (e.reading.bound < e.reading.arrangementsBelow n k →
          (exactly largestInteger).bound < (exactly largestInteger).arrangementsBelow n k) →
        permutations e x y = permutationsBy e.arrangementsDifference x y) := by
  rw [← factorial_eq n]
  refine ⟨fun hk h => ?_, le_factorial_iff, factorial_le_largestInteger,
    fun h => ⟨subsets_min h, subsets_eq_choose n k⟩, fun e x y hx hy => ?_⟩
  · rw [← subsets_eq_choose, factorial_eq, ← arrangements_eq_div h]
    exact ⟨subsetsBelow_iff hlimit hk h, lt_subsets h, arrangementsBelow_iff hlimit,
      lt_arrangements h⟩
  · rw [factorial_eq]
    exact ⟨(factorialOf_eq hx).trans (congrArg rounded (factorial_eq n)), binomial_of_le hx hy,
      permutations_of_le hx hy⟩

theorem saturation_sound_pairs :
    2 < Nat.choose 5 2 ∧ 2 < Nat.factorial 5 / Nat.factorial (5 - 2) ∧
      factorialOf 5.5 = rounded (Nat.factorial 5) ∧
      binomial nearestLogarithms 5.5 2.0 = binomialBy nearestLogarithms.subsetsDifference 5.5 2.0 ∧
      permutations nearestLogarithms 5.5 2.0 =
        permutationsBy nearestLogarithms.arrangementsDifference 5.5 2.0 := by
  obtain ⟨hpast, -, -, -, hcounts⟩ := saturation_sound 5 2 2 (by decide)
  obtain ⟨-, hsubsets, -, harrangements⟩ := hpast (by decide) (by decide)
  obtain ⟨hfactorial, hbinomial, hpermutations⟩ :=
    hcounts nearestLogarithms 5.5 2.0 (by decide +kernel) (by decide +kernel)
  -- Neither first estimate is past the largest double's logarithm, so both are read exactly.
  have hfirst : ¬nearestLogarithms.reading.bound <
      nearestLogarithms.reading.subsetsBelow 5 (min 2 (5 - 2)) := by decide +kernel
  have hfirst' : ¬nearestLogarithms.reading.bound <
      nearestLogarithms.reading.arrangementsBelow 5 2 := by decide +kernel
  exact ⟨hsubsets (by decide), harrangements (by decide), hfactorial,
    hbinomial (by decide) (by decide +kernel) (absurd · hfirst),
    hpermutations (by decide) (by decide +kernel) (absurd · hfirst')⟩

end Reckon.Builtin
