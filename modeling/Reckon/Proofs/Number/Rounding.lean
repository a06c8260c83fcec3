import Mathlib
import Reckon.Number.Magnitude

/-!
# Rounding to the nearest double

The values of the patterns grow with them, so the patterns up to that of infinity are a grid of
numbers, the last of which stands for 2^1024. A fraction is rounded to the nearest number of the
grid, and from halfway between two to the one with the even pattern. The rounding is computed from
the leading digits of the fraction, and specified by its distance to all patterns.
-/
namespace Reckon.Number

variable {m num den : Nat}

theorem units_of_lt (h : m < leadingBit) : units m = m := if_pos h

theorem units_add {q r : Nat} (h : r < leadingBit) :
    units ((q + 1) * leadingBit + r) = (leadingBit + r) * 2 ^ q := by
  have hpos : 0 < leadingBit := by decide
  have hdiv : ((q + 1) * leadingBit + r) / leadingBit = q + 1 := by
    rw [Nat.add_comm, Nat.add_mul_div_right _ _ hpos, Nat.div_eq_of_lt h, Nat.zero_add]
  have hmod : ((q + 1) * leadingBit + r) % leadingBit = r := by
    rw [Nat.add_comm, Nat.add_mul_mod_self_right, Nat.mod_eq_of_lt h]
  have hge : ¬(q + 1) * leadingBit + r < leadingBit := by
    rw [Nat.succ_mul]
    omega
  rw [units, if_neg hge, hdiv, hmod]
  rfl

/-- How far the next pattern is, in units. -/
def gap (m : Nat) : Nat := 2 ^ (m / leadingBit - 1)

theorem gap_pos (m : Nat) : 0 < gap m := Nat.two_pow_pos _

theorem gap_of_lt (h : m < leadingBit) : gap m = 1 := by
  rw [gap, Nat.div_eq_of_lt h]
  rfl

theorem gap_add {q r : Nat} (h : r < leadingBit) : gap ((q + 1) * leadingBit + r) = 2 ^ q := by
  have hpos : 0 < leadingBit := by decide
  rw [gap, Nat.add_comm, Nat.add_mul_div_right _ _ hpos, Nat.div_eq_of_lt h, Nat.zero_add,
    Nat.add_sub_cancel]

/-- Every pattern is subnormal, or has a binade and a place in it. -/
theorem pattern_cases (m : Nat) :
    m < leadingBit ∨ ∃ q r, r < leadingBit ∧ m = (q + 1) * leadingBit + r := by
  have hpos : 0 < leadingBit := by decide
  by_cases h : m < leadingBit
  · exact .inl h
  · refine .inr ⟨m / leadingBit - 1, m % leadingBit, Nat.mod_lt _ hpos, ?_⟩
    have hone : 1 ≤ m / leadingBit := (Nat.one_le_div_iff hpos).mpr (by omega)
    rw [Nat.sub_add_cancel hone, Nat.mul_comm]
    exact (Nat.div_add_mod m leadingBit).symm

theorem units_succ (m : Nat) : units (m + 1) = units m + gap m := by
  rcases pattern_cases m with h | ⟨q, r, hr, rfl⟩
  · rw [units_of_lt h, gap_of_lt h]
    by_cases hlast : m + 1 < leadingBit
    · exact units_of_lt hlast
    · obtain hm : m + 1 = (0 + 1) * leadingBit + 0 := by omega
      rw [hm, units_add (by decide)]
      omega
  · rw [units_add hr, gap_add hr]
    by_cases hlast : r + 1 < leadingBit
    · rw [Nat.add_assoc, units_add hlast, ← Nat.add_assoc, Nat.succ_mul]
    · obtain hm : (q + 1) * leadingBit + r + 1 = (q + 1 + 1) * leadingBit + 0 := by
        rw [Nat.succ_mul (q + 1)]
        omega
      have hlead : leadingBit + leadingBit = leadingBit + r + 1 := by omega
      rw [hm, units_add (by decide), Nat.add_zero, ← Nat.succ_mul, Nat.succ_eq_add_one, ← hlead,
        Nat.pow_succ, Nat.mul_comm (2 ^ q), ← Nat.mul_assoc, Nat.mul_two]

theorem units_strictMono : StrictMono units :=
  strictMono_nat_of_lt_succ fun m => by
    have hpos := gap_pos m
    rw [units_succ]
    omega

/-- How far a pattern is from a fraction, in units over the denominator. -/
def offBy (num den m : Nat) : Nat := Nat.dist (num * unitsPerOne) (units m * den)

/-- The pattern of a fraction rounded to the nearest double: no pattern up to infinity is nearer,
and it is even if another one is equally near. -/
structure Rounds (num den m : Nat) : Prop where
  le_infinite : m ≤ infinite
  nearest : ∀ other ≤ infinite, offBy num den m ≤ offBy num den other
  even : ∀ other ≤ infinite, other ≠ m → offBy num den other = offBy num den m → m % 2 = 0

/-- Between two patterns the nearer one is the rounding, and at half way the even one. -/
theorem rounds_of_between {low rest : Nat} (hlow : low < infinite)
    (h : num * unitsPerOne = units low * den + rest) (hrest : rest < gap low * den) :
    Rounds num den
      (if 2 * rest < gap low * den ∨ (2 * rest = gap low * den ∧ low % 2 = 0) then low
        else low + 1) := by
  have hnext : units (low + 1) * den = units low * den + gap low * den := by
    rw [units_succ, Nat.add_mul]
  have hbelow : ∀ other ≤ low, units other * den ≤ units low * den := fun other hle =>
    Nat.mul_le_mul_right _ (units_strictMono.monotone hle)
  have habove : ∀ other, low < other → units (low + 1) * den ≤ units other * den := fun other hlt =>
    Nat.mul_le_mul_right _ (units_strictMono.monotone hlt)
  have hstrict : ∀ m other, m < other → units m * den < units other * den := by
    intro m other hlt
    refine Nat.mul_lt_mul_of_pos_right (units_strictMono hlt) (Nat.pos_of_ne_zero ?_)
    rintro rfl
    simp at hrest
  split
  · next hnear =>
    refine ⟨hlow.le, fun other _ => ?_, fun other _ hne heq => ?_⟩
    · simp only [offBy, Nat.dist]
      rcases Nat.lt_or_ge low other with hlt | hle
      · have := habove other hlt
        omega
      · have := hbelow other hle
        omega
    · simp only [offBy, Nat.dist] at heq
      rcases Nat.lt_or_gt_of_ne hne with hlt | hlt
      · have := hstrict other low hlt
        omega
      · have := habove other hlt
        omega
  · next hfar =>
    refine ⟨hlow, fun other _ => ?_, fun other _ hne heq => ?_⟩
    · simp only [offBy, Nat.dist]
      rcases Nat.lt_or_ge low other with hlt | hle
      · have := habove other hlt
        omega
      · have := hbelow other hle
        omega
    · simp only [offBy, Nat.dist] at heq
      rcases Nat.lt_or_gt_of_ne hne with hlt | hlt
      · have := hbelow other (Nat.le_of_lt_succ hlt)
        omega
      · have := hstrict (low + 1) other hlt
        omega

/-- From 2^1024 on every fraction is rounded to infinity. -/
theorem rounds_infinite (hden : 0 < den) (h : units infinite * den ≤ num * unitsPerOne) :
    Rounds num den infinite := by
  have hstrict : ∀ m, m < infinite → units m * den < units infinite * den := fun m hlt =>
    Nat.mul_lt_mul_of_pos_right (units_strictMono hlt) hden
  refine ⟨le_rfl, fun other hle => ?_, fun other hle hne heq => ?_⟩
  · rcases hle.lt_or_eq with hlt | rfl
    · have := hstrict other hlt
      simp only [offBy, Nat.dist]
      omega
    · rfl
  · have := hstrict other (hle.lt_of_ne hne)
    simp only [offBy, Nat.dist] at heq
    omega

/-- There is only one rounding. -/
theorem Rounds.unique {other : Nat} (hden : 0 < den) (h : Rounds num den m)
    (h' : Rounds num den other) : m = other := by
  wlog hlt : m < other generalizing m other
  · rcases Nat.lt_trichotomy m other with hlt' | rfl | hgt
    · exact absurd hlt' hlt
    · rfl
    · exact (this h' h hgt).symm
  exfalso
  have hsame : offBy num den m = offBy num den other :=
    Nat.le_antisymm (h.nearest other h'.le_infinite) (h'.nearest m h.le_infinite)
  have heven := h.even other h'.le_infinite hlt.ne' hsame.symm
  have heven' := h'.even m h.le_infinite hlt.ne hsame
  -- both are even, so there is a pattern between them, which is nearer
  have hbetween : m + 1 < other := by omega
  have hnearest := h.nearest (m + 1) (by have := h'.le_infinite; omega)
  have hfirst : units m * den < units (m + 1) * den :=
    Nat.mul_lt_mul_of_pos_right (units_strictMono (Nat.lt_succ_self m)) hden
  have hsecond : units (m + 1) * den < units other * den :=
    Nat.mul_lt_mul_of_pos_right (units_strictMono hbetween) hden
  simp only [offBy, Nat.dist] at hsame hnearest
  omega

/-- The pattern of the leading digits of a whole number of units. -/
def leadingPattern (whole : Nat) : Nat :=
  (whole.log2 - 52) * leadingBit + whole / 2 ^ (whole.log2 - 52)

/-- The digits that are left out are worth less than the step to the next pattern. -/
theorem units_leadingPattern (whole : Nat) :
    units (leadingPattern whole) = whole / 2 ^ (whole.log2 - 52) * 2 ^ (whole.log2 - 52) ∧
      gap (leadingPattern whole) = 2 ^ (whole.log2 - 52) := by
  rw [leadingPattern]
  have hlead : leadingBit = 2 ^ 52 := by decide
  by_cases hsmall : whole < leadingBit
  · have hshift : whole.log2 - 52 = 0 := by
      by_cases hzero : whole = 0
      · subst hzero
        decide
      · have hlog := (Nat.log2_lt hzero).mpr (hlead ▸ hsmall)
        omega
    simp only [hshift, Nat.zero_mul, Nat.zero_add, Nat.pow_zero, Nat.div_one, Nat.mul_one]
    exact ⟨units_of_lt hsmall, gap_of_lt hsmall⟩
  · have hne : whole ≠ 0 := by
      rintro rfl
      exact hsmall (by decide)
    have hlog : 52 ≤ whole.log2 := (Nat.le_log2 hne).mpr (by omega)
    generalize hshift : whole.log2 - 52 = shift
    obtain ⟨r, hr, hkept⟩ : ∃ r, r < leadingBit ∧ whole / 2 ^ shift = leadingBit + r := by
      have hpow : 0 < 2 ^ shift := Nat.two_pow_pos _
      have hlow : 2 ^ 52 * 2 ^ shift ≤ whole := by
        rw [← Nat.pow_add, ← hshift, Nat.add_sub_cancel' hlog]
        exact Nat.log2_self_le hne
      have hhigh : whole < 2 ^ 53 * 2 ^ shift := by
        rw [← Nat.pow_add, ← hshift, show 53 + (whole.log2 - 52) = whole.log2 + 1 by omega]
        exact Nat.lt_log2_self
      have hge : leadingBit ≤ whole / 2 ^ shift := hlead ▸ (Nat.le_div_iff_mul_le hpow).mpr hlow
      have hlt : whole / 2 ^ shift < 2 ^ 53 := (Nat.div_lt_iff_lt_mul hpow).mpr hhigh
      exact ⟨whole / 2 ^ shift - leadingBit, by omega, by omega⟩
    have hpattern : shift * leadingBit + (leadingBit + r) = (shift + 1) * leadingBit + r := by
      rw [Nat.succ_mul]
      omega
    rw [hkept, hpattern]
    exact ⟨units_add hr, gap_add hr⟩

/-- The rounding is computed from the pattern below the fraction and from what is left above it. -/
theorem nearest_eq (num : Nat) (hden : 0 < den) :
    ∃ low rest, num * unitsPerOne = units low * den + rest ∧ rest < gap low * den ∧
      nearest num den =
        min (if 2 * rest < gap low * den ∨ (2 * rest = gap low * den ∧ low % 2 = 0) then low
          else low + 1) infinite := by
  simp only [nearest, Nat.pow_eq]
  generalize num * unitsPerOne = scaled
  obtain ⟨hunits, hgap⟩ := units_leadingPattern (scaled / den)
  refine ⟨leadingPattern (scaled / den), scaled % (2 ^ ((scaled / den).log2 - 52) * den),
    ?_, ?_, ?_⟩
  · rw [hunits, Nat.div_div_eq_div_mul, Nat.mul_comm den, Nat.mul_assoc, Nat.mul_comm]
    exact (Nat.div_add_mod _ _).symm
  · rw [hgap]
    exact Nat.mod_lt _ (Nat.mul_pos (Nat.two_pow_pos _) hden)
  · rw [hgap]
    rfl

/-- Every fraction is rounded to the nearest double. -/
theorem rounds_nearest (num : Nat) (hden : 0 < den) : Rounds num den (nearest num den) := by
  obtain ⟨low, rest, hsplit, hrest, heq⟩ := nearest_eq num hden
  rw [heq]
  by_cases hlow : low < infinite
  · have hle : (if 2 * rest < gap low * den ∨ (2 * rest = gap low * den ∧ low % 2 = 0) then low
        else low + 1) ≤ infinite := by
      split <;> omega
    rw [Nat.min_eq_left hle]
    exact rounds_of_between hlow hsplit hrest
  · have hge : infinite ≤ if 2 * rest < gap low * den ∨ (2 * rest = gap low * den ∧ low % 2 = 0)
        then low else low + 1 := by
      split <;> omega
    rw [Nat.min_eq_right hge]
    have hmono := Nat.mul_le_mul_right den (units_strictMono.monotone (Nat.le_of_not_lt hlow))
    exact rounds_infinite hden (by omega)

theorem nearest_eq_iff (hden : 0 < den) : nearest num den = m ↔ Rounds num den m := by
  constructor
  · rintro rfl
    exact rounds_nearest num hden
  · exact (rounds_nearest num hden).unique hden

theorem unitsPerOne_pos : 0 < unitsPerOne := by
  decide +kernel

/-- The largest double, which is an integer. -/
def largestInteger : Nat := (2 ^ 53 - 1) * 2 ^ 971

theorem units_largest : units (infinite - 1) = largestInteger * unitsPerOne := by
  decide +kernel

theorem units_infinite : units infinite = 2 ^ 1024 * unitsPerOne := by
  decide +kernel

/-- Up to the largest double a fraction stays finite. -/
theorem nearest_lt_infinite (hden : 0 < den) (h : num ≤ largestInteger * den) :
    nearest num den < infinite := by
  have hrounds := rounds_nearest num hden
  refine hrounds.le_infinite.lt_of_ne fun heq => ?_
  have hnear := hrounds.nearest (infinite - 1) (by decide)
  have hstrict : units (infinite - 1) * den < units infinite * den :=
    Nat.mul_lt_mul_of_pos_right (units_strictMono (by decide)) hden
  have hle : num * unitsPerOne ≤ units (infinite - 1) * den := by
    rw [units_largest, Nat.mul_right_comm]
    exact Nat.mul_le_mul_right _ h
  rw [heq] at hnear
  simp only [offBy, Nat.dist] at hnear
  omega

theorem nearest_eq_infinite (hden : 0 < den) (h : 2 ^ 1024 * den ≤ num) :
    nearest num den = infinite := by
  refine (nearest_eq_iff hden).mpr (rounds_infinite hden ?_)
  rw [units_infinite, Nat.mul_right_comm]
  exact Nat.mul_le_mul_right _ h

theorem toBits_signed (negative : Bool) (h : m < infinite) :
    (signed negative m).toBits = UInt64.ofNat (if negative then signBit + m else m) := by
  have hvalid : Float.Model.Format.binary64.Valid
      (UInt64.ofNat (if negative then signBit + m else m)).toBitVec := by
    refine ⟨fun hexponent => ?_⟩
    have hbits := congrArg BitVec.toNat hexponent
    simp only [infinite] at h
    cases negative with
    | false =>
      simp [Float.Model.UnpackedFloat.unpackExponent, Nat.shiftRight_eq_div_pow] at hbits
      omega
    | true =>
      simp [Float.Model.UnpackedFloat.unpackExponent, Nat.shiftRight_eq_div_pow, signBit,
        Float.Model.Format.numBits] at hbits
      omega
  have hround := Float.ofBits_toBits (.ofModel ⟨_, hvalid⟩)
  exact congrArg Float.toBits hround

theorem magnitude_signed (negative : Bool) (h : m < infinite) :
    magnitude (signed negative m) = m := by
  rw [magnitude, toBits_signed negative h, UInt64.toNat_ofNat']
  simp only [infinite, signBit] at h ⊢
  cases negative <;> simp <;> omega

theorem isNegative_signed (negative : Bool) (h : m < infinite) :
    isNegative (signed negative m) = negative := by
  rw [isNegative, toBits_signed negative h, UInt64.toNat_ofNat']
  simp only [infinite, signBit] at h ⊢
  cases negative <;> simp <;> omega

theorem isFinite_signed (negative : Bool) (h : m < infinite) :
    isFinite (signed negative m) = true := by
  rw [isFinite, magnitude_signed negative h, decide_eq_true h]

/-- A double is its sign and its pattern. -/
theorem signed_magnitude (x : Float) : signed (isNegative x) (magnitude x) = x := by
  have hbits : UInt64.ofNat (if isNegative x then signBit + magnitude x else magnitude x) =
      x.toBits := by
    have hlt := x.toBits.toNat_lt
    refine UInt64.toNat_inj.mp ?_
    rw [UInt64.toNat_ofNat']
    by_cases h : signBit ≤ x.toBits.toNat
    · rw [isNegative, decide_eq_true h, if_pos rfl, magnitude]
      simp only [signBit] at h ⊢
      omega
    · rw [isNegative, decide_eq_false h, if_neg Bool.false_ne_true, magnitude]
      simp only [signBit] at h ⊢
      omega
  rw [signed, hbits, Float.ofBits_toBits]

section Negation
open Float.Model.UnpackedFloat

theorem toNat_toBitVec_ofNat {n : Nat} (h : n < 2 ^ 64) : (UInt64.ofNat n).toBitVec.toNat = n := by
  rw [UInt64.toNat_toBitVec, UInt64.toNat_ofNat', Nat.mod_eq_of_lt h]

theorem toNat_extract (b : BitVec 64) (start length : Nat) :
    (b.extractLsb' start length).toNat = b.toNat / 2 ^ start % 2 ^ length := by
  rw [BitVec.extractLsb'_toNat, Nat.shiftRight_eq_div_pow]

/-- The bit above a pattern is the sign and no part of the exponent or the significand. -/
theorem unpack_signBit (h : m < signBit) :
    unpack .binary64 (UInt64.ofNat (signBit + m)).toBitVec =
      (unpack .binary64 (UInt64.ofNat m).toBitVec).neg := by
  simp only [signBit] at h
  have hplain : (UInt64.ofNat m).toBitVec.toNat = m := toNat_toBitVec_ofNat (by omega)
  have hnegative : (UInt64.ofNat (signBit + m)).toBitVec.toNat = 2 ^ 63 + m :=
    toNat_toBitVec_ofNat (by simp only [signBit]; omega)
  generalize (UInt64.ofNat (signBit + m)).toBitVec = b at hnegative
  generalize (UInt64.ofNat m).toBitVec = b' at hplain
  have hexponent : @unpackExponent .binary64 b = @unpackExponent .binary64 b' := by
    refine BitVec.eq_of_toNat_eq ?_
    rw [unpackExponent_def, unpackExponent_def]
    refine (toNat_extract b 52 11).trans (.trans ?_ (toNat_extract b' 52 11).symm)
    omega
  have hmantissa : @unpackMantissa .binary64 b = @unpackMantissa .binary64 b' := by
    refine BitVec.eq_of_toNat_eq ?_
    rw [unpackMantissa_def, unpackMantissa_def]
    refine (toNat_extract b 0 52).trans (.trans ?_ (toNat_extract b' 0 52).symm)
    omega
  have hsign : @unpackSign .binary64 b = 1 := by
    refine BitVec.eq_of_toNat_eq ?_
    rw [unpackSign_def]
    refine (toNat_extract b 63 1).trans (.trans ?_ (BitVec.toNat_ofNat 1 1).symm)
    omega
  have hsign' : @unpackSign .binary64 b' = 0 := by
    refine BitVec.eq_of_toNat_eq ?_
    rw [unpackSign_def]
    refine (toNat_extract b' 63 1).trans (.trans ?_ (BitVec.toNat_ofNat 0 1).symm)
    omega
  simp only [unpack, hexponent, hmantissa, hsign, hsign']
  split
  · split <;> rfl
  · split
    · split <;> rfl
    · rfl

theorem neg_signed (h : m < infinite) : -signed false m = signed true m := by
  have hlt : m < signBit := h.trans (by decide)
  calc -signed false m =
        .ofModel (.pack (unpack .binary64 (signed false m).toBits.toBitVec).neg) := rfl
    _ = .ofModel (.pack (unpack .binary64 (UInt64.ofNat (signBit + m)).toBitVec)) := by
      rw [toBits_signed false h, if_neg Bool.false_ne_true, unpack_signBit hlt]
    _ = signed true m := rfl

end Negation

end Reckon.Number
