import Reckon.Number.Reading
import Reckon.Proofs.Number.Written

/-!
# Written doubles read back

What is written of a double is read as that double again, with any padding around it: also of the
infinite ones, of what is not a number, and of the negative zero.
-/
namespace Reckon.Number
open Text (isBlank asciiDigit?)
open Grammar (WellFormed)

variable {m : Nat} {x : Float} {c : Char} {chars front back : List Char}

section NotANumber
open Float.Model.UnpackedFloat

theorem toBitVec_of_infinite_lt (h : infinite < magnitude x) :
    x.toBits.toBitVec = packedNaN .binary64 := by
  obtain ⟨bits, hbits⟩ : ∃ bits, bits = x.toBits.toBitVec := ⟨_, rfl⟩
  have hnat : x.toBits.toNat = bits.toNat := by rw [hbits]; rfl
  have hlt := bits.isLt
  simp only [magnitude, hnat, infinite, signBit] at h
  have hexponent : @unpackExponent .binary64 bits = -1 := by
    refine BitVec.eq_of_toNat_eq ?_
    rw [unpackExponent_def]
    refine (toNat_extract bits 52 11).trans (.trans ?_ (by rfl : 2047 = _))
    omega
  have hmantissa : @unpackMantissa .binary64 bits ≠ 0 := by
    intro hzero
    have hextract := congrArg BitVec.toNat hzero
    rw [unpackMantissa_def] at hextract
    have hmod := (toNat_extract bits 0 52).symm.trans hextract
    change bits.toNat / 2 ^ 0 % 2 ^ 52 = 0 at hmod
    omega
  subst hbits
  exact x.toModel.valid.eq_packedNaN hexponent hmantissa

/-- All patterns past the infinite one are the same double. -/
theorem eq_nan_of_infinite_lt (h : infinite < magnitude x) : x = nan := by
  have hnan : infinite < magnitude nan := by decide +kernel
  have hbits : x.toBits = nan.toBits :=
    UInt64.toBitVec_inj.mp ((toBitVec_of_infinite_lt h).trans (toBitVec_of_infinite_lt hnan).symm)
  rw [← x.ofBits_toBits, hbits, nan.ofBits_toBits]

end NotANumber

/-- The characters that doubles are written with. -/
def isPlain (c : Char) : Bool :=
  c.isDigit || ['+', '-', '.', 'e', 'E', 'i', 'n', 'f', 'a'].contains c

theorem isPlain_of_isDigit (h : c.isDigit = true) : isPlain c = true := by
  rw [isPlain, h, Bool.true_or]

theorem toNat_lt_of_isPlain (h : isPlain c = true) : c.toNat < 128 := by
  rw [isPlain, Bool.or_eq_true] at h
  rcases h with hdigit | hother
  · have hnine : '9'.toNat = 57 := rfl
    have hcode := Char.isDigit_iff_toNat.mp hdigit
    omega
  · simp only [List.contains_iff_mem, List.mem_cons, List.not_mem_nil, or_false] at hother
    rcases hother with rfl | rfl | rfl | rfl | rfl | rfl | rfl | rfl | rfl <;> decide

/-- A character of ASCII is read as it is. -/
theorem asciiDigit?_of_lt (h : c.toNat < 128) : (asciiDigit? c).getD c = c := by
  rw [asciiDigit?]
  split <;> rfl

theorem isPadding_of_isPlain (h : isPlain c = true) : isPadding c = false := by
  by_contra hpadding
  rw [Bool.not_eq_false, isPadding, Bool.and_eq_true] at hpadding
  have hall : ∀ code ∈ Grammar.blankCodes, isPlain (Char.ofNat code) = false := by decide +kernel
  have hblank := hall _ (Grammar.mem_blankCodes hpadding.1)
  rw [Char.ofNat_toNat, h] at hblank
  exact absurd hblank (by decide)

/-- Padding is no digit of any script. -/
theorem asciiDigit?_of_isPadding (h : isPadding c = true) : (asciiDigit? c).getD c = c := by
  have hall : ∀ code ∈ Grammar.blankCodes,
      (asciiDigit? (Char.ofNat code)).getD (Char.ofNat code) = Char.ofNat code := by decide +kernel
  rw [isPadding, Bool.and_eq_true] at h
  have hblank := hall _ (Grammar.mem_blankCodes h.1)
  rwa [Char.ofNat_toNat] at hblank

theorem isPlain_of_numeral {n : Numeral} (h : WellFormed n) : ∀ c ∈ n.text, isPlain c = true := by
  intro c hc
  rcases Grammar.isDigit_or_mem_of_numeral h hc with hdigit | hother
  · exact isPlain_of_isDigit hdigit
  · simp only [List.mem_cons, List.not_mem_nil, or_false] at hother
    rcases hother with rfl | rfl | rfl | rfl | rfl <;> rfl

theorem trim_padded {drop : Char → Bool} (hfront : ∀ c ∈ front, drop c = true)
    (hback : ∀ c ∈ back, drop c = true) (hchars : ∀ c ∈ chars, drop c = false) :
    Text.trim drop (front ++ chars ++ back) = chars := by
  have hends : ∀ {l : List Char}, (∀ c ∈ l, drop c = false) → l.dropWhile drop = l := fun h =>
    Grammar.dropWhile_of_stop fun c hc => h c (List.mem_of_mem_head? hc)
  cases chars with
  | nil =>
    have hall : ∀ c ∈ front ++ [] ++ back, drop c = true := by
      simpa [or_imp, forall_and] using ⟨hfront, hback⟩
    rw [Text.trim, List.dropWhile_eq_nil_iff.mpr hall]
    rfl
  | cons c rest =>
    have hkept : (c :: rest ++ back).dropWhile drop = c :: rest ++ back :=
      Grammar.dropWhile_of_stop fun d hd => hchars d (by simp_all)
    rw [Text.trim, List.append_assoc, List.dropWhile_append_of_pos hfront, hkept,
      List.reverse_append, List.dropWhile_append_of_pos (by simpa using hback),
      hends fun d hd => hchars d (List.mem_reverse.mp hd), List.reverse_reverse]

theorem dropUnderscores_of_not_mem (h : '_' ∉ chars) (afterDigit : Bool) :
    dropUnderscores afterDigit chars = some chars := by
  induction chars generalizing afterDigit with
  | nil => rfl
  | cons c rest ih =>
    obtain ⟨hc, hrest⟩ := not_or.mp (List.mem_cons.not.mp h)
    unfold dropUnderscores
    rw [if_neg (Ne.symm hc), ih hrest]
    rfl

theorem normalized?_padded (hfront : ∀ c ∈ front, isPadding c = true)
    (hback : ∀ c ∈ back, isPadding c = true) (hchars : ∀ c ∈ chars, isPlain c = true) :
    normalized? (front ++ chars ++ back) = some chars := by
  have hdigits : (front ++ chars ++ back).map (fun c => (asciiDigit? c).getD c) =
      front ++ chars ++ back := by
    refine (List.map_congr_left fun c hc => ?_).trans (List.map_id _)
    simp only [List.mem_append] at hc
    rcases hc with (hc | hc) | hc
    · exact asciiDigit?_of_isPadding (hfront c hc)
    · exact asciiDigit?_of_lt (toNat_lt_of_isPlain (hchars c hc))
    · exact asciiDigit?_of_isPadding (hback c hc)
  have hunderscore : '_' ∉ chars := fun hmem => absurd (hchars _ hmem) (by decide)
  rw [normalized?, hdigits,
    trim_padded hfront hback fun c hc => isPadding_of_isPlain (hchars c hc)]
  exact dropUnderscores_of_not_mem hunderscore false

theorem splitSign_of_head? (h : ∀ c ∈ chars.head?, c ≠ '-' ∧ c ≠ '+') (negative : Bool) :
    splitSign (if negative then '-' :: chars else chars) = (negative, chars) := by
  cases negative with
  | true => rfl
  | false =>
    cases chars with
    | nil => rfl
    | cons c rest =>
      obtain ⟨hminus, hplus⟩ := h c rfl
      simp only [Bool.false_eq_true, if_false, splitSign, if_neg hminus, if_neg hplus]

theorem toLower_of_isDigit (h : c.isDigit = true) : c.toLower = c := by
  have hnine : '9'.toNat = 57 := rfl
  have hcode := Char.isDigit_iff_toNat.mp h
  rw [Char.toLower]
  refine dif_neg fun hupper => ?_
  have hletter : 65 ≤ c.toNat := hupper.1
  omega

/-- Only the digits before the point put a digit at the front. -/
theorem integral_ne_nil {n : Numeral} {rest : List Char} (h : WellFormed n)
    (htext : n.text = c :: rest) (hdigit : c.isDigit = true) : n.integral ≠ [] := by
  obtain ⟨integral, fraction, exponent⟩ := n
  rintro rfl
  cases fraction with
  | some digits =>
    obtain rfl : '.' = c := (List.cons.inj htext).1
    exact absurd hdigit (by decide)
  | none =>
    cases exponent with
    | none => exact absurd htext (List.cons_ne_nil c rest).symm
    | some e =>
      obtain rfl : e.mark = c := (List.cons.inj htext).1
      rcases (h.exponent e rfl).mark with hmark | hmark <;> rw [hmark] at hdigit <;>
        exact absurd hdigit (by decide)

/-- A numeral with a digit at its front is read as the double nearest to it. -/
theorem readMagnitude?_numeral {n : Numeral} {rest : List Char} (h : WellFormed n)
    (htext : n.text = c :: rest) (hdigit : c.isDigit = true) :
    readMagnitude? n.text = some n.decimal.nearest := by
  have hword : ∀ d more, d.isDigit = false → n.text.map Char.toLower ≠ d :: more := by
    intro d more hd heq
    rw [htext, List.map_cons, toLower_of_isDigit hdigit] at heq
    rw [← (List.cons.inj heq).1, hdigit] at hd
    exact absurd hd (by decide)
  have hinfinite : ¬(n.text.map Char.toLower = ['i', 'n', 'f'] ∨
      n.text.map Char.toLower = ['i', 'n', 'f', 'i', 'n', 'i', 't', 'y']) :=
    not_or.mpr ⟨hword 'i' _ rfl, hword 'i' _ rfl⟩
  have hscan := @Grammar.scan_append n h [] (by simp [Grammar.EndsNumeral])
  rw [List.append_nil] at hscan
  have hmarked : n.hasDigit = true := by
    rw [Numeral.hasDigit, List.isEmpty_eq_false_iff.mpr (integral_ne_nil h htext hdigit)]
    rfl
  rw [readMagnitude?]
  simp only [if_neg hinfinite, if_neg (hword 'n' _ rfl), hscan, hmarked]
  rfl

/-- A text without a sign that is read as a pattern. -/
structure Unsigned (chars : List Char) (m : Nat) : Prop where
  plain : ∀ c ∈ chars, isPlain c = true
  head : ∀ c ∈ chars.head?, c ≠ '-' ∧ c ≠ '+'
  read : readMagnitude? chars = some m

theorem unsigned_shortest (h : m < infinite) : Unsigned (shortest m).written.text m := by
  obtain ⟨n, hn, hnearest⟩ := exists_writes_shortest h
  obtain ⟨c, rest, htext, hdigit⟩ := Written.exists_digit_text (shortest m).proper_written
  have hread := readMagnitude?_numeral hn.wellFormed (hn.text_eq.trans htext) hdigit
  rw [hnearest, hn.text_eq] at hread
  refine ⟨hn.text_eq ▸ isPlain_of_numeral hn.wellFormed, fun d hd => ?_, hread⟩
  obtain rfl : c = d := by simpa [htext] using hd
  exact ⟨fun hsign => absurd (hsign ▸ hdigit) (by decide),
    fun hsign => absurd (hsign ▸ hdigit) (by decide)⟩

theorem unsigned_infinityText : Unsigned infinityText infinite :=
  ⟨by simp [infinityText, isPlain], by simp [infinityText], by decide +kernel⟩

theorem unsigned_nanText : Unsigned nanText (magnitude nan) :=
  ⟨by simp [nanText, isPlain], by simp [nanText], by decide +kernel⟩

/-- Every double is written as a sign and a text without one. -/
theorem exists_unsigned (x : Float) : ∃ negative unsigned m, Unsigned unsigned m ∧
    text x = (if negative then '-' :: unsigned else unsigned) ∧ signed negative m = x := by
  by_cases hnan : infinite < magnitude x
  · obtain rfl := eq_nan_of_infinite_lt hnan
    exact ⟨false, nanText, _, unsigned_nanText, by rw [text, withSign, if_pos hnan]; rfl,
      by decide +kernel⟩
  by_cases hinfinite : magnitude x = infinite
  · refine ⟨isNegative x, infinityText, _, unsigned_infinityText, ?_, ?_⟩
    · simp only [text, withSign, if_neg hnan, if_pos hinfinite]
    · rw [← hinfinite, signed_magnitude]
  · have hm : magnitude x < infinite := by omega
    refine ⟨isNegative x, _, _, unsigned_shortest hm, ?_, signed_magnitude x⟩
    simp only [text, withSign, if_neg hnan, if_neg hinfinite]

/-- Every double is read back from its text. -/
theorem readFloat?_text (hfront : ∀ c ∈ front, isPadding c = true)
    (hback : ∀ c ∈ back, isPadding c = true) (x : Float) :
    readFloat? (front ++ text x ++ back) = some x := by
  obtain ⟨negative, unsigned, m, h, htext, hx⟩ := exists_unsigned x
  have hplain : ∀ c ∈ text x, isPlain c = true := by
    rw [htext]
    cases negative with
    | false => exact h.plain
    | true => exact List.forall_mem_cons.mpr ⟨rfl, h.plain⟩
  rw [readFloat?, normalized?_padded hfront hback hplain, Option.bind_some, htext,
    splitSign_of_head? h.head, h.read, Option.map_some, hx]

end Reckon.Number
