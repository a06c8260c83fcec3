import Reckon.Proofs.Number.Multiple
import Reckon.Proofs.Number.Reading

/-!
# Literals

A literal is the longest numeral from the cursor on: digits, a point with more digits, and an
exponent, each of which may be missing. It is a number if a digit or a point stands in front of its
exponent, and its value is the double nearest to the number written. Free text is read in the same
way, once a leading point has a zero in front of it.
-/
namespace Reckon
open Number
open Grammar (Longest IsNumeral IsExponent WellFormed)
open Text (digitsValue)

namespace Number

theorem digitsValue_append (front back : List Char) :
    digitsValue (front ++ back) = 10 ^ back.length * digitsValue front + digitsValue back := by
  rw [digitsValue, Nat.ofDigitChars_append, Nat.ofDigitChars_eq_ofDigitChars_zero]
  rfl

theorem Decimal.numerator_div_denominator (d : Decimal) :
    (d.numerator : ℚ) / d.denominator = d.digits * 10 ^ d.exponent := by
  have h := Decimal.value_eq d.digits (-d.exponent)
  rwa [multiple, stepOf, neg_neg] at h

/-- A fraction may be reduced before it is rounded. -/
theorem Rounds.reduced {num den m : Nat} {x : ℚ} (h : Rounds num den m) (hden : 0 < den)
    (hx : (num : ℚ) / den = x) : Rounds x.num.natAbs x.den m := by
  subst hx
  refine h.congr ?_ hden (Rat.den_pos _)
  have hnum : (0 : ℚ) ≤ num / den := by positivity
  have hden' : (den : ℚ) ≠ 0 := Nat.cast_ne_zero.mpr hden.ne'
  have hcross := (Rat.num_div_den ((num : ℚ) / den)).symm
  rw [div_eq_div_iff hden' (Nat.cast_ne_zero.mpr (Rat.den_nz _))] at hcross
  have habs : ((((num : ℚ) / den).num.natAbs : Nat) : ℤ) = ((num : ℚ) / den).num :=
    Int.natAbs_of_nonneg (Rat.num_nonneg.mpr hnum)
  have hcast : (((num * ((num : ℚ) / den).den : Nat)) : ℤ) =
      ((((num : ℚ) / den).num.natAbs * den : Nat) : ℤ) := by
    push_cast [habs]
    exact_mod_cast hcross
  exact_mod_cast hcast

namespace Numeral

/-- The number that a numeral writes. A part that is missing or empty counts as zero. -/
def value (n : Numeral) : ℚ :=
  (digitsValue n.integral +
      digitsValue (n.fraction.getD []) / 10 ^ (n.fraction.getD []).length) *
    10 ^ (n.exponent.map Exponent.value).getD 0

/-- The digits on both sides of the point make one number, and the point moves to the exponent. -/
theorem decimal_value (n : Numeral) :
    (n.decimal.numerator : ℚ) / n.decimal.denominator = n.value := by
  have hten : (10 : ℚ) ^ (n.fraction.getD []).length ≠ 0 := by positivity
  rw [Decimal.numerator_div_denominator, decimal, digitsValue_append, value,
    zpow_sub₀ (by norm_num), zpow_natCast]
  push_cast
  field_simp

theorem rounds_value (n : Numeral) :
    Rounds n.value.num.natAbs n.value.den n.decimal.nearest :=
  n.decimal.rounds_nearest.reduced n.decimal.denominator_pos n.decimal_value

variable {n : Numeral}

theorem not_isDigit_of_mark {mark : Char} (hmark : mark = 'e' ∨ mark = 'E') :
    ¬(mark.isDigit = true ∨ mark = '.') := by
  rcases hmark with rfl | rfl <;> decide

/-- A point is the one in front of the fraction. -/
theorem point_mem_text_iff (h : WellFormed n) : '.' ∈ n.text ↔ n.fraction ≠ none := by
  constructor
  · rintro hmem hnone
    rw [text, hnone, List.mem_append, List.mem_append] at hmem
    rcases hmem with hmem | hmem | hmem
    · exact absurd (h.integral _ hmem) (by decide)
    · simp at hmem
    · cases he : n.exponent with
      | none => simp [he] at hmem
      | some e =>
        rw [he] at hmem
        have hchars := Grammar.isDigit_or_mem_of_exponent (h.exponent e (by simp [he])) hmem
        exact absurd hchars (by decide)
  · intro hsome
    obtain ⟨digits, hf⟩ := Option.ne_none_iff_exists'.mp hsome
    simp [text, hf]

theorem hasDigitOrPoint_eq_false_iff (h : WellFormed n) :
    n.hasDigitOrPoint = false ↔ n.integral = [] ∧ '.' ∉ n.text := by
  rw [point_mem_text_iff h, hasDigitOrPoint]
  simp

/-- Behind an exponent mark, or behind the sign that follows it, stands a digit. -/
theorem digit_behind_mark (h : WellFormed n) {front back : List Char} {mark : Char}
    (htext : n.text = front ++ mark :: back) (hmark : mark = 'e' ∨ mark = 'E') :
    ∃ sign digit more, back = sign ++ digit :: more ∧
      (sign = [] ∨ sign = ['+'] ∨ sign = ['-']) ∧ digit.isDigit = true := by
  rw [text, ← List.append_assoc] at htext
  -- the mark is not among the digits and the point, so it belongs to the exponent
  obtain ⟨rest, hfront, hexponent⟩ : ∃ rest,
      front = n.integral ++ (n.fraction.map ('.' :: ·)).getD [] ++ rest ∧
        (n.exponent.map Exponent.text).getD [] = rest ++ mark :: back := by
    rcases List.append_eq_append_iff.mp htext with ⟨rest, hfront, hrest⟩ | ⟨rest, hfront, hrest⟩
    · exact ⟨rest, hfront, hrest⟩
    · cases rest with
      | nil => exact ⟨[], by simpa using hfront.symm, by simpa using hrest.symm⟩
      | cons c rest =>
        obtain ⟨rfl, -⟩ := List.cons.inj hrest
        have hmem : mark ∈ n.integral ++ (n.fraction.map ('.' :: ·)).getD [] :=
          hfront ▸ List.mem_append_right _ List.mem_cons_self
        exact absurd (Grammar.isDigit_or_point_of_mem h hmem) (not_isDigit_of_mark hmark)
  cases he : n.exponent with
  | none => simp [he] at hexponent
  | some e =>
    obtain ⟨-, hsign, hne, hdigits⟩ := h.exponent e (by simp [he])
    rw [he, Option.map_some, Option.getD_some, Exponent.text] at hexponent
    cases rest with
    | cons c rest =>
      -- a second mark would be a sign or a digit
      obtain ⟨-, htail⟩ := List.cons.inj hexponent
      have hmem : mark ∈ e.sign.toList ++ e.digits := htail ▸ by simp
      rcases List.mem_append.mp hmem with hmem | hmem
      · rcases hsign mark (by simpa using hmem) with rfl | rfl <;> simp at hmark
      · exact absurd (.inl (hdigits mark hmem)) (not_isDigit_of_mark hmark)
    | nil =>
      obtain ⟨-, rfl⟩ := List.cons.inj hexponent
      obtain ⟨digit, more, hd⟩ := List.exists_cons_of_ne_nil hne
      refine ⟨e.sign.toList, digit, more, by rw [hd], ?_, hdigits digit (by simp [hd])⟩
      cases hs : e.sign with
      | none => exact .inl rfl
      | some c => rcases hsign c (by simp [hs]) with rfl | rfl <;> simp

/-- A text with a zero in front of a leading point. -/
def withLeadingZero (lexeme : List Char) : List Char :=
  if lexeme.head? = some '.' then '0' :: lexeme else lexeme

theorem head?_text_ne_sign (h : WellFormed n) : ∀ c ∈ n.text.head?, c ≠ '-' ∧ c ≠ '+' := by
  intro c hc
  rw [text, ← List.append_assoc, List.head?_append] at hc
  cases hfront : (n.integral ++ (n.fraction.map ('.' :: ·)).getD []).head? with
  | some d =>
    obtain rfl : d = c := by simpa [hfront] using hc
    rcases Grammar.isDigit_or_point_of_mem h (List.mem_of_mem_head? hfront) with hdigit | rfl
    · exact ⟨fun hsign => absurd (hsign ▸ hdigit) (by decide),
        fun hsign => absurd (hsign ▸ hdigit) (by decide)⟩
    · decide
  | none =>
    cases he : n.exponent with
    | none => simp [hfront, he] at hc
    | some e =>
      obtain rfl : e.mark = c := by simpa [hfront, he, Exponent.text] using hc
      rcases (h.exponent e (by simp [he])).mark with hmark | hmark <;> rw [hmark] <;> decide

/-- A numeral has neither padding, nor underscores, nor a sign in front. -/
theorem readFloat?_numeral (h : WellFormed n) :
    readFloat? n.text = (readMagnitude? n.text).map (signed false) := by
  have hplain : normalized? ([] ++ n.text ++ []) = some n.text :=
    normalized?_padded (by simp) (by simp) (isPlain_of_numeral h)
  rw [List.nil_append, List.append_nil] at hplain
  have hsign : splitSign n.text = (false, n.text) := splitSign_of_head? (head?_text_ne_sign h) false
  rw [readFloat?, hplain, Option.bind_some, hsign]

/-- A numeral with a digit in front is read as its double. -/
theorem readFloat?_of_digit (h : WellFormed n) {c : Char} {rest : List Char}
    (htext : n.text = c :: rest) (hdigit : c.isDigit = true) :
    readFloat? n.text = some n.toFloat := by
  rw [readFloat?_numeral h, readMagnitude?_numeral h htext hdigit]
  rfl

/-- An exponent alone is no number. -/
theorem readMagnitude?_exponent {e : Exponent} (h : IsExponent e) :
    readMagnitude? (text ⟨[], none, some e⟩) = none := by
  have hlower : ∃ rest, (text ⟨[], none, some e⟩).map Char.toLower = 'e' :: rest := by
    refine ⟨(e.sign.toList ++ e.digits).map Char.toLower, ?_⟩
    rcases h.mark with hmark | hmark <;> simp [text, Exponent.text, hmark]
  obtain ⟨rest, hlower⟩ := hlower
  have hwell : WellFormed ⟨[], none, some e⟩ :=
    ⟨by simp, by simp, fun other ho => Option.some.inj ho ▸ h⟩
  have hscan := @Grammar.scan_append _ hwell [] (by simp [Grammar.EndsNumeral])
  rw [List.append_nil] at hscan
  simp [readMagnitude?, hlower, hscan, hasDigit]

/-- A numeral is read as its double, with a zero in front of a leading point, and is no number where
neither a digit nor a point stands in front of its exponent. -/
theorem readFloat?_withLeadingZero (h : WellFormed n) :
    readFloat? (withLeadingZero n.text) =
      if n.hasDigitOrPoint then some n.toFloat else none := by
  obtain ⟨integral, fraction, exponent⟩ := n
  cases integral with
  | cons c integral =>
    have hdigit : c.isDigit = true := h.integral c (by simp)
    have hpoint : c ≠ '.' := by
      rintro rfl
      exact absurd hdigit (by decide)
    have hkept : withLeadingZero (text ⟨c :: integral, fraction, exponent⟩) =
        text ⟨c :: integral, fraction, exponent⟩ := if_neg (by simpa [text] using hpoint)
    rw [hkept, readFloat?_of_digit h rfl hdigit]
    rfl
  | nil =>
    cases fraction with
    | some digits =>
      have hzero : WellFormed ⟨['0'], some digits, exponent⟩ := ⟨by simp, h.fraction, h.exponent⟩
      exact readFloat?_of_digit hzero rfl rfl
    | none =>
      cases exponent with
      | none => decide +kernel
      | some e =>
        have hx := h.exponent e rfl
        have hkept : withLeadingZero (text ⟨[], none, some e⟩) = text ⟨[], none, some e⟩ := by
          refine if_neg ?_
          rcases hx.mark with hmark | hmark <;> simp [text, Exponent.text, hmark]
        rw [hkept, readFloat?_numeral h, readMagnitude?_exponent hx]
        rfl

end Numeral
end Number

namespace Cursor

/-- Whatever follows a place in a text, and also past its end, the scanner takes the longest numeral
there, in which every exponent mark has its digit, and stands behind it afterwards. It fails exactly
where the numeral has neither digits in front of a point nor the point, and else its value is the
double nearest to the number written, be it infinite. Free text of the same characters, with a zero
in front of a leading point, is read as the same double or as no number. -/
theorem scanNumber_longest (text : List Char) (pos : Nat) :
    let c := (ofText text).moveTo pos
    ∃ n rest, WellFormed n ∧ text.drop pos = n.text ++ rest ∧ Longest IsNumeral n.text rest ∧
      (∀ front mark back, n.text = front ++ mark :: back → mark = 'e' ∨ mark = 'E' →
        ∃ sign digit more, back = sign ++ digit :: more ∧
          (sign = [] ∨ sign = ['+'] ∨ sign = ['-']) ∧ digit.isDigit = true) ∧
      c.scanNumber.2 = c.moveTo (pos + n.text.length) ∧
      (c.scanNumber.1 = .error n.text ↔ n.integral = [] ∧ '.' ∉ n.text) ∧
      (¬(n.integral = [] ∧ '.' ∉ n.text) → ∃ m, c.scanNumber.1 = .ok (signed false m) ∧
        Rounds n.value.num.natAbs n.value.den m) ∧
      readFloat? (Numeral.withLeadingZero n.text) = c.scanNumber.1.toOption := by
  intro c
  have hwell := Grammar.wellFormed_scan (text.drop pos)
  have hfails := Numeral.hasDigitOrPoint_eq_false_iff hwell
  have hresult : c.scanNumber.1 = if (Numeral.scan (text.drop pos)).1.hasDigitOrPoint then
      .ok (Numeral.scan (text.drop pos)).1.toFloat
    else .error (Numeral.scan (text.drop pos)).1.text := rfl
  refine ⟨_, _, hwell, (Numeral.text_append_scan _).symm, Grammar.longest_scan _,
    fun front mark back => Numeral.digit_behind_mark hwell, (sound_moveTo _ pos).forward_eq _,
    ?_, ?_, ?_⟩
  · rw [hresult, ← hfails]
    split <;> simp_all
  · intro hnumber
    rw [← hfails, Bool.not_eq_false] at hnumber
    exact ⟨_, by rw [hresult, if_pos hnumber]; rfl, Numeral.rounds_value _⟩
  · rw [hresult, Numeral.readFloat?_withLeadingZero hwell]
    split <;> rfl

/-- A literal with an exponent, in front of a mark and a sign that belong to no number. -/
theorem scanNumber_longest_exponent :
    let c := (ofText ['x', '2', '.', '5', 'e', '-', '3', 'e', '+']).moveTo 1
    ∃ n : Numeral, n.text = ['2', '.', '5', 'e', '-', '3'] ∧ Longest IsNumeral n.text ['e', '+'] ∧
      (∃ sign digit more, ['-', '3'] = sign ++ digit :: more ∧ digit.isDigit = true) ∧
      c.scanNumber.2 = c.moveTo 7 ∧
      ∃ m, c.scanNumber.1 = .ok (signed false m) ∧ Rounds n.value.num.natAbs n.value.den m := by
  intro c
  obtain ⟨n, rest, -, htext, hlongest, hmarks, hbehind, -, hvalue, -⟩ :=
    scanNumber_longest ['x', '2', '.', '5', 'e', '-', '3', 'e', '+'] 1
  have hlength : n.text.length = 6 := by
    have hpos : 7 = 1 + n.text.length := congrArg Cursor.pos hbehind
    omega
  obtain ⟨hn, hrest⟩ : n.text = ['2', '.', '5', 'e', '-', '3'] ∧ rest = ['e', '+'] :=
    List.append_inj (htext.symm.trans (by rfl)) hlength
  obtain ⟨sign, digit, more, hback, -, hdigit⟩ := hmarks ['2', '.', '5'] 'e' ['-', '3'] hn (.inl rfl)
  refine ⟨n, hn, hrest ▸ hlongest, ⟨sign, digit, more, hback, hdigit⟩, ?_, hvalue ?_⟩
  · rw [hbehind, hlength]
  · simp [hn]

end Cursor

end Reckon
