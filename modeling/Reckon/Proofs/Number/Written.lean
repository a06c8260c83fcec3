import Reckon.Number.Notation
import Reckon.Proofs.Grammar.Token
import Reckon.Proofs.Number.Decimal

/-!
# Written doubles are numerals

The shortest text of a double is, behind its sign, a single numeral of the same value, whether it is
written with a point alone or with an exponent. So it is rounded to that double again.
-/
namespace Reckon.Number
open Grammar (WellFormed IsExponent Literal)
open Text (digitsValue)

theorem digitsValue_zeros_append (count : Nat) (digits : List Char) :
    digitsValue (List.replicate count '0' ++ digits) = digitsValue digits := by
  rw [digitsValue, Nat.ofDigitChars_append, Nat.ofDigitChars_replicate_zero, Nat.mul_zero, digitsValue]

theorem digitsValue_append_zeros (digits : List Char) (count : Nat) :
    digitsValue (digits ++ List.replicate count '0') = digitsValue digits * 10 ^ count := by
  rw [digitsValue, Nat.ofDigitChars_append, Nat.ofDigitChars_replicate_zero, Nat.mul_comm, digitsValue]

theorem isDigit_of_mem_replicate {count : Nat} {c : Char} (h : c ∈ List.replicate count '0') :
    c.isDigit = true := by
  rw [List.eq_of_mem_replicate h]
  rfl

theorem isDigit_of_mem_toDigits {n : Nat} {c : Char} (h : c ∈ Nat.toDigits 10 n) :
    c.isDigit = true :=
  Nat.isDigit_of_mem_toDigits (by decide) (by decide) h

/-- The numeral is the whole text, and the number that it writes is the decimal. -/
structure Writes (n : Numeral) (text : List Char) (d : Decimal) : Prop where
  wellFormed : WellFormed n
  marked : n.hasDigitOrPoint = true
  text_eq : n.text = text
  value : n.decimal.SameValue d

namespace Written

/-- The number that is written. -/
def decimal (w : Written) : Decimal where
  digits := digitsValue w.digits
  exponent := w.exponent - (w.digits.length - 1 : Nat)

/-- There are digits, and nothing else. -/
structure Proper (w : Written) : Prop where
  nonempty : w.digits ≠ []
  digits : ∀ c ∈ w.digits, c.isDigit = true

variable {w : Written}

/-- Below one, zeros between the point and the digits take the place of the exponent. -/
theorem positional_writes_of_neg (h : w.Proper) (hneg : w.exponent < 0) :
    ∃ n, Writes n w.positional w.decimal := by
  have hlength := List.length_pos_iff.mpr h.nonempty
  refine ⟨⟨['0'], some (List.replicate (w.exponent.natAbs - 1) '0' ++ w.digits), none⟩,
    ⟨by simp, ?_, by simp⟩, rfl, ?_, ?_⟩
  · rintro digits hdigits c hc
    obtain rfl := Option.some.inj hdigits
    rcases List.mem_append.mp hc with hzero | hdigit
    · exact isDigit_of_mem_replicate hzero
    · exact h.digits c hdigit
  · simp [Numeral.text, positional, hneg]
  · refine Decimal.sameValue_of_eq ?_ ?_
    · exact digitsValue_zeros_append (w.exponent.natAbs - 1 + 1) w.digits
    · simp only [Option.map_none, Option.getD_none, Option.getD_some, List.length_append,
        List.length_replicate]
      omega

/-- From one on, zeros up to the point take the place of the exponent, or the point stands between
the digits. -/
theorem positional_writes_of_nonneg (h : w.Proper) (hneg : ¬w.exponent < 0) :
    ∃ n, Writes n w.positional w.decimal := by
  have hlength := List.length_pos_iff.mpr h.nonempty
  obtain ⟨places, hplaces⟩ : ∃ places, places = w.exponent.toNat + 1 := ⟨_, rfl⟩
  have htake : ∀ c ∈ w.digits.take places, c.isDigit = true := fun c hc =>
    h.digits c (List.mem_of_mem_take hc)
  by_cases hshort : w.digits.length ≤ places
  · have hall : w.digits.take places = w.digits := List.take_of_length_le hshort
    have hnone : w.digits.drop places = [] := List.drop_of_length_le hshort
    refine ⟨⟨w.digits ++ List.replicate (places - w.digits.length) '0', some ['0'], none⟩,
      ⟨?_, by simp, by simp⟩, by simp [Numeral.hasDigitOrPoint], ?_, ?_⟩
    · intro c hc
      rcases List.mem_append.mp hc with hdigit | hzero
      · exact h.digits c hdigit
      · exact isDigit_of_mem_replicate hzero
    · simp [Numeral.text, positional, hneg, ← hplaces, hall, hnone]
    · -- the zero behind the point counts as one more zero
      have hdigits := digitsValue_append_zeros w.digits (places - w.digits.length + 1)
      rw [List.replicate_succ', ← List.append_assoc] at hdigits
      have hexponent : w.exponent - (w.digits.length - 1 : Nat) =
          -1 + (places - w.digits.length + 1 : Nat) := by omega
      have hshift := Decimal.sameValue_shift (digitsValue w.digits) (places - w.digits.length + 1) (-1)
      rwa [← hdigits, ← hexponent] at hshift
  · have hsome : w.digits.drop places ≠ [] := by
      rw [Ne, List.drop_eq_nil_iff]
      exact hshort
    have hzeros : places - w.digits.length = 0 := by omega
    refine ⟨⟨w.digits.take places, some (w.digits.drop places), none⟩, ⟨htake, ?_, by simp⟩, ?_, ?_,
      ?_⟩
    · rintro digits hdigits c hc
      obtain rfl := Option.some.inj hdigits
      exact h.digits c (List.mem_of_mem_drop hc)
    · simp [Numeral.hasDigitOrPoint]
    · simp [Numeral.text, positional, hneg, ← hplaces, hsome, hzeros]
    · refine Decimal.sameValue_of_eq ?_ ?_
      · rw [Option.getD_some, List.take_append_drop]
      · simp only [Option.map_none, Option.getD_none, Option.getD_some, List.length_drop]
        omega

/-- The exponent of a scientific text. -/
def power (w : Written) : Exponent :=
  let digits := Nat.toDigits 10 w.exponent.natAbs
  ⟨'e', some (if w.exponent < 0 then '-' else '+'), List.replicate (2 - digits.length) '0' ++ digits⟩

theorem isExponent_power (w : Written) : IsExponent w.power := by
  refine ⟨.inl rfl, ?_, by simp [power, Nat.toDigits_ne_nil], ?_⟩
  · rintro c hc
    obtain rfl := Option.some.inj hc
    split
    · exact .inr rfl
    · exact .inl rfl
  · rintro c hc
    rcases List.mem_append.mp hc with hzero | hdigit
    · exact isDigit_of_mem_replicate hzero
    · exact isDigit_of_mem_toDigits hdigit

theorem value_power (w : Written) : w.power.value = w.exponent := by
  have hdigits : digitsValue w.power.digits = w.exponent.natAbs := by
    rw [power, digitsValue_zeros_append, Text.digitsValue_toDigits]
  rw [Exponent.value, hdigits, power]
  by_cases hneg : w.exponent < 0
  · simp only [if_pos hneg, if_true]
    omega
  · simp only [if_neg hneg]
    rw [if_neg (by decide)]
    omega

/-- The power of a scientific text is that of its first digit. -/
theorem scientific_writes (h : w.Proper) : ∃ n, Writes n w.scientific w.decimal := by
  have hpower : ∀ e ∈ some w.power, IsExponent e := by
    rintro e he
    obtain rfl := Option.some.inj he
    exact w.isExponent_power
  obtain ⟨first, more, hcons⟩ := List.exists_cons_of_ne_nil h.nonempty
  obtain ⟨hfirst, hmore⟩ := List.forall_mem_cons.mp (hcons ▸ h.digits)
  cases more with
  | nil =>
    refine ⟨⟨[first], none, some w.power⟩, ⟨by simpa using hfirst, by simp, hpower⟩, rfl, ?_, ?_⟩
    · simp [scientific, hcons, Numeral.text, Exponent.text, power]
    · refine Decimal.sameValue_of_eq (by rw [hcons]; rfl) ?_
      simp [hcons, value_power]
  | cons second more =>
    refine ⟨⟨[first], some (second :: more), some w.power⟩, ⟨by simpa using hfirst, ?_, hpower⟩, rfl,
      ?_, ?_⟩
    · rintro digits hdigits
      obtain rfl := Option.some.inj hdigits
      exact hmore
    · simp [scientific, hcons, Numeral.text, Exponent.text, power]
    · refine Decimal.sameValue_of_eq (by rw [hcons]; rfl) ?_
      simp [hcons, value_power]

theorem text_writes (h : w.Proper) : ∃ n, Writes n w.text w.decimal := by
  rw [text]
  split
  · by_cases hneg : w.exponent < 0
    · exact positional_writes_of_neg h hneg
    · exact positional_writes_of_nonneg h hneg
  · exact scientific_writes h

/-- A digit stands at the front in both forms. -/
theorem exists_digit_text (h : w.Proper) : ∃ c more, w.text = c :: more ∧ c.isDigit = true := by
  obtain ⟨first, more, hcons⟩ := List.exists_cons_of_ne_nil h.nonempty
  have hfirst : first.isDigit = true := h.digits first (by simp [hcons])
  rw [text]
  split
  · rw [positional]
    split
    · exact ⟨'0', _, rfl, rfl⟩
    · exact ⟨first, _, by rw [hcons]; rfl, hfirst⟩
  · rw [scientific, hcons]
    cases more with
    | nil => exact ⟨first, _, rfl, hfirst⟩
    | cons second more => exact ⟨first, _, rfl, hfirst⟩

end Written

namespace Decimal

/-- The digits of a decimal without the zeros behind them. -/
def kept (d : Decimal) : List Char :=
  ((Nat.toDigits 10 d.digits).reverse.dropWhile (· == '0')).reverse

theorem exists_zeros (d : Decimal) :
    ∃ zeros, Nat.toDigits 10 d.digits = d.kept ++ List.replicate zeros '0' := by
  have hsplit := List.takeWhile_append_dropWhile (p := (· == '0'))
    (l := (Nat.toDigits 10 d.digits).reverse)
  have hzeros : (Nat.toDigits 10 d.digits).reverse.takeWhile (· == '0') =
      List.replicate ((Nat.toDigits 10 d.digits).reverse.takeWhile (· == '0')).length '0' := by
    refine List.eq_replicate_iff.mpr ⟨rfl, fun c hc => ?_⟩
    have hzero := List.mem_takeWhile_imp hc
    exact eq_of_beq hzero
  refine ⟨((Nat.toDigits 10 d.digits).reverse.takeWhile (· == '0')).length, ?_⟩
  rw [hzeros] at hsplit
  have hreverse := congrArg List.reverse hsplit
  rw [List.reverse_append, List.reverse_replicate, List.reverse_reverse] at hreverse
  exact hreverse.symm

theorem isDigit_of_mem_kept {d : Decimal} {c : Char} (h : c ∈ d.kept) : c.isDigit = true := by
  obtain ⟨zeros, hall⟩ := d.exists_zeros
  exact isDigit_of_mem_toDigits (hall ▸ List.mem_append_left _ h)

theorem written_eq (d : Decimal) :
    d.written = ⟨if d.kept.isEmpty then ['0'] else d.kept,
      d.exponent + ((Nat.toDigits 10 d.digits).length : Int) - 1⟩ := rfl

theorem proper_written (d : Decimal) : d.written.Proper := by
  rw [written_eq]
  by_cases hempty : d.kept.isEmpty = true
  · rw [if_pos hempty]
    exact ⟨by simp, by simp⟩
  · rw [if_neg hempty]
    exact ⟨by simpa using hempty, fun c hc => isDigit_of_mem_kept hc⟩

/-- The zeros that are left out are put back by the exponent. -/
theorem sameValue_written (d : Decimal) : d.SameValue d.written.decimal := by
  obtain ⟨zeros, hall⟩ := d.exists_zeros
  have hdigits : d.digits = digitsValue d.kept * 10 ^ zeros := by
    rw [← digitsValue_append_zeros, ← hall, Text.digitsValue_toDigits]
  rw [written_eq]
  by_cases hempty : d.kept.isEmpty = true
  · rw [if_pos hempty]
    rw [List.isEmpty_iff.mp hempty] at hdigits
    exact sameValue_of_zero (by simpa using hdigits) rfl
  · have hlength : 0 < d.kept.length := List.length_pos_iff.mpr (by simpa using hempty)
    have hexponent : d.exponent + ((Nat.toDigits 10 d.digits).length : Int) - 1 -
        (d.kept.length - 1 : Nat) = d.exponent + zeros := by
      rw [hall, List.length_append, List.length_replicate]
      omega
    have hshift := sameValue_shift (digitsValue d.kept) zeros d.exponent
    rw [if_neg hempty]
    rwa [← hdigits, ← hexponent] at hshift

end Decimal

/-- The text of a finite pattern is a numeral, and its decimal is rounded to the pattern. -/
theorem exists_writes_shortest {m : Nat} (h : m < infinite) :
    ∃ n, Writes n (shortest m).written.text (shortest m).written.decimal ∧ n.decimal.nearest = m := by
  obtain ⟨n, hn⟩ := Written.text_writes (shortest m).proper_written
  refine ⟨n, hn, ?_⟩
  rw [hn.value.nearest_eq, ← (shortest m).sameValue_written.nearest_eq, nearest_shortest h]

/-- So it is one literal, of that value. -/
theorem exists_literal_of_shortest {m : Nat} (h : m < infinite) :
    ∃ n : Literal, n.numeral.text = (shortest m).written.text ∧
      n.numeral.toFloat = signed false m := by
  obtain ⟨n, hn, hnearest⟩ := exists_writes_shortest h
  exact ⟨⟨n, hn.wellFormed, hn.marked⟩, hn.text_eq, by rw [Numeral.toFloat, hnearest]⟩

end Reckon.Number
