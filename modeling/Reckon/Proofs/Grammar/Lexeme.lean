import Mathlib.Data.List.TakeWhile
import Reckon.Cursor

/-!
# Names and numerals in a text

A lexeme ends where no longer text of its kind begins at the same place. The kinds are stated
here apart from the scanners, and each scanner is shown to take the longest text of its kind.
The text behind a lexeme may be replaced by one that starts with a character of no lexeme, or by one
that is the same for three characters, and the same lexeme is still the longest.
-/
namespace Reckon.Grammar
open Reckon.Number

/-- The longest text of a kind among those that `lexeme ++ rest` starts with. -/
def Longest (kind : List Char → Prop) (lexeme rest : List Char) : Prop :=
  kind lexeme ∧ ∀ other, kind other → other <+: lexeme ++ rest → other.length ≤ lexeme.length

/-- A start character, and word characters behind it. -/
def IsName : List Char → Prop
  | [] => False
  | c :: more => Text.isNameStart c = true ∧ ∀ d ∈ more, Text.isWord d = true

/-- An exponent mark, perhaps a sign, and at least one digit. -/
structure IsExponent (e : Exponent) : Prop where
  mark : e.mark = 'e' ∨ e.mark = 'E'
  sign : ∀ c ∈ e.sign, c = '+' ∨ c = '-'
  nonempty : e.digits ≠ []
  digits : ∀ c ∈ e.digits, c.isDigit = true

/-- Digits on both sides of the point, and an exponent. Each part may be missing. -/
structure WellFormed (n : Numeral) : Prop where
  integral : ∀ c ∈ n.integral, c.isDigit = true
  fraction : ∀ digits ∈ n.fraction, ∀ c ∈ digits, c.isDigit = true
  exponent : ∀ e ∈ n.exponent, IsExponent e

def IsNumeral (text : List Char) : Prop :=
  ∃ n, WellFormed n ∧ n.text = text

/-- Nothing longer of the kind starts where its longest text does. -/
theorem Longest.eq_nil {kind : List Char → Prop} {lexeme rest more : List Char}
    (h : Longest kind lexeme rest) (hm : more <+: rest) (hk : kind (lexeme ++ more)) :
    more = [] := by
  have hle := h.2 _ hk ((List.prefix_append_right_inj lexeme).mpr hm)
  rw [List.length_append] at hle
  exact List.length_eq_zero_iff.mp (by omega)

theorem takeWhile_append_stop {p : Char → Bool} {run rest : List Char}
    (h : ∀ c ∈ run, p c = true) (hr : ∀ c ∈ rest.head?, p c = false) :
    (run ++ rest).takeWhile p = run ∧ (run ++ rest).dropWhile p = rest := by
  rw [List.takeWhile_append_of_pos h, List.dropWhile_append_of_pos h]
  cases rest with
  | nil => simp
  | cons c rest => simp [hr c rfl]

theorem head?_dropWhile_eq_false {p : Char → Bool} {text : List Char} :
    ∀ c ∈ (text.dropWhile p).head?, p c = false := by
  intro c hc
  have h := List.head?_dropWhile_not p text
  rw [Option.mem_def.mp hc] at h
  exact h

theorem dropWhile_of_stop {p : Char → Bool} {text : List Char}
    (h : ∀ c ∈ text.head?, p c = false) : text.dropWhile p = text := by
  cases text with
  | nil => rfl
  | cons c text => simp [h c rfl]

@[simp] theorem dropWhile_dropWhile {p : Char → Bool} (text : List Char) :
    (text.dropWhile p).dropWhile p = text.dropWhile p :=
  dropWhile_of_stop head?_dropWhile_eq_false

theorem length_takeWhile_append_le {p : Char → Bool} {run : List Char} (rest : List Char)
    (h : ∀ c ∈ run, p c = true) : run.length ≤ ((run ++ rest).takeWhile p).length := by
  simp [List.takeWhile_append_of_pos h]

theorem isDigit_ne_sign {c : Char} (h : c.isDigit = true) : ¬(c = '+' ∨ c = '-') := by
  rintro (rfl | rfl) <;> simp at h

/-- Digits behind a mark and a sign make an exponent, which takes all digits that follow. -/
theorem scan_exponent {e : Exponent} (h : IsExponent e) (rest : List Char) :
    Exponent.scan (e.text ++ rest) =
      some (⟨e.mark, e.sign, e.digits ++ rest.takeWhile Char.isDigit⟩,
        rest.dropWhile Char.isDigit) := by
  obtain ⟨d, more, hd⟩ := List.exists_cons_of_ne_nil h.nonempty
  have hsign : Exponent.scanSign (e.sign.toList ++ (e.digits ++ rest)) =
      (e.sign, e.digits ++ rest) := by
    cases hs : e.sign with
    | none =>
      have hdigit := isDigit_ne_sign (h.digits d (by simp [hd]))
      simp [hd, Exponent.scanSign, hdigit]
    | some c => simp [Exponent.scanSign, h.sign c (by simp [hs])]
  have hne : ((e.digits ++ rest).takeWhile Char.isDigit).isEmpty = false := by
    rw [List.takeWhile_append_of_pos h.digits, hd]
    rfl
  simp only [Exponent.text, List.cons_append, List.append_assoc, Exponent.scan, if_pos h.mark,
    hsign, hne, Bool.false_eq_true, if_false]
  rw [List.takeWhile_append_of_pos h.digits, List.dropWhile_append_of_pos h.digits]

theorem isExponent_of_scan {text rest : List Char} {e : Exponent}
    (h : Exponent.scan text = some (e, rest)) : IsExponent e := by
  cases text with
  | nil => simp [Exponent.scan] at h
  | cons mark more =>
    simp only [Exponent.scan] at h
    split at h
    · next hmark =>
      split at h
      · simp at h
      · next hne =>
        simp only [Option.some.injEq, Prod.mk.injEq] at h
        obtain ⟨rfl, -⟩ := h
        refine ⟨hmark, ?_, by simpa using hne, fun c hc => List.mem_takeWhile_imp hc⟩
        intro c hc
        cases more with
        | nil => simp [Exponent.scanSign] at hc
        | cons d more =>
          simp only [Exponent.scanSign] at hc
          split at hc
          · next hd => simp only [Option.mem_some] at hc; exact hc ▸ hd
          · simp at hc
    · simp at h

/-- No exponent starts where its mark does not stand. -/
theorem scan_exponent_eq_none {text : List Char} (h : ∀ c ∈ text.head?, ¬(c = 'e' ∨ c = 'E')) :
    Exponent.scan text = none := by
  cases text with
  | nil => rfl
  | cons c text => simp [Exponent.scan, h c rfl]

theorem isDigit_or_mem_of_exponent {e : Exponent} (h : IsExponent e) {c : Char} (hc : c ∈ e.text) :
    c.isDigit = true ∨ c ∈ ['e', 'E', '+', '-'] := by
  simp only [Exponent.text, List.mem_cons, List.mem_append, Option.mem_toList] at hc
  rcases hc with rfl | hc | hc
  · rcases h.mark with hmark | hmark <;> simp [hmark]
  · rcases h.sign c hc with rfl | rfl <;> simp
  · exact .inl (h.digits c hc)

/-- In front of the exponent. -/
theorem isDigit_or_point_of_mem {n : Numeral} (h : WellFormed n) {c : Char}
    (hc : c ∈ n.integral ++ (n.fraction.map ('.' :: ·)).getD []) : c.isDigit = true ∨ c = '.' := by
  rcases List.mem_append.mp hc with hc | hc
  · exact .inl (h.integral c hc)
  · cases hf : n.fraction with
    | none => simp [hf] at hc
    | some digits =>
      rw [hf] at hc
      rcases List.mem_cons.mp hc with rfl | hc
      · exact .inr rfl
      · exact .inl (h.fraction digits (by simp [hf]) c hc)

theorem isDigit_or_mem_of_numeral {n : Numeral} (h : WellFormed n) {c : Char} (hc : c ∈ n.text) :
    c.isDigit = true ∨ c ∈ ['.', 'e', 'E', '+', '-'] := by
  rw [Numeral.text, ← List.append_assoc] at hc
  rcases List.mem_append.mp hc with hc | hc
  · rcases isDigit_or_point_of_mem h hc with hdigit | rfl
    · exact .inl hdigit
    · exact .inr List.mem_cons_self
  · cases he : n.exponent with
    | none => simp [he] at hc
    | some e =>
      rw [he] at hc
      exact (isDigit_or_mem_of_exponent (h.exponent e (by simp [he])) hc).imp_right
        (List.mem_cons_of_mem '.')

/-- The characters that a numeral without a sign of its own never goes on with. -/
def EndsNumeral (rest : List Char) : Prop :=
  ∀ c ∈ rest.head?, c.isDigit = false ∧ c ≠ '.' ∧ c ≠ 'e' ∧ c ≠ 'E'

theorem wellFormed_scan (text : List Char) : WellFormed (Numeral.scan text).1 := by
  have hfraction : ∀ digits ∈ (Numeral.scanFraction (text.dropWhile Char.isDigit)).1,
      ∀ c ∈ digits, c.isDigit = true := by
    intro digits hd c hc
    cases ht : text.dropWhile Char.isDigit with
    | nil => simp [ht, Numeral.scanFraction] at hd
    | cons d more =>
      simp only [ht, Numeral.scanFraction] at hd
      split at hd
      · obtain rfl := Option.some.inj hd
        exact List.mem_takeWhile_imp hc
      · simp at hd
  simp only [Numeral.scan]
  split
  · next e rest he =>
    refine ⟨fun c hc => List.mem_takeWhile_imp hc, hfraction, fun other ho => ?_⟩
    obtain rfl := Option.some.inj ho
    exact isExponent_of_scan he
  · exact ⟨fun c hc => List.mem_takeWhile_imp hc, hfraction, fun other ho => by simp at ho⟩

/-- The scanner takes digits, a fraction and an exponent, one behind the other. -/
theorem scan_eq (text : List Char) :
    Numeral.scan text =
      let fraction := Numeral.scanFraction (text.dropWhile Char.isDigit)
      let exponent := Exponent.scan fraction.2
      (⟨text.takeWhile Char.isDigit, fraction.1, exponent.map Prod.fst⟩,
        (exponent.map Prod.snd).getD fraction.2) := by
  simp only [Numeral.scan]
  split <;> simp_all

theorem scanFraction_digits {digits : List Char} (h : ∀ c ∈ digits, c.isDigit = true)
    (rest : List Char) :
    Numeral.scanFraction ('.' :: (digits ++ rest)) =
      (some (digits ++ rest.takeWhile Char.isDigit), rest.dropWhile Char.isDigit) := by
  simp only [Numeral.scanFraction, if_true]
  rw [List.takeWhile_append_of_pos h, List.dropWhile_append_of_pos h]

theorem scanFraction_eq_none {text : List Char} (h : ∀ c ∈ text.head?, c ≠ '.') :
    Numeral.scanFraction text = (none, text) := by
  cases text with
  | nil => rfl
  | cons c text => simp [Numeral.scanFraction, h c rfl]

theorem length_scanFraction_le (text : List Char) :
    (Numeral.scanFraction text).2.length ≤ text.length := by
  have h := congrArg List.length (Numeral.scanFraction_append text)
  rw [List.length_append] at h
  omega

theorem length_exponent_le (text : List Char) :
    (((Exponent.scan text).map Prod.snd).getD text).length ≤ text.length := by
  cases h : Exponent.scan text with
  | none => simp
  | some found =>
    have ht := congrArg List.length (Exponent.text_append_of_scan h)
    simp only [List.length_append] at ht
    simp only [Option.map_some, Option.getD_some]
    omega

/-- An exponent starts with neither a digit nor a point. -/
theorem head?_exponent {e : Exponent} (h : IsExponent e) (rest : List Char) :
    ∀ c ∈ (e.text ++ rest).head?, c.isDigit = false ∧ c ≠ '.' := by
  intro c hc
  obtain rfl : e.mark = c := by simpa [Exponent.text] using hc
  rcases h.mark with hm | hm <;> rw [hm] <;> decide

/-- The scanner leaves no more than what stands behind a numeral. -/
theorem length_rest_scan_le {n : Numeral} (h : WellFormed n) (rest : List Char) :
    (Numeral.scan (n.text ++ rest)).2.length ≤ rest.length := by
  obtain ⟨integral, fraction, exponent⟩ := n
  obtain ⟨hi, hf, he⟩ := h
  have hrun := rest.length_dropWhile_le Char.isDigit
  rw [scan_eq]
  cases exponent with
  | none =>
    -- the rest may go on with more digits, or with parts that the numeral does not have
    refine (length_exponent_le _).trans ?_
    cases fraction with
    | none =>
      refine (length_scanFraction_le _).trans ?_
      simpa [Numeral.text, List.dropWhile_append_of_pos hi] using hrun
    | some digits =>
      have hd := scanFraction_digits (hf digits rfl) rest
      simpa [Numeral.text, List.dropWhile_append_of_pos hi, hd] using hrun
  | some e =>
    have hx := scan_exponent (he e rfl) rest
    have hhead := head?_exponent (he e rfl) rest
    have hs : (Numeral.scanFraction ((Numeral.text ⟨integral, fraction, some e⟩ ++ rest).dropWhile
        Char.isDigit)).2 = e.text ++ rest := by
      cases fraction with
      | none =>
        have hstop := dropWhile_of_stop fun c hc => (hhead c hc).1
        have hnone := scanFraction_eq_none fun c hc => (hhead c hc).2
        simp [Numeral.text, List.dropWhile_append_of_pos hi, hstop, hnone]
      | some digits =>
        have hstop := dropWhile_of_stop fun c hc => (hhead c hc).1
        have hd := scanFraction_digits (hf digits rfl) (e.text ++ rest)
        simp [Numeral.text, List.dropWhile_append_of_pos hi, hd, hstop]
    simp only [hs, hx, Option.map_some, Option.getD_some]
    exact hrun

/-- The text goes on with no digit, and with no fraction or exponent that the numeral lacks. -/
structure NumeralStops (n : Numeral) (rest : List Char) : Prop where
  digit : ∀ c ∈ rest.head?, c.isDigit = false
  fraction : n.fraction = none → n.exponent = none → ∀ c ∈ rest.head?, c ≠ '.'
  exponent : n.exponent = none → Exponent.scan rest = none

theorem EndsNumeral.stops {n : Numeral} {rest : List Char} (h : EndsNumeral rest) :
    NumeralStops n rest :=
  ⟨fun c hc => (h c hc).1, fun _ _ c hc => (h c hc).2.1,
    fun _ => scan_exponent_eq_none fun c hc => not_or.mpr (h c hc).2.2⟩

/-- A numeral is read back where it stops. -/
theorem scan_append_of_stops {n : Numeral} (h : WellFormed n) {rest : List Char}
    (hr : NumeralStops n rest) : Numeral.scan (n.text ++ rest) = (n, rest) := by
  obtain ⟨integral, fraction, exponent⟩ := n
  obtain ⟨hi, hf, he⟩ := h
  have hend : rest.takeWhile Char.isDigit = [] ∧ rest.dropWhile Char.isDigit = rest :=
    @takeWhile_append_stop Char.isDigit [] rest (by simp) hr.digit
  have hhead : ∀ c ∈ ((exponent.map Exponent.text).getD [] ++ rest).head?,
      c.isDigit = false ∧ (fraction = none → c ≠ '.') := by
    cases exponent with
    | none => exact fun c hc => ⟨hr.digit c hc, fun hf => hr.fraction hf rfl c hc⟩
    | some e => exact fun c hc => (head?_exponent (he e rfl) rest c hc).imp_right fun h _ => h
  have hx : Exponent.scan ((exponent.map Exponent.text).getD [] ++ rest) =
      exponent.map fun e => (e, rest) := by
    cases exponent with
    | none => exact hr.exponent rfl
    | some e => simp [scan_exponent (he e rfl), hend]
  have hs : Numeral.scanFraction ((fraction.map ('.' :: ·)).getD [] ++
      ((exponent.map Exponent.text).getD [] ++ rest)) =
      (fraction, (exponent.map Exponent.text).getD [] ++ rest) := by
    cases fraction with
    | none => exact scanFraction_eq_none fun c hc => (hhead c hc).2 rfl
    | some digits =>
      have hstop := @takeWhile_append_stop Char.isDigit [] _ (by simp) fun c hc => (hhead c hc).1
      simp only [Option.map_some, Option.getD_some, List.cons_append]
      rw [scanFraction_digits (hf digits rfl)]
      simpa using hstop
  have hdigits : ∀ c ∈ ((fraction.map ('.' :: ·)).getD [] ++
      ((exponent.map Exponent.text).getD [] ++ rest)).head?, c.isDigit = false := by
    cases fraction with
    | none => exact fun c hc => (hhead c hc).1
    | some digits =>
      intro c hc
      obtain rfl : '.' = c := by simpa using hc
      decide
  have hint := takeWhile_append_stop hi hdigits
  rw [scan_eq]
  simp only [Numeral.text, List.append_assoc, hint, hs, hx]
  cases exponent <;> rfl

/-- A numeral is read back where the text does not go on with one of its characters. -/
theorem scan_append {n : Numeral} (h : WellFormed n) {rest : List Char}
    (hr : EndsNumeral rest) : Numeral.scan (n.text ++ rest) = (n, rest) :=
  scan_append_of_stops h hr.stops

/-- The scanner takes the longest numeral. -/
theorem longest_scan (text : List Char) :
    Longest IsNumeral (Numeral.scan text).1.text (Numeral.scan text).2 := by
  refine ⟨⟨_, wellFormed_scan text, rfl⟩, ?_⟩
  rintro _ ⟨n, hn, rfl⟩ ⟨rest, hrest⟩
  rw [Numeral.text_append_scan] at hrest
  subst hrest
  have hle := length_rest_scan_le hn rest
  have hlen := congrArg List.length (Numeral.text_append_scan (n.text ++ rest))
  simp only [List.length_append] at hlen
  omega

/-- The scanner finds every numeral that is the longest at its place. -/
theorem scan_of_longest {n : Numeral} (h : WellFormed n) {rest : List Char}
    (hl : Longest IsNumeral n.text rest) : Numeral.scan (n.text ++ rest) = (n, rest) := by
  have hs := longest_scan (n.text ++ rest)
  have happ := Numeral.text_append_scan (n.text ++ rest)
  have hlen : (Numeral.scan (n.text ++ rest)).1.text.length = n.text.length := by
    have hprefix : n.text <+: (Numeral.scan (n.text ++ rest)).1.text ++
        (Numeral.scan (n.text ++ rest)).2 := by
      rw [happ]
      exact List.prefix_append _ _
    exact le_antisymm (hl.2 _ hs.1 ⟨_, happ⟩) (hs.2 _ ⟨n, h, rfl⟩ hprefix)
  obtain ⟨htext, hrest⟩ := List.append_inj happ hlen
  have hsame : Numeral.scan (Numeral.scan (n.text ++ rest)).1.text = Numeral.scan n.text := by
    rw [htext]
  have hend : EndsNumeral [] := by simp [EndsNumeral]
  have hself := scan_append (wellFormed_scan (n.text ++ rest)) hend
  have hn := scan_append h hend
  rw [List.append_nil] at hself hn
  rw [hself, hn] at hsame
  exact Prod.ext (Prod.ext_iff.mp hsame).1 hrest

/-- The last part of a numeral may have one more digit. -/
theorem isNumeral_append_digit {n : Numeral} (h : WellFormed n) {c : Char} (hc : c.isDigit = true) :
    IsNumeral (n.text ++ [c]) := by
  obtain ⟨integral, fraction, exponent⟩ := n
  obtain ⟨hi, hf, he⟩ := h
  have hd : ∀ digits : List Char, (∀ d ∈ digits, d.isDigit = true) →
      ∀ d ∈ digits ++ [c], d.isDigit = true := by
    intro digits hall d hd
    rcases List.mem_append.mp hd with hd | hd
    · exact hall d hd
    · obtain rfl := List.mem_singleton.mp hd
      exact hc
  cases exponent with
  | some e =>
    have hx := he e rfl
    refine ⟨⟨integral, fraction, some ⟨e.mark, e.sign, e.digits ++ [c]⟩⟩, ⟨hi, hf, ?_⟩,
      by simp [Numeral.text, Exponent.text]⟩
    intro other ho
    obtain rfl := Option.some.inj ho
    exact ⟨hx.mark, hx.sign, by simp, hd _ hx.digits⟩
  | none =>
    cases fraction with
    | some digits =>
      refine ⟨⟨integral, some (digits ++ [c]), none⟩, ⟨hi, ?_, he⟩, by simp [Numeral.text]⟩
      intro other ho
      obtain rfl := Option.some.inj ho
      exact hd _ (hf digits rfl)
    | none => exact ⟨⟨integral ++ [c], none, none⟩, ⟨hd _ hi, hf, he⟩, by simp [Numeral.text]⟩

/-- The longest numeral stops: it would be longer with what it lacks. -/
theorem numeralStops_of_longest {n : Numeral} (h : WellFormed n) {rest : List Char}
    (hl : Longest IsNumeral n.text rest) : NumeralStops n rest := by
  have hdigit := fun c => isNumeral_append_digit h (c := c)
  obtain ⟨integral, fraction, exponent⟩ := n
  obtain ⟨hi, hf, he⟩ := h
  refine ⟨?_, ?_, ?_⟩
  · intro c hc
    obtain ⟨tail, rfl⟩ := List.head?_eq_some_iff.mp hc
    by_contra hne
    exact absurd (hl.eq_nil ⟨tail, rfl⟩ (hdigit c (by simpa using hne))) (by simp)
  · rintro rfl rfl c hc rfl
    obtain ⟨tail, rfl⟩ := List.head?_eq_some_iff.mp hc
    have hlonger : IsNumeral (Numeral.text ⟨integral, none, none⟩ ++ ['.']) :=
      ⟨⟨integral, some [], none⟩, ⟨hi, by simp, he⟩, by simp [Numeral.text]⟩
    exact absurd (hl.eq_nil ⟨tail, rfl⟩ hlonger) (by simp)
  · rintro rfl
    cases hs : Exponent.scan rest with
    | none => rfl
    | some found =>
      obtain ⟨e, tail⟩ := found
      have hlonger : IsNumeral (Numeral.text ⟨integral, fraction, none⟩ ++ e.text) := by
        refine ⟨⟨integral, fraction, some e⟩, ⟨hi, hf, ?_⟩, by simp [Numeral.text]⟩
        intro other ho
        obtain rfl := Option.some.inj ho
        exact isExponent_of_scan hs
      have hnil := hl.eq_nil ⟨tail, Exponent.text_append_of_scan hs⟩ hlonger
      simp [Exponent.text] at hnil

/-- Whether an exponent follows is seen from three characters: a mark, a sign and a digit. -/
theorem scan_exponent_take (rest : List Char) :
    Exponent.scan (rest.take 3) = none ↔ Exponent.scan rest = none := by
  have hdigits : ∀ text : List Char,
      (text.takeWhile Char.isDigit).isEmpty = !text.head?.any Char.isDigit := by
    intro text
    cases text with
    | nil => rfl
    | cons c tail => cases h : c.isDigit <;> simp [h]
  match rest with
  | [] => rfl
  | [_] => rfl
  | [_, _] => rfl
  | mark :: c :: d :: tail =>
    simp only [List.take_succ_cons, List.take_zero, Exponent.scan, Exponent.scanSign]
    split
    · split <;> simp [hdigits]
    · rfl

theorem head?_of_take {rest other : List Char} (ht : other.take 3 = rest.take 3) :
    other.head? = rest.head? := by
  simpa [List.head?_take] using congrArg List.head? ht

/-- Nothing behind the third character matters to whether a numeral stops. -/
theorem NumeralStops.near {n : Numeral} {rest other : List Char} (h : NumeralStops n rest)
    (ht : other.take 3 = rest.take 3) : NumeralStops n other := by
  have hhead := head?_of_take ht
  refine ⟨hhead ▸ h.digit, hhead ▸ h.fraction, fun hn => ?_⟩
  rw [← scan_exponent_take, ht, scan_exponent_take]
  exact h.exponent hn

/-- A longest numeral stays the longest if the text changes from the third character behind it on. -/
theorem longest_isNumeral_near {n : Numeral} (hn : WellFormed n) {rest other : List Char}
    (h : Longest IsNumeral n.text rest) (ht : other.take 3 = rest.take 3) :
    Longest IsNumeral n.text other := by
  have hscan := scan_append_of_stops hn ((numeralStops_of_longest hn h).near ht)
  have hl := longest_scan (n.text ++ other)
  rwa [hscan] at hl

theorem isWord_of_isName {text : List Char} (h : IsName text) :
    ∀ c ∈ text, Text.isWord c = true := by
  cases text with
  | nil => simp
  | cons c more =>
    intro d hd
    rcases List.mem_cons.mp hd with rfl | hd
    · exact Text.isWord_of_isNameStart h.1
    · exact h.2 d hd

/-- A name ends in front of every character that is no word character. -/
theorem longest_isName_of_stop {name rest : List Char} (h : IsName name)
    (hr : ∀ c ∈ rest.head?, Text.isWord c = false) : Longest IsName name rest := by
  refine ⟨h, fun other ho hprefix => ?_⟩
  obtain ⟨hrun, -⟩ := takeWhile_append_stop (isWord_of_isName h) hr
  obtain ⟨more, hmore⟩ := hprefix
  have hle := length_takeWhile_append_le more (isWord_of_isName ho)
  rwa [hmore, hrun] at hle

theorem nameOf_append {name rest : List Char} (h : IsName name)
    (hr : ∀ c ∈ rest.head?, Text.isWord c = false) :
    Cursor.nameOf (name ++ rest) = some name := by
  cases name with
  | nil => exact h.elim
  | cons c more =>
    obtain ⟨hrun, -⟩ := takeWhile_append_stop h.2 hr
    simp [Cursor.nameOf, h.1, hrun]

/-- What the scanner takes for a name is the longest one. -/
theorem longest_of_nameOf {text name : List Char} (h : Cursor.nameOf text = some name) :
    ∃ rest, text = name ++ rest ∧ Longest IsName name rest := by
  cases text with
  | nil => simp [Cursor.nameOf] at h
  | cons c more =>
    simp only [Cursor.nameOf] at h
    split at h
    · next hc =>
      obtain rfl := Option.some.inj h
      refine ⟨more.dropWhile Text.isWord, ?_, longest_isName_of_stop ⟨hc, ?_⟩ ?_⟩
      · simp [List.takeWhile_append_dropWhile]
      · exact fun d hd => List.mem_takeWhile_imp hd
      · exact head?_dropWhile_eq_false
    · simp at h

/-- The longest name ends where the scanner stops. -/
theorem stop_of_longest_isName {name rest : List Char} (h : Longest IsName name rest) :
    ∀ c ∈ rest.head?, Text.isWord c = false := by
  intro c hc
  by_contra hword
  obtain ⟨start, more, rfl⟩ : ∃ start more, name = start :: more := by
    cases name with
    | nil => exact h.1.elim
    | cons start more => exact ⟨start, more, rfl⟩
  obtain ⟨tail, rfl⟩ : ∃ tail, rest = c :: tail := by
    cases rest with
    | nil => simp at hc
    | cons d tail =>
      obtain rfl : d = c := by simpa using hc
      exact ⟨tail, rfl⟩
  have hlonger : IsName (start :: (more ++ [c])) := by
    refine ⟨h.1.1, fun d hd => ?_⟩
    rcases List.mem_append.mp hd with hd | hd
    · exact h.1.2 d hd
    · obtain rfl := List.mem_singleton.mp hd
      simpa using hword
  exact absurd (h.eq_nil ⟨tail, rfl⟩ hlonger) (by simp)

/-- A longest name stays the longest if the text changes from the third character behind it on. -/
theorem longest_isName_near {name rest other : List Char} (h : Longest IsName name rest)
    (ht : other.take 3 = rest.take 3) : Longest IsName name other :=
  longest_isName_of_stop h.1 (head?_of_take ht ▸ stop_of_longest_isName h)

/-- The characters that occur in names and numerals. -/
def isLexical (c : Char) : Bool :=
  Text.isWord c || c == '.' || c == '+' || c == '-'

/-- The text starts with no character of a name or a numeral. -/
def Barrier (text : List Char) : Prop :=
  ∀ c ∈ text.head?, isLexical c = false

/-- Two texts that are the same up to a place where the second one has a barrier. -/
def Cut (text other : List Char) : Prop :=
  ∃ common rest barrier, text = common ++ rest ∧ other = common ++ barrier ∧ Barrier barrier

theorem Cut.append {text other : List Char} (h : Cut text other) (front : List Char) :
    Cut (front ++ text) (front ++ other) := by
  obtain ⟨common, rest, barrier, rfl, rfl, hb⟩ := h
  exact ⟨front ++ common, rest, barrier, by simp, by simp, hb⟩

theorem isLexical_of_isName {text : List Char} (h : IsName text) :
    ∀ c ∈ text, isLexical c = true := by
  intro c hc
  simp [isLexical, isWord_of_isName h c hc]

theorem isLexical_of_isDigit {c : Char} (h : c.isDigit = true) : isLexical c = true := by
  simp [isLexical, Text.isWord_of_isDigit h]

theorem isLexical_of_isNumeral {text : List Char} (h : IsNumeral text) :
    ∀ c ∈ text, isLexical c = true := by
  obtain ⟨n, hn, rfl⟩ := h
  intro c hc
  rcases isDigit_or_mem_of_numeral hn hc with hdigit | hother
  · exact isLexical_of_isDigit hdigit
  · simp only [List.mem_cons, List.not_mem_nil, or_false] at hother
    rcases hother with rfl | rfl | rfl | rfl | rfl <;> decide

/-- A lexeme stays the longest if the text behind it is cut off by a barrier. -/
theorem Longest.cut {kind : List Char → Prop} (hk : ∀ text, kind text → ∀ c ∈ text, isLexical c = true)
    {lexeme text other : List Char} (h : Longest kind lexeme text) (hc : Cut text other) :
    Longest kind lexeme other := by
  obtain ⟨common, rest, barrier, rfl, rfl, hb⟩ := hc
  refine ⟨h.1, fun word hw hprefix => ?_⟩
  rw [← List.append_assoc] at hprefix
  rcases List.prefix_or_prefix_of_prefix hprefix (List.prefix_append _ _) with hshort | hlong
  · have hin := hshort.trans (List.prefix_append _ rest)
    rw [List.append_assoc] at hin
    exact h.2 word hw hin
  · obtain ⟨more, rfl⟩ := hlong
    cases more with
    | nil =>
      rw [List.append_nil] at hw ⊢
      exact h.2 _ hw ⟨rest, by simp⟩
    | cons c more =>
      -- the character behind the common part would belong to the longer word
      obtain ⟨tail, htail⟩ := (List.prefix_append_right_inj _).mp hprefix
      have hc := hb c (by simp [← htail])
      have hin := hk _ hw c (by simp)
      rw [hin] at hc
      contradiction

end Reckon.Grammar
