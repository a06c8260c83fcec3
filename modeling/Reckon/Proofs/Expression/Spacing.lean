import Reckon.Session
import Reckon.Proofs.Expression.Lockstep

/-!
# Other blanks in a text

Blanks separate words and mean nothing else. Other blanks in place of blanks, and blanks at either
end or next to a separator, leave every token as it is. So the evaluation goes on in step with that
of the old text, and a fault is found at the same character, wherever that has moved.
-/
namespace Reckon.Expression
open Grammar Number
open Text (isBlank)

/-- Characters that need no blanks between them and their neighbours. The signs are not among them,
as they may be part of a number. -/
def separators : List Char := ['(', ')', ',', '*', '/', '%', '^']

/-- The second text is the first one with other blanks in it, but none in front that are new. -/
inductive Spacing : List Char → List Char → Prop
  | finish (blanks : List Char) (h : ∀ c ∈ blanks, isBlank c = true) : Spacing [] blanks
  | keep (c : Char) {rest rest' : List Char} (h : Spacing rest rest') :
      Spacing (c :: rest) (c :: rest')
  /-- Blanks in place of blanks. -/
  | blanks {old new rest rest' : List Char} (hold : old ≠ [] ∧ ∀ c ∈ old, isBlank c = true)
      (hnew : new ≠ [] ∧ ∀ c ∈ new, isBlank c = true) (h : Spacing rest rest') :
      Spacing (old ++ rest) (new ++ rest')
  /-- Blanks before and behind a separator. -/
  | around {c : Char} (hc : c ∈ separators) {before behind rest rest' : List Char}
      (hbefore : ∀ d ∈ before, isBlank d = true) (hbehind : ∀ d ∈ behind, isBlank d = true)
      (h : Spacing rest rest') : Spacing (c :: rest) (before ++ c :: (behind ++ rest'))

/-- The second text is the first one with other blanks in it. -/
def Respaced (old new : List Char) : Prop :=
  ∃ blanks rest, (∀ c ∈ blanks, isBlank c = true) ∧ new = blanks ++ rest ∧ Spacing old rest

/-- The number of characters that are no blanks. -/
def ink (text : List Char) : Nat := text.countP fun c => !isBlank c

/-- The position of the character with `count` others than blanks in front of it, or the end. -/
def spot : Nat → List Char → Nat
  | _, [] => 0
  | count, c :: text =>
    if isBlank c then spot count text + 1
    else
      match count with
      | 0 => 0
      | count + 1 => spot count text + 1

/-- Where the character at a position of the old text is found in the new one. -/
def carried (old new : List Char) (position : Nat) : Nat := spot (ink (old.take position)) new

variable {old new rest rest' more : List Char}

theorem isLexical_eq_false_of_mem_separators {c : Char} (h : c ∈ separators) :
    isLexical c = false := by
  have hall : separators.all (fun d => !isLexical d) = true := by decide
  simpa using List.all_eq_true.mp hall c h

theorem isBlank_eq_false_of_mem_separators {c : Char} (h : c ∈ separators) :
    isBlank c = false := by
  have hall : separators.all (fun d => !isBlank d) = true := by decide
  simpa using List.all_eq_true.mp hall c h

/-- A text that starts with a blank or a separator cuts off every word. -/
theorem barrier_cons {c : Char} (h : isBlank c = true ∨ c ∈ separators) (text : List Char) :
    Barrier (c :: text) := by
  intro d hd
  obtain rfl := Option.some.inj hd
  exact h.elim isLexical_eq_false_of_isBlank isLexical_eq_false_of_mem_separators

theorem barrier_blanks {blanks : List Char} (h : ∀ c ∈ blanks, isBlank c = true)
    (hrest : Barrier rest) : Barrier (blanks ++ rest) := by
  cases blanks with
  | nil => exact hrest
  | cons c blanks => exact barrier_cons (.inl (h c (by simp))) _

theorem dropWhile_append_blanks {blanks : List Char} (h : ∀ c ∈ blanks, isBlank c = true)
    (rest : List Char) : (blanks ++ rest).dropWhile isBlank = rest.dropWhile isBlank :=
  List.dropWhile_append_of_pos h

/-- Words of the old text are words of the new one. -/
theorem Spacing.cut (h : Spacing old new) : Cut old new := by
  -- up to the first place where the texts differ they are the same, and a barrier stands there
  induction h with
  | finish blanks h =>
    have hb : Barrier (blanks ++ []) := barrier_blanks h (by simp [Barrier])
    exact ⟨[], [], blanks, rfl, rfl, by simpa using hb⟩
  | keep c _ ih => exact ih.append [c]
  | @blanks old new rest rest' hold hnew _ _ =>
    obtain ⟨c, new, rfl⟩ := List.exists_cons_of_ne_nil hnew.1
    exact ⟨[], old ++ rest, _, rfl, rfl, barrier_cons (.inl (hnew.2 c (by simp))) _⟩
  | @around c hc before behind rest rest' hbefore _ _ _ =>
    exact ⟨[], c :: rest, _, rfl, rfl, barrier_blanks hbefore (barrier_cons (.inr hc) _)⟩

theorem Spacing.dropWhile (h : Spacing old new) :
    Spacing (old.dropWhile isBlank) (new.dropWhile isBlank) := by
  induction h with
  | finish blanks h =>
    have hnil : blanks.dropWhile isBlank = [] := by simpa using h
    rw [hnil]
    exact .finish [] (by simp)
  | keep c h ih =>
    cases hc : isBlank c with
    | true => simpa [hc] using ih
    | false => simpa [hc] using Spacing.keep c h
  | blanks hold hnew h ih =>
    rwa [dropWhile_append_blanks hold.2, dropWhile_append_blanks hnew.2]
  | around hc hbefore hbehind h ih =>
    have hb := isBlank_eq_false_of_mem_separators hc
    rw [dropWhile_append_blanks hbefore, dropWhile_of_stop (by simpa using hb),
      dropWhile_of_stop (by simpa using hb)]
    exact @Spacing.around _ hc [] _ _ _ (by simp) hbehind h

theorem Respaced.dropWhile (h : Respaced old new) :
    Spacing (old.dropWhile isBlank) (new.dropWhile isBlank) := by
  obtain ⟨blanks, rest, hblanks, rfl, hrest⟩ := h
  rw [dropWhile_append_blanks hblanks]
  exact hrest.dropWhile

theorem Spacing.respaced (h : Spacing old new) : Respaced old new :=
  ⟨[], new, by simp, rfl, h⟩

/-- The first character behind the blanks stays the same, and what follows it is respaced. -/
theorem Spacing.cons {c : Char} (h : Spacing (c :: more) new) (hc : isBlank c = false)
    (hnew : Clear new) : ∃ more', new = c :: more' ∧ Respaced more more' := by
  generalize hw : c :: more = old at h
  cases h with
  | finish blanks hb => cases hw
  | keep d h =>
    obtain ⟨rfl, rfl⟩ := List.cons.inj hw
    exact ⟨_, rfl, h.respaced⟩
  | @blanks old _ _ _ hold _ _ =>
    obtain ⟨d, old, rfl⟩ := List.exists_cons_of_ne_nil hold.1
    obtain ⟨rfl, -⟩ := List.cons.inj hw
    have hblank := hold.2 c (by simp)
    simp [hc] at hblank
  | @around d hd before behind rest rest' hbefore hbehind h =>
    obtain ⟨rfl, rfl⟩ := List.cons.inj hw
    have hfront : before ++ c :: (behind ++ rest') = c :: (behind ++ rest') := by
      rw [← hnew, dropWhile_append_blanks hbefore, dropWhile_of_stop (by simpa using hc)]
    exact ⟨_, hfront, behind, rest', hbehind, rfl, h⟩

/-- There are no blanks in a lexeme. -/
theorem Spacing.lexeme {lexeme : List Char} (hl : ∀ c ∈ lexeme, isLexical c = true)
    (h : Spacing (lexeme ++ more) new) : ∃ more', new = lexeme ++ more' ∧ Spacing more more' := by
  induction lexeme generalizing new with
  | nil => exact ⟨new, rfl, h⟩
  | cons c lexeme ih =>
    have hc := hl c (by simp)
    generalize hw : (c :: lexeme) ++ more = old at h
    cases h with
    | finish blanks hb => cases hw
    | keep d h =>
      obtain ⟨rfl, rfl⟩ := List.cons.inj hw
      obtain ⟨more', rfl, hmore⟩ := ih (fun d hd => hl d (by simp [hd])) h
      exact ⟨more', rfl, hmore⟩
    | @blanks old _ _ _ hold _ _ =>
      obtain ⟨d, old, rfl⟩ := List.exists_cons_of_ne_nil hold.1
      obtain ⟨rfl, -⟩ := List.cons.inj hw
      have hblank := isLexical_eq_false_of_isBlank (hold.2 c (by simp))
      simp [hc] at hblank
    | around hd _ _ h =>
      obtain ⟨rfl, rfl⟩ := List.cons.inj hw
      have hseparator := isLexical_eq_false_of_mem_separators hd
      simp [hc] at hseparator

/-- The next token stays the same. -/
theorem Respaced.next {t : Token} (h : Respaced rest rest') (hn : Next rest t more) :
    ∃ more', Next rest' t more' ∧ Respaced more more' := by
  have hs := h.dropWhile
  rw [hn.1] at hs
  -- a name or a number goes on to the same character in both texts, and is the longest in both
  have hword : ∀ lexeme, t.text = lexeme → (∀ c ∈ lexeme, isLexical c = true) →
      ∃ more', Next rest' t more' ∧ Respaced more more' := by
    rintro _ rfl hl
    obtain ⟨more', hnew, hmore⟩ := hs.lexeme hl
    exact ⟨more', ⟨hnew, hn.2.cut hmore.cut⟩, hmore.respaced⟩
  cases t with
  | mark c hm =>
    obtain ⟨more', hnew, hmore⟩ :=
      hs.cons (isBlank_eq_false_of_isMark hm) (clear_dropWhile rest')
    exact ⟨more', ⟨hnew, trivial⟩, hmore⟩
  | name n => exact hword n.text rfl (isLexical_of_isName n.isName)
  | number n => exact hword n.numeral.text rfl (isLexical_of_isNumeral ⟨_, n.wellFormed, rfl⟩)

/-- Behind the blanks the same character comes first. -/
theorem Spacing.head? (h : Spacing old new) :
    (old.dropWhile isBlank).head? = (new.dropWhile isBlank).head? := by
  induction h with
  | finish blanks h =>
    have hnil : blanks.dropWhile isBlank = [] := by simpa using h
    rw [hnil]
    rfl
  | keep c h ih =>
    cases hc : isBlank c with
    | true => simpa [hc] using ih
    | false => simp [hc]
  | blanks hold hnew h ih =>
    rwa [dropWhile_append_blanks hold.2, dropWhile_append_blanks hnew.2]
  | around hc hbefore hbehind h ih =>
    have hb := isBlank_eq_false_of_mem_separators hc
    rw [dropWhile_append_blanks hbefore, dropWhile_of_stop (by simpa using hb),
      dropWhile_of_stop (by simpa using hb)]
    rfl

theorem Respaced.head? (h : Respaced old new) :
    (old.dropWhile isBlank).head? = (new.dropWhile isBlank).head? := by
  obtain ⟨blanks, rest, hblanks, rfl, hrest⟩ := h
  rw [dropWhile_append_blanks hblanks]
  exact hrest.head?

theorem Respaced.eq_nil (h : Respaced old []) : old = [] := by
  obtain ⟨blanks, rest, -, hnil, hrest⟩ := h
  obtain ⟨-, rfl⟩ := List.append_eq_nil_iff.mp hnil.symm
  generalize hw : ([] : List Char) = new at hrest
  cases hrest with
  | finish _ h => exact hw
  | keep c h => cases hw
  | blanks hold hnew h => exact absurd (List.append_eq_nil_iff.mp hw.symm).1 hnew.1
  | around hc hbefore hbehind h => simp at hw

theorem ink_append (front rest : List Char) : ink (front ++ rest) = ink front + ink rest :=
  List.countP_append

theorem ink_blanks {blanks : List Char} (h : ∀ c ∈ blanks, isBlank c = true) : ink blanks = 0 := by
  simpa [ink, List.countP_eq_zero] using h

theorem Spacing.ink_eq (h : Spacing old new) : ink new = ink old := by
  induction h with
  | finish blanks h => rw [ink_blanks h]; rfl
  | keep c _ ih => simpa [ink, List.countP_cons] using ih
  | blanks hold hnew _ ih => rw [ink_append, ink_append, ink_blanks hold.2, ink_blanks hnew.2, ih]
  | @around c hc before behind rest rest' hbefore hbehind _ ih =>
    rw [ink_append, ink_blanks hbefore, ← List.singleton_append, ink_append, ink_append,
      ink_blanks hbehind, ih, ← List.singleton_append (l := rest), ink_append]
    omega

theorem Respaced.ink_eq (h : Respaced old new) : ink new = ink old := by
  obtain ⟨blanks, rest, hblanks, rfl, hrest⟩ := h
  rw [ink_append, ink_blanks hblanks, hrest.ink_eq, Nat.zero_add]

/-- Behind the blanks, the number of other characters in front gives the position. -/
theorem spot_append {front : List Char} (h : Clear rest) :
    spot (ink front) (front ++ rest) = front.length := by
  induction front with
  | nil =>
    cases rest with
    | nil => rfl
    | cons c rest =>
      have hc : isBlank c = false := head?_dropWhile_eq_false c (by rw [h]; rfl)
      simp [spot, ink, hc]
  | cons c front ih =>
    cases hc : isBlank c with
    | true => simpa [spot, ink, hc] using ih
    | false => simpa [spot, ink, hc] using ih

/-- Rests that belong together are found at positions that do. -/
theorem Respaced.position (h : Respaced old new) (hr : Respaced rest rest') (hrest : rest <:+ old)
    (hrest' : rest' <:+ new) (hc' : Clear rest') :
    new.length - rest'.length = carried old new (old.length - rest.length) := by
  obtain ⟨front, rfl⟩ := hrest
  obtain ⟨front', rfl⟩ := hrest'
  have hink : ink front' = ink front := by
    have hall := h.ink_eq
    have hends := hr.ink_eq
    rw [ink_append, ink_append] at hall
    omega
  have htake : (front ++ rest).take ((front ++ rest).length - rest.length) = front := by simp
  rw [carried, htake, ← hink, spot_append hc']
  simp

section Evaluation
variable {evaluate : Evaluator} {b : Bindings} {answer : String → List Float → Except Failure Float}

/-- A text and the same text with other blanks, under functions that change nothing. -/
def Lockstep.respaced
    (hresponds : b.Respond evaluate fun name arguments found => found = answer name arguments)
    (hfaultless : ∀ name arguments fault, answer name arguments ≠ .error (.fault fault))
    (h : Respaced old new) : Lockstep where
  evaluate := evaluate
  other := evaluate
  text := old
  otherText := new
  move := carried old new
  Aligned rest rest' := Respaced rest rest' ∧ rest <:+ old ∧ rest' <:+ new
  Related e e' := e' = e ∧ e.bindings = b
  Settled _ _ := False
  length_le := fun ⟨_, hr, hr'⟩ => ⟨hr.length_le, hr'.length_le⟩
  blanks := fun ⟨hs, hr, hr'⟩ =>
    ⟨hs.dropWhile.respaced, (List.dropWhile_suffix _).trans hr, (List.dropWhile_suffix _).trans hr'⟩
  head? := fun ⟨hs, _⟩ => hs.head?
  position := fun ⟨hs, hr, hr'⟩ _ hc' => h.position hs hr hr' hc'
  next := by
    rintro rest rest' more t ⟨hs, hr, hr'⟩ hn
    obtain ⟨more', hn', hmore⟩ := hs.next hn
    exact .inl ⟨more', hn', hmore, hn.suffix.trans hr, hn'.suffix.trans hr'⟩
  names := by
    rintro rest rest' more n _ e - - ⟨rfl, he⟩
    refine .same ?_
    rintro callee hcallee values _ e₁ ⟨rfl, he₁⟩
    obtain ⟨result, hplain, hcall⟩ := hresponds.callee hfaultless (he ▸ hcallee) values
    obtain ⟨after, hafter, hresult⟩ := hcall e₁ he₁
    rw [Pairing.Alike, hresult]
    exact ⟨(hplain _).symm, rfl, hafter⟩
  settled_group := False.elim
  settled_list := False.elim

end Evaluation

end Reckon.Expression

namespace Reckon.Calculator
open Expression
open Text (isBlank)

variable {c : Calculator} {answer : String → List Float → Except Failure Float}

/-- Other blanks change nothing about the answer but the place of a fault. -/
theorem answer_respaced (hpure : c.bindings.Pure answer)
    (hfaultless : ∀ name arguments fault, answer name arguments ≠ .error (.fault fault))
    {old new : String} (hne : old ≠ "") (h : Respaced old.toList new.toList) :
    (c.step (.evaluate new)).1 =
      ⟨(c.step (.evaluate old)).1.result.mapError
          (Failure.mapPosition (carried old.toList new.toList)),
        (c.step (.evaluate old)).1.calls⟩ := by
  have hne' : new ≠ "" := by
    rintro rfl
    exact hne (String.toList_injective h.eq_nil)
  have halike := (Lockstep.respaced (hpure c.precision) hfaultless h).evaluateWith_alike
    ⟨c.bindings, []⟩ ⟨c.bindings, []⟩ c.precision hne hne' rfl rfl
    ⟨h, List.suffix_rfl, List.suffix_rfl⟩ ⟨rfl, rfl⟩
  have hresult : (c.run new).1 =
      (c.run old).1.mapError (Failure.mapPosition (carried old.toList new.toList)) := halike.1
  have hafter : (c.run new).2 = (c.run old).2 := halike.2.1
  simp only [Calculator.step, hresult, hafter]
  cases (c.run old).1 <;> rfl

/-- A call with a parenthesis too many behind it. -/
theorem answer_respaced_call :
    ((⟨Bindings.empty.setFunction "f" ⟨Callback.sum, none⟩, .places 2⟩ : Calculator).step
        (.evaluate "  f(  1 ,2 ) )")).1 =
      ⟨((⟨Bindings.empty.setFunction "f" ⟨Callback.sum, none⟩, .places 2⟩ : Calculator).step
          (.evaluate "f( 1,2))")).1.result.mapError
          (Failure.mapPosition (carried "f( 1,2))".toList "  f(  1 ,2 ) )".toList)),
        ((⟨Bindings.empty.setFunction "f" ⟨Callback.sum, none⟩, .places 2⟩ : Calculator).step
          (.evaluate "f( 1,2))")).1.calls⟩ := by
  have hpure : Bindings.Pure (Bindings.empty.setFunction "f" ⟨Callback.sum, none⟩)
      fun _ arguments => .ok (arguments.foldl (· + ·) 0.0) := by
    intro precision name function hf arguments _ calls
    obtain rfl := Bindings.eq_of_get?_setFunction hf
    exact ⟨_, calls, rfl, rfl⟩
  refine answer_respaced hpure (by simp) (by decide) ?_
  have hspace : ∀ c ∈ [' '], isBlank c = true := List.forall_mem_singleton.mpr (by decide)
  have hspaces : ∀ c ∈ [' ', ' '], isBlank c = true := by simpa using hspace
  have hclose : Spacing [')', ')'] [' ', ')', ' ', ')'] :=
    @Spacing.around ')' (by decide) [' '] [' '] _ _ hspace hspace (.keep ')' (.finish [] (by simp)))
  have hcomma : Spacing [',', '2', ')', ')'] [' ', ',', '2', ' ', ')', ' ', ')'] :=
    @Spacing.around ',' (by decide) [' '] [] _ _ hspace (by simp) (.keep '2' hclose)
  have hfirst : Spacing [' ', '1', ',', '2', ')', ')']
      [' ', ' ', '1', ' ', ',', '2', ' ', ')', ' ', ')'] :=
    @Spacing.blanks [' '] [' ', ' '] _ _ ⟨by simp, hspace⟩ ⟨by simp, hspaces⟩ (.keep '1' hcomma)
  exact ⟨[' ', ' '], _, hspaces, rfl, .keep 'f' (.keep '(' hfirst)⟩

end Reckon.Calculator
