import Reckon.Calculator
import Reckon.Proofs.Expression.Soundness

/-!
# How far an evaluation looks ahead

A run stops somewhere in the text, with a value or with a failure. What stands further than three
characters behind that place has no part in it: on every text that is the same up to there the run
does the same, makes the same calls and leaves the same bindings. Three characters are what a
numeral looks at behind its end, a mark, a sign and a digit, and nothing else looks further.
-/
namespace Reckon

namespace Expression
open Grammar Number
open Text (isBlank)

variable {α β : Type} {evaluate : Evaluator} {position n : Nat} {rest more : List Char}
  {e : Environment}

/-- A run that stops in this state, with a value or a failure. -/
def stopped (outcome : Except Failure α) (s : State) : EStateM.Result Halt State α :=
  match outcome with
  | .ok a => .ok a s
  | .error failure => .error (.failed failure) s

/-- From the position on the runs stop behind `front`, in every text that has the same three
characters behind it, and with any bounds that are large enough for the text. -/
def Concludes (runs : Nat → Nat → Parse α) (position : Nat) (e : Environment)
    (outcome : Except Failure α) (front left : List Char) (after : Environment) : Prop :=
  ∀ (text other : List Char) (bound rounds : Nat), other.take 3 = left.take 3 →
    text.length = position + (front ++ other).length →
    (front ++ other).length < bound → (front ++ other).length < rounds →
    runs bound rounds (.facing text (front ++ other) e) = stopped outcome (.facing text other after)

/-- The runs stop somewhere in the rest, and look at most three characters further. -/
def Confined (runs : Nat → Nat → Parse α) (position : Nat) (rest : List Char) (e : Environment) :
    Prop :=
  ∃ (outcome : Except Failure α) (front left : List Char) (after : Environment),
    rest = front ++ left ∧ Concludes runs position e outcome front left after

/-- The runs are confined on all rests of less than `n` characters. -/
def ConfinedBelow (n : Nat) (runs : Nat → Nat → Parse α) : Prop :=
  ∀ (position : Nat) (rest : List Char) (e : Environment), rest.length < n →
    Confined runs position rest e

theorem take_append_of_take {left other : List Char} (front : List Char)
    (h : other.take 3 = left.take 3) : (front ++ other).take 3 = (front ++ left).take 3 := by
  have hshort : ∀ text : List Char, text.take (3 - front.length) =
      (text.take 3).take (3 - front.length) := by
    intro text
    rw [List.take_take, Nat.min_eq_left (Nat.sub_le _ _)]
  rw [List.take_append, List.take_append, hshort other, h, ← hshort left]

/-- A run, and another behind it. What the first one has moved over leaves the second one fewer
rounds to need, so that it may be given `later` of them. -/
theorem Confined.bind_later {runs : Nat → Nat → Parse α} (h : Confined runs position rest e)
    (nexts : Nat → Nat → α → Parse β) (later : Nat → Nat)
    (hnext : ∀ (a : α) (front left : List Char) (after : Environment), rest = front ++ left →
      Concludes runs position e (.ok a) front left after →
      (∀ size rounds, front.length + size < rounds → size < later rounds) ∧
        Confined (fun bound rounds => nexts bound rounds a) (position + front.length) left after) :
    Confined (fun bound rounds => runs bound rounds >>= nexts bound (later rounds))
      position rest e := by
  obtain ⟨outcome, front, left, between, rfl, hfirst⟩ := h
  cases outcome with
  | error failure =>
    refine ⟨.error failure, front, left, between, rfl, ?_⟩
    intro text other bound rounds ht hp hb hr
    exact bind_error (hfirst text other bound rounds ht hp hb hr)
  | ok a =>
    obtain ⟨hlater, outcome, front', left, after, rfl, hsecond⟩ :=
      hnext a front left between rfl hfirst
    refine ⟨outcome, front ++ front', left, after, (List.append_assoc ..).symm, ?_⟩
    intro text other bound rounds ht hp hb hr
    rw [List.append_assoc] at hp hb hr ⊢
    have hrun := hfirst text _ bound rounds (take_append_of_take front' ht) hp hb hr
    rw [List.length_append] at hp hb hr
    exact (bind_ok hrun).trans
      (hsecond text other bound (later rounds) ht (by omega) (by omega) (hlater _ _ hr))

theorem Confined.bind {runs : Nat → Nat → Parse α} {nexts : Nat → Nat → α → Parse β}
    (h : Confined runs position rest e)
    (hnext : ∀ (a : α) (front left : List Char) (after : Environment), rest = front ++ left →
      Confined (fun bound rounds => nexts bound rounds a) (position + front.length) left after) :
    Confined (fun bound rounds => runs bound rounds >>= nexts bound rounds) position rest e :=
  h.bind_later nexts id fun a front left after hsplit _ =>
    ⟨fun _ _ hlt => by simp only [id]; omega, hnext a front left after hsplit⟩

/-- What is made of a value looks at nothing. -/
theorem Confined.map {runs : Nat → Nat → Parse α} (h : Confined runs position rest e) (f : α → β) :
    Confined (fun bound rounds => runs bound rounds >>= fun a => pure (f a)) position rest e :=
  h.bind fun a _ left after _ =>
    ⟨.ok (f a), [], left, after, rfl, fun _ _ _ _ _ _ _ _ => rfl⟩

/-- The same bound may serve for the rounds. -/
theorem Confined.same_bound {runs : Nat → Nat → Parse α} (h : Confined runs position rest e) :
    Confined (fun bound _ => runs bound bound) position rest e := by
  obtain ⟨outcome, front, left, after, hsplit, hruns⟩ := h
  exact ⟨outcome, front, left, after, hsplit, fun text other bound _ ht hp hb _ =>
    hruns text other bound bound ht hp hb hb⟩

/-- Runs that are confined behind a token, which may be read within larger bounds. -/
theorem Confined.skip {runs runs' : Nat → Nat → Parse α} {t : Token} (hn : Next rest t more)
    (h : Confined runs (position + (rest.length - more.length)) more e)
    (hstep : ∀ (text start tail : List Char) (bound rounds : Nat), start.length ≤ text.length →
      text.length = position + (rest.length - more.length) + tail.length →
      start.length < bound → start.length < rounds → Next start t tail →
      ∃ bound' rounds', tail.length < bound' ∧ tail.length < rounds' ∧
        runs' bound rounds (.facing text start e) = runs bound' rounds' (.facing text tail e)) :
    Confined runs' position rest e := by
  obtain ⟨outcome, front, left, after, rfl, hruns⟩ := h
  obtain ⟨skipped, rfl, -, hnext⟩ := hn.near
  refine ⟨outcome, skipped ++ front, left, after, (List.append_assoc ..).symm, ?_⟩
  intro text other bound rounds ht hp hb hr
  rw [List.append_assoc] at hp hb hr ⊢
  have hplace : text.length =
      position + ((skipped ++ (front ++ left)).length - (front ++ left).length) +
        (front ++ other).length := by
    simp only [List.length_append] at hp ⊢
    omega
  obtain ⟨bound', rounds', hb', hr', hsame⟩ := hstep text _ _ bound rounds (by omega) hplace hb hr
    (hnext _ (take_append_of_take front ht))
  rw [hsame]
  exact hruns text other bound' rounds' ht hplace hb' hr'

/-- Behind blanks the text goes on as it did, up to the three characters. -/
theorem dropWhile_blanks {front left other : List Char}
    (hd : rest.dropWhile isBlank = front ++ left) (ht : other.take 3 = left.take 3) :
    (rest.takeWhile isBlank ++ (front ++ other)).dropWhile isBlank = front ++ other := by
  have hall : ∀ c ∈ rest.takeWhile isBlank, isBlank c = true := fun _ => List.mem_takeWhile_imp
  rw [List.dropWhile_append_of_pos hall]
  refine dropWhile_of_stop fun c hc => ?_
  rw [head?_of_take (take_append_of_take front ht), ← hd] at hc
  exact head?_dropWhile_eq_false c hc

/-- Runs that are confined behind the blanks. What comes next there tells how they go on. -/
theorem Confined.blanks {runs runs' : Nat → Nat → Parse α}
    (h : Confined runs (position + (rest.takeWhile isBlank).length) (rest.dropWhile isBlank) e)
    (hstep : ∀ (text start : List Char) (bound rounds : Nat), start.length ≤ text.length →
      start.length < bound → start.length < rounds →
      (start.dropWhile isBlank).head? = (rest.dropWhile isBlank).head? →
      runs' bound rounds (.facing text start e) =
        runs bound rounds (.facing text (start.dropWhile isBlank) e)) :
    Confined runs' position rest e := by
  obtain ⟨outcome, front, left, after, hd, hruns⟩ := h
  refine ⟨outcome, rest.takeWhile isBlank ++ front, left, after, ?_, ?_⟩
  · rw [List.append_assoc, ← hd, List.takeWhile_append_dropWhile]
  · intro text other bound rounds ht hp hb hr
    rw [List.append_assoc] at hp hb hr ⊢
    have hdrop := dropWhile_blanks hd ht
    rw [hstep text _ bound rounds (by omega) hb hr
      (by rw [hdrop, hd, head?_of_take (take_append_of_take front ht)]), hdrop]
    rw [List.length_append] at hp hb hr
    exact hruns text other bound rounds ht (by omega) (by omega) (by omega)

/-- A fault where the cursor stands. -/
theorem confined_failAt (rejection : Option Char → Nat → Rejection) (position : Nat)
    (rest : List Char) (e : Environment) :
    Confined (fun _ _ => (failAt rejection : Parse α)) position rest e := by
  refine ⟨.error (.fault (rejection rest.head? position)), [], rest, e, rfl, ?_⟩
  intro text other bound rounds ht hp hb hr
  have hhead := head?_of_take ht
  have hplace : text.length - other.length = position := by
    rw [List.nil_append] at hp
    omega
  simp only [List.nil_append, failAt_facing, hhead, hplace]
  rfl

section Chain
variable {l : Level} {operands : Nat → Parse Float}

/-- An operand, and a chain behind it. -/
theorem linked_confined (ho : ConfinedBelow n fun bound _ => operands bound)
    (hchain : ∀ (value : Float) (position : Nat) (left : List Char) (e : Environment),
      left.length ≤ rest.length →
      Confined (fun bound rounds => chain l.operator? (operands bound) rounds value)
        position left e)
    (start : Float → Float) (hn : rest.length < n) :
    Confined (fun bound rounds => linked l.operator? (operands bound) rounds start)
      position rest e :=
  (ho position rest e hn).bind fun x front left after hsplit =>
    hchain (start x) _ left after (by simp [hsplit])

theorem chain_confined (ho : ConfinedBelow n fun bound _ => operands bound) :
    ∀ (size : Nat) (value : Float) (position : Nat) (rest : List Char) (e : Environment),
      rest.length < size → rest.length < n →
      Confined (fun bound rounds => chain l.operator? (operands bound) rounds value)
        position rest e := by
  intro size
  induction size with
  | zero => intro value position rest e h; omega
  | succ size ih =>
    intro value position rest e hs hn
    obtain ⟨operator, mid, hnext⟩ | hend := operator_or_ends l rest
    · have hlt := hnext.length_lt
      refine Confined.skip hnext
        (linked_confined (l := l) ho ?_ (operator.apply value) (by omega)) ?_
      · exact fun value position left e hle => ih value position left e (by omega) (by omega)
      · intro text start tail bound rounds hle _ hb hr hfirst
        have hless := hfirst.length_lt
        obtain ⟨m, rfl⟩ : ∃ m, rounds = m + 1 := Nat.exists_eq_succ_of_ne_zero (by omega)
        exact ⟨bound, m, by omega, by omega, chain_next hle hfirst operator.operator?_char⟩
    · have hdone : Confined (fun _ _ => pure value) (position + (rest.takeWhile isBlank).length)
          (rest.dropWhile isBlank) e :=
        ⟨.ok value, [], _, e, rfl, fun _ _ _ _ _ _ _ _ => rfl⟩
      refine hdone.blanks fun text start bound rounds hle hb hr hhead => ?_
      obtain ⟨m, rfl⟩ : ∃ m, rounds = m + 1 := Nat.exists_eq_succ_of_ne_zero (by omega)
      exact chain_end hle fun c hc => hend c (hhead ▸ hc)

end Chain

section Levels
variable {inners : Nat → Parse Float} (hi : ConfinedBelow n fun bound _ => inners bound)
include hi

theorem linked_confinedBelow (l : Level) :
    ConfinedBelow n fun bound _ => linked l.operator? (inners bound) bound id := by
  intro position rest e hn
  refine (linked_confined hi (fun value position left e hle => ?_) id hn).same_bound
  exact chain_confined hi n value position left e (by omega) (by omega)

theorem term_confined : ConfinedBelow n fun bound _ => termOf (inners bound) bound :=
  linked_confinedBelow hi .factor

theorem expression_confined : ConfinedBelow n fun bound _ => expressionOf (inners bound) bound :=
  linked_confinedBelow (term_confined hi) .term

end Levels

theorem close_confined (position : Nat) (rest : List Char) (e : Environment) :
    Confined (fun _ _ => close) position rest e := by
  obtain ⟨more, hnext⟩ | hmiss := Cursor.next_or_ne (c := ')') rfl rest
  · have hdone : Confined (fun _ _ => pure ()) (position + (rest.length - more.length)) more e :=
      ⟨.ok (), [], _, e, rfl, fun _ _ _ _ _ _ _ _ => rfl⟩
    refine hdone.skip hnext fun text start tail bound rounds hle _ hb hr hfirst => ?_
    have hless := hfirst.length_lt
    exact ⟨bound, rounds, by omega, by omega, close_next hle hfirst⟩
  · refine (confined_failAt .unbalanced _ _ e).blanks fun text start _ _ hle _ _ hhead => ?_
    exact close_fail hle fun c hc => hmiss c (hhead ▸ hc)

/-- The comma behind an argument, if one stands there. -/
theorem skipComma_confined : Confined (fun _ _ => skipComma) position rest e := by
  by_cases hcomma : rest.head? = some ','
  · obtain ⟨left, rfl⟩ := List.head?_eq_some_iff.mp hcomma
    exact ⟨.ok (), [','], left, e, rfl, fun text other _ _ _ hp _ _ =>
      skipComma_next (by rw [hp]; exact Nat.le_add_left _ _)⟩
  · exact ⟨.ok (), [], rest, e, rfl, fun text other _ _ ht _ _ _ =>
      skipComma_miss (head?_of_take ht ▸ hcomma)⟩

section List
variable {runs : Nat → Parse Float} (hx : ConfinedBelow n fun bound _ => runs bound)
  (hs : ∀ bound, Sound evaluate .expression (runs bound))

/-- A run that reads a tree takes at least a character. -/
theorem Concludes.length_pos {l : Level} {value : Float} {front left : List Char}
    {after : Environment}
    (h : Concludes (fun bound _ => runs bound) position e (.ok value) front left after)
    (hs : ∀ bound, Sound evaluate l (runs bound)) : 0 < front.length := by
  have hrun := h (List.replicate position ' ' ++ (front ++ left)) left _ _ rfl (by simp)
    (Nat.lt_succ_self _) (Nat.lt_succ_self _)
  have hlt := (hs _).length_lt (by simp) hrun
  rw [List.length_append] at hlt
  omega

include hx hs

/-- An argument takes at least a character, so the list of arguments ends within its rounds. -/
theorem argumentList_confined :
    ∀ (size position : Nat) (rest : List Char) (e : Environment), rest.length < size →
      rest.length < n →
      Confined (fun bound rounds => argumentList (runs bound) rounds) position rest e := by
  intro size
  induction size with
  | zero => intro position rest e h; omega
  | succ size ih =>
    intro position rest e hsize hn
    have hdrop := rest.length_dropWhile_le isBlank
    cases hstart : (rest.dropWhile isBlank).head?.any Cursor.isOperandStart with
    | false =>
      have hclose := (close_confined (position + (rest.takeWhile isBlank).length)
        (rest.dropWhile isBlank) e).map fun _ => ([] : List Float)
      refine hclose.blanks fun text start bound rounds hle _ hr hhead => ?_
      obtain ⟨m, rfl⟩ : ∃ m, rounds = m + 1 := Nat.exists_eq_succ_of_ne_zero (by omega)
      exact argumentList_end hle (hhead ▸ hstart)
    | true =>
      have hfirst := hx (position + (rest.takeWhile isBlank).length) (rest.dropWhile isBlank) e
        (by omega)
      have hall := hfirst.bind_later (fun bound rounds x => do
          skipComma
          let more ← argumentList (runs bound) rounds
          return x :: more) (· - 1) fun x front left after hsplit hrun => by
        have hpos := hrun.length_pos hs
        have hlen := congrArg List.length hsplit
        rw [List.length_append] at hlen
        refine ⟨fun _ _ hlt => by omega,
          skipComma_confined.bind fun _ comma left' after' hsplit' => ?_⟩
        have hlen' := congrArg List.length hsplit'
        rw [List.length_append] at hlen'
        exact (ih _ left' after' (by omega) (by omega)).map (x :: ·)
      refine hall.blanks fun text start bound rounds hle hb hr hhead => ?_
      obtain ⟨m, rfl⟩ : ∃ m, rounds = m + 1 := Nat.exists_eq_succ_of_ne_zero (by omega)
      exact argumentList_next hle (hhead ▸ hstart)

end List

/-- Blanks in front of a factor do not matter. -/
theorem factor_dropWhile {text : List Char} {bound : Nat} (hr : rest.length ≤ text.length)
    (hb : rest.length < bound) :
    factor evaluate bound (.facing text rest e) =
      factor evaluate bound (.facing text (rest.dropWhile isBlank) e) := by
  obtain ⟨m, rfl⟩ : ∃ m, bound = m + 1 := Nat.exists_eq_succ_of_ne_zero (by omega)
  have hr' := (rest.length_dropWhile_le isBlank).trans hr
  rw [factor_succ]
  cases hstart : (rest.dropWhile isBlank).head?.any Cursor.isOperandStart with
  | false =>
    rw [factorOf_fail hr hstart, factorOf_fail hr' (by simpa using hstart), dropWhile_dropWhile]
  | true =>
    cases Cursor.lead_of_isOperandStart hstart with
    | sign negative more h => rw [factorOf_sign hr h, factorOf_sign hr' (next_dropWhile.mpr h)]
    | group more h => rw [factorOf_group hr h, factorOf_group hr' (next_dropWhile.mpr h)]
    | number n more h => rw [factorOf_number hr h, factorOf_number hr' (next_dropWhile.mpr h)]
    | name n more h => rw [factorOf_name hr h, factorOf_name hr' (next_dropWhile.mpr h)]

/-- A call looks at no text. -/
theorem applied_stopped (evaluate : Evaluator) {meaning : Meaning} (h : isFunction meaning = true)
    (name : String) (values : List Float) (e : Environment) :
    ∃ (outcome : Except Failure Float) (after : Environment), ∀ c : Cursor,
      applied evaluate name meaning values ⟨c, e⟩ = stopped outcome ⟨c, after⟩ := by
  match meaning with
  | .variable _ => simp [isFunction] at h
  | .constant _ => simp [isFunction] at h
  | .unknown => simp [isFunction] at h
  | .custom function =>
    cases hadmits : admits (function.arity.map Int.ofNat) values.length with
    | false => exact ⟨.error _, e, fun c => applied_refused (.inl ⟨_, rfl⟩) hadmits⟩
    | true =>
      refine ⟨(function.call evaluate name values e).1, (function.call evaluate name values e).2,
        fun c => ?_⟩
      rw [applied_custom hadmits]
      cases (function.call evaluate name values e).1 <;> rfl
  | .builtin function =>
    cases hadmits : admits (function.arity.map Int.ofNat) values.length with
    | false => exact ⟨.error _, e, fun c => applied_refused (.inr ⟨_, rfl⟩) hadmits⟩
    | true =>
      refine ⟨(function.apply values).mapError .breakdown, e, fun c => ?_⟩
      rw [applied_builtin hadmits]
      cases function.apply values <;> rfl

section Factor
variable (hi : ConfinedBelow n fun bound _ => factor evaluate bound)
include hi

theorem argumentsOf_confined (position : Nat) (rest : List Char) (e : Environment)
    (hn : rest.length < n) :
    Confined (fun bound _ => argumentsOf (factor evaluate bound) bound) position rest e := by
  obtain ⟨start, hopen⟩ | hbare := Cursor.next_or_ne (c := '(') rfl rest
  · have hlt := hopen.length_lt
    have hlist := argumentList_confined (expression_confined hi)
      (fun bound => expression_sound (factor_sound bound)) n
      (position + (rest.length - start.length)) start e (by omega) (by omega)
    refine hlist.skip hopen fun text start tail bound rounds hle _ hb hr hfirst => ?_
    have hless := hfirst.length_lt
    obtain ⟨m, rfl⟩ : ∃ m, bound = m + 1 := Nat.exists_eq_succ_of_ne_zero (by omega)
    exact ⟨m + 1, m + 1, by omega, by omega, argumentsOf_list hle hfirst⟩
  · have hdrop := rest.length_dropWhile_le isBlank
    have hfactor := hi (position + (rest.takeWhile isBlank).length) (rest.dropWhile isBlank) e
      (by omega)
    refine (hfactor.map fun x => [x]).blanks fun text start bound rounds hle hb hr hhead => ?_
    rw [argumentsOf_bare hle fun c hc => hbare c (hhead ▸ hc)]
    exact bind_congr_left (factor_dropWhile hle hb)

theorem resolve_confined (name : String) (start position : Nat) (rest : List Char) (e : Environment)
    (hn : rest.length < n) :
    Confined
      (fun bound _ => resolve evaluate (argumentsOf (factor evaluate bound) bound) name start)
      position rest e := by
  rcases meaning_cases (e.bindings.meaning name) with ⟨x, hx⟩ | hf | hunknown
  · exact ⟨.ok x, [], rest, e, rfl, fun text other _ _ _ _ _ _ =>
      resolve_held (s := .facing text other e) hx⟩
  · have hcall :=
      (argumentsOf_confined hi position rest e hn).bind fun values front left between _ => by
      obtain ⟨outcome, after, happly⟩ := applied_stopped evaluate hf name values between
      exact ⟨outcome, [], left, after, rfl, fun text other _ _ _ _ _ _ => happly _⟩
    obtain ⟨outcome, front, left, after, rfl, hruns⟩ := hcall
    refine ⟨outcome, front, left, after, rfl, fun text other bound rounds ht hp hb hr => ?_⟩
    exact (resolve_function (s := .facing text (front ++ other) e) hf).trans
      (hruns text other bound rounds ht hp hb hr)
  · exact ⟨.error (.fault (.unknownName name start)), [], rest, e, rfl,
      fun text other _ _ _ _ _ _ => resolve_unknown (s := .facing text other e) hunknown⟩

end Factor

/-- A factor is confined if what it does behind its first token is. -/
theorem factor_skip {runs : Nat → Parse Float} {t : Token} (hn : Next rest t more)
    (h : Confined (fun bound _ => runs bound) (position + (rest.length - more.length)) more e)
    (hstep : ∀ (text start tail : List Char) (bound : Nat), start.length ≤ text.length →
      text.length = position + (rest.length - more.length) + tail.length → Next start t tail →
      factor evaluate (bound + 1) (.facing text start e) = runs bound (.facing text tail e)) :
    Confined (fun bound _ => factor evaluate bound) position rest e := by
  refine h.skip hn fun text start tail bound rounds hle hplace hb hr hfirst => ?_
  have hless := hfirst.length_lt
  obtain ⟨m, rfl⟩ : ∃ m, bound = m + 1 := Nat.exists_eq_succ_of_ne_zero (by omega)
  exact ⟨m, rounds, by omega, by omega, hstep text start tail m hle hplace hfirst⟩

/-- A factor stops with a value or a failure and looks at most three characters further. -/
theorem factor_confined (evaluate : Evaluator) :
    ∀ n, ConfinedBelow n fun bound _ => factor evaluate bound := by
  intro n
  induction n with
  | zero => intro position rest e h; omega
  | succ n ih =>
    intro position rest e hn
    cases hstart : (rest.dropWhile isBlank).head?.any Cursor.isOperandStart with
    | false =>
      refine (confined_failAt .unexpected _ _ e).blanks fun text start bound _ hle hb _ hhead => ?_
      obtain ⟨m, rfl⟩ : ∃ m, bound = m + 1 := Nat.exists_eq_succ_of_ne_zero (by omega)
      exact factorOf_fail hle (hhead ▸ hstart)
    | true =>
      cases Cursor.lead_of_isOperandStart hstart with
      | sign negative more hsign =>
        have hlt := hsign.length_lt
        have hinner := ih (position + (rest.length - more.length)) more e (by omega)
        have hsigned : Confined (fun bound _ => if negative then
            (do let value ← factor evaluate bound; return -value) else factor evaluate bound)
            (position + (rest.length - more.length)) more e := by
          cases negative with
          | false => exact hinner
          | true => exact hinner.map (- ·)
        exact factor_skip hsign hsigned fun text start tail bound hle _ hfirst =>
          factorOf_sign hle hfirst
      | group more hopen =>
        have hlt := hopen.length_lt
        have hinner := expression_confined ih (position + (rest.length - more.length)) more e
          (by omega)
        have hgroup := hinner.bind fun x front left after hsplit =>
          (close_confined _ left after).map fun _ => x
        exact factor_skip hopen hgroup fun text start tail bound hle _ hfirst =>
          factorOf_group hle hfirst
      | number number more hnumber =>
        have hdone : Confined (fun _ _ => pure number.numeral.toFloat)
            (position + (rest.length - more.length)) more e :=
          ⟨.ok _, [], more, e, rfl, fun _ _ _ _ _ _ _ _ => rfl⟩
        exact factor_skip hnumber hdone fun text start tail bound hle _ hfirst =>
          factorOf_number hle hfirst
      | name name more hname =>
        have hlt := hname.length_lt
        -- the name starts in front of what is left by its own length
        have hresolve := resolve_confined ih name.string
          (position + (rest.length - more.length) - name.text.length)
          (position + (rest.length - more.length)) more e (by omega)
        refine factor_skip hname hresolve fun text start tail bound hle hplace hfirst => ?_
        have hstart : text.length - (name.text ++ tail).length =
            position + (rest.length - more.length) - name.text.length := by
          rw [List.length_append]
          omega
        exact hstart ▸ factorOf_name hle hfirst

theorem whole_confined (evaluate : Evaluator) (position : Nat) (rest : List Char)
    (e : Environment) : Confined (fun bound _ => whole evaluate bound) position rest e := by
  have hexpression := expression_confined (factor_confined evaluate (rest.length + 1)) position rest
    e (Nat.lt_succ_self _)
  refine hexpression.bind fun value front left after hsplit => ?_
  cases left with
  | nil =>
    refine ⟨.ok value, [], [], after, rfl, fun text other _ _ ht _ _ _ => ?_⟩
    obtain rfl : other = [] := by simpa using ht
    rfl
  | cons c more =>
    obtain ⟨outcome, front', left, after', hsplit', hruns⟩ :=
      confined_failAt .unexpected (position + front.length) (c :: more) after
    refine ⟨outcome, front', left, after', hsplit',
      fun text other bound rounds ht hp hb hr => ?_⟩
    rw [← hruns text other bound rounds ht hp hb hr]
    have hhead := head?_of_take (take_append_of_take front' ht)
    rw [← hsplit'] at hhead
    obtain ⟨more', hmore⟩ := List.head?_eq_some_iff.mp hhead
    rw [hmore]
    rfl

/-- The state that a run ends in. -/
def finalState : EStateM.Result Halt State α → State
  | .ok _ s => s
  | .error _ s => s

/-- Where the evaluation of a text stands in the end, be it with a value or with a failure. -/
def finalPosition (evaluate : Evaluator) (text : List Char) (e : Environment) : Nat :=
  (finalState (whole evaluate (boundFor text) ⟨.ofText text, e⟩)).cursor.pos

@[simp] theorem finalState_stopped (outcome : Except Failure α) (s : State) :
    finalState (stopped outcome s) = s := by
  cases outcome <;> rfl

/-- The run on a whole text that goes on differently behind the place where it stops. -/
theorem Concludes.whole_eq {outcome : Except Failure Float} {front left other : List Char}
    {after : Environment}
    (h : Concludes (fun bound _ => whole evaluate bound) 0 e outcome front left after)
    (ht : other.take 3 = left.take 3) :
    whole evaluate (boundFor (front ++ other)) (.facing (front ++ other) (front ++ other) e) =
      stopped outcome (.facing (front ++ other) other after) :=
  h (front ++ other) other _ (boundFor (front ++ other)) ht (by simp) (Nat.lt_succ_self _)
    (Nat.lt_succ_self _)

/-- A run on a whole text never exhausts its bounds. -/
theorem whole_stopped (evaluate : Evaluator) (text : List Char) (e : Environment) :
    ∃ outcome s, whole evaluate (boundFor text) (.facing text text e) = stopped outcome s := by
  obtain ⟨outcome, front, left, after, rfl, hruns⟩ := whole_confined evaluate 0 text e
  exact ⟨outcome, _, hruns.whole_eq rfl⟩

/-- A text is evaluated like every other one that agrees with it on three characters more than
where its evaluation stops. -/
theorem evaluateText_near {text other : List Char}
    (h : other.take (finalPosition evaluate text e + 3) =
      text.take (finalPosition evaluate text e + 3)) :
    evaluateText evaluate other e = evaluateText evaluate text e := by
  obtain ⟨outcome, front, left, after, rfl, hruns⟩ := whole_confined evaluate 0 text e
  have hposition : finalPosition evaluate (front ++ left) e = front.length := by
    rw [finalPosition, Cursor.ofText_eq]
    change (finalState (whole evaluate _ (.facing _ _ e))).cursor.pos = _
    rw [hruns.whole_eq rfl, finalState_stopped]
    simp [State.facing, Cursor.facing]
  rw [hposition] at h
  obtain ⟨rest, rfl⟩ : ∃ rest, other = front ++ rest := by
    have hfront := congrArg (List.take front.length) h
    rw [List.take_take, List.take_take, Nat.min_eq_left (Nat.le_add_right _ _),
      List.take_left] at hfront
    have hsplit := (List.take_append_drop front.length other).symm
    rw [hfront] at hsplit
    exact ⟨_, hsplit⟩
  rw [List.take_length_add_append, List.take_length_add_append, List.append_cancel_left_eq] at h
  rw [evaluateText_eq, evaluateText_eq, hruns.whole_eq h, hruns.whole_eq rfl]
  cases outcome <;> rfl

end Expression

open Expression

variable {inner : Evaluator} {precision : Precision} {text other : String} {e : Environment}

/-- An evaluation never depends on text further than three characters behind the place where it
stops: every other text that is the same up to there has the same outcome, after the same calls and
with the same bindings left. -/
theorem evaluateWith_near
    (h : other.toList.take (finalPosition inner text.toList e + 3) =
      text.toList.take (finalPosition inner text.toList e + 3)) :
    evaluateWith inner precision other e = evaluateWith inner precision text e := by
  have hempty : other.isEmpty = text.isEmpty := by
    rw [Bool.eq_iff_iff, String.isEmpty_iff, String.isEmpty_iff, ← String.toList_eq_nil_iff,
      ← String.toList_eq_nil_iff]
    simpa using congrArg (· = []) h
  simp only [evaluateWith, hempty, evaluateText_near h]

/-- An exponent without digits: the number ends in front of its mark, and the text is not looked at
behind the sign. -/
theorem evaluateWith_near_exponent :
    evaluateWith (evaluateWithin .exact 0) (.places 2) "set(4)-2e+x)) y"
        ⟨Bindings.empty.setFunction "set" ⟨Callback.settingVariable "x", some 1⟩, []⟩ =
      evaluateWith (evaluateWithin .exact 0) (.places 2) "set(4)-2e+x"
        ⟨Bindings.empty.setFunction "set" ⟨Callback.settingVariable "x", some 1⟩, []⟩ :=
  evaluateWith_near (by decide +kernel)

end Reckon
