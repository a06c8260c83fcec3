import Reckon.Proofs.Expression.Callee
import Reckon.Proofs.Expression.Soundness
import Reckon.Proofs.Grammar.Response

/-!
# Two evaluations in step

Two evaluations go on in step as long as their texts have the same tokens ahead and what a name
stands for does the same in both. They come to the same value, or fail in the same way at places
that belong together. What makes them go on in step is left open: the same text under other
bindings, or a text that is written in another way.
-/
namespace Reckon

/-- The fault with its position changed, if it has one. -/
def Fault.mapPosition (move : Nat → Nat) : Fault → Fault
  | .unbalanced found position => .unbalanced found (move position)
  | .unexpected found position => .unexpected found (move position)
  | .unknownName name position => .unknownName name (move position)
  | .emptyInput => .emptyInput
  | .argumentCount function expected actual => .argumentCount function expected actual
  | .call function cause => .call function cause

def Failure.mapPosition (move : Nat → Nat) : Failure → Failure
  | .fault f => .fault (f.mapPosition move)
  | .breakdown b => .breakdown b

@[simp] theorem Failure.mapPosition_id : Failure.mapPosition id = id := by
  funext failure
  match failure with
  | .fault f => cases f <;> rfl
  | .breakdown _ => rfl

/-- Under functions whose answers depend on nothing but the arguments, and that raise no fault of
their own, a call has one result, which has no position. -/
theorem Bindings.Respond.callee {b : Bindings} {evaluate : Evaluator}
    {answer : String → List Float → Except Failure Float}
    (h : b.Respond evaluate fun name arguments found => found = answer name arguments)
    (hfaultless : ∀ name arguments fault, answer name arguments ≠ .error (.fault fault))
    {name : String} {callee : Callee} (hm : (b.meaning name).callee? = some callee)
    (values : List Float) :
    ∃ result, (∀ move, result.mapError (Failure.mapPosition move) = result) ∧
      ∀ e : Environment, e.bindings = b →
        ∃ after : Environment, after.bindings = b ∧
          callee.call evaluate name values e = (result, after) := by
  cases ha : callee.takes values with
  | false => exact ⟨_, fun _ => rfl, fun e he => ⟨e, he, Callee.call_refused ha⟩⟩
  | true =>
    simp only [Callee.call_of_takes ha]
    cases callee with
    | builtin function =>
      refine ⟨(function.apply values).mapError .breakdown, fun move => ?_, fun e he => ⟨e, he, rfl⟩⟩
      cases function.apply values <;> rfl
    | custom function =>
      refine ⟨(answer name values).mapError (Failure.inCall name), fun move => ?_, fun e he => ?_⟩
      · cases hanswer : answer name values with
        | ok value => rfl
        | error failure =>
          cases failure with
          | fault fault => exact absurd hanswer (hfaultless name values fault)
          | breakdown cause => rfl
      · obtain ⟨_, more, rfl, hcall⟩ := h.call he (Meaning.eq_custom_of_callee? hm)
          ((Callee.takes_eq_admits ..).symm.trans ha)
        exact ⟨⟨b, more⟩, rfl, hcall⟩

namespace Expression
open Grammar Number
open Text (isBlank)

variable {rest rest' more : List Char} {e e' : Environment}

/-- Two evaluations, and what belongs together in them. -/
structure Pairing where
  evaluate : Evaluator
  other : Evaluator
  text : List Char
  otherText : List Char
  /-- Where a position of the text is found in the other one. -/
  move : Nat → Nat
  /-- Rests of the two texts that the evaluations go on with in step. -/
  Aligned : List Char → List Char → Prop
  Related : Environment → Environment → Prop

namespace Pairing

/-- Both runs succeed with the same value and go on in step, or both fail in the same way. -/
inductive Agree (x : Pairing) {α : Type} :
    EStateM.Result Halt State α → EStateM.Result Halt State α → Prop
  | ok (a : α) {rest rest' : List Char} {e e' : Environment} (h : x.Aligned rest rest')
      (he : x.Related e e') :
      x.Agree (.ok a (.facing x.text rest e)) (.ok a (.facing x.otherText rest' e'))
  | error (failure : Failure) {s s' : State} (he : x.Related s.environment s'.environment) :
      x.Agree (.error (.failed failure) s) (.error (.failed (failure.mapPosition x.move)) s')

/-- Two outcomes that agree. -/
def Alike (x : Pairing) (first second : Outcome) : Prop :=
  second.1 = first.1.mapError (Failure.mapPosition x.move) ∧ x.Related first.2 second.2

/-- What a name stands for in the two evaluations: the same value, or functions with outcomes that
agree whenever they are called in related environments. -/
inductive Matches (x : Pairing) (name : String) : Meaning → Meaning → Prop
  | value {meaning meaning' : Meaning} {value : Float} (h : held meaning = some value)
      (h' : held meaning' = some value) : x.Matches name meaning meaning'
  | call {meaning meaning' : Meaning} {callee callee' : Callee} (h : meaning.callee? = some callee)
      (h' : meaning'.callee? = some callee')
      (hcall : ∀ values e e', x.Related e e' →
        x.Alike (callee.call x.evaluate name values e) (callee'.call x.other name values e')) :
      x.Matches name meaning meaning'
  | unknown : x.Matches name .unknown .unknown

variable {x : Pairing}

/-- A name with the same meaning in both. -/
theorem Matches.same {name : String} {meaning : Meaning}
    (hcall : ∀ callee, meaning.callee? = some callee → ∀ values e e', x.Related e e' →
      x.Alike (callee.call x.evaluate name values e) (callee.call x.other name values e')) :
    x.Matches name meaning meaning := by
  match meaning with
  | .variable _ => exact .value rfl rfl
  | .constant _ => exact .value rfl rfl
  | .custom _ => exact .call rfl rfl (hcall _ rfl)
  | .builtin _ => exact .call rfl rfl (hcall _ rfl)
  | .unknown => exact .unknown

theorem Agree.bind {α β : Type} {p p' : Parse α} {f f' : α → Parse β} {s s' : State}
    (h : x.Agree (p s) (p' s'))
    (hf : ∀ (a : α) (rest rest' : List Char) (e e' : Environment),
      p s = .ok a (.facing x.text rest e) → p' s' = .ok a (.facing x.otherText rest' e') →
      x.Aligned rest rest' → x.Related e e' →
      x.Agree (f a (.facing x.text rest e)) (f' a (.facing x.otherText rest' e'))) :
    x.Agree ((p >>= f) s) ((p' >>= f') s') := by
  generalize hp : p s = result at h
  generalize hp' : p' s' = result' at h
  cases h with
  | ok a h he =>
    rw [bind_ok hp, bind_ok hp']
    exact hf a _ _ _ _ hp hp' h he
  | error failure he =>
    rw [bind_error hp, bind_error hp']
    exact .error failure he

/-- A function of the value is taken in both runs. -/
theorem Agree.map {α β : Type} {p p' : Parse α} {s s' : State} (h : x.Agree (p s) (p' s'))
    (f : α → β) :
    x.Agree ((do let a ← p; return f a : Parse β) s) ((do let a ← p'; return f a : Parse β) s') :=
  h.bind fun a _ _ _ _ _ _ hleft hbetween => .ok (f a) hleft hbetween

/-- The runs agree on all aligned rests within their bounds. -/
def Mirrors (x : Pairing) {α : Type} (bound bound' : Nat) (run run' : Parse α) : Prop :=
  ∀ (rest rest' : List Char) (e e' : Environment), x.Aligned rest rest' →
    rest.length < bound → rest'.length < bound' → x.Related e e' →
    x.Agree (run (.facing x.text rest e)) (run' (.facing x.otherText rest' e'))

/-- The chains agree on all aligned rests within their bounds. -/
def ChainMirrors (x : Pairing) (l : Level) (bound bound' : Nat) (operand operand' : Parse Float)
    (rounds rounds' : Nat) : Prop :=
  ∀ (value : Float) (rest rest' : List Char) (e e' : Environment), x.Aligned rest rest' →
    rest.length < bound → rest'.length < bound' → rest.length < rounds → rest'.length < rounds' →
    x.Related e e' →
    x.Agree (chain l.operator? operand rounds value (.facing x.text rest e))
      (chain l.operator? operand' rounds' value (.facing x.otherText rest' e'))

end Pairing

/-- What two evaluations need to go on in step. -/
structure Lockstep extends Pairing where
  /-- Rests behind an opening parenthesis that are not aligned, but hold parts with the same value
  up to the closing one. -/
  Settled : List Char → List Char → Prop
  length_le : ∀ {rest rest'}, Aligned rest rest' →
    rest.length ≤ text.length ∧ rest'.length ≤ otherText.length
  blanks : ∀ {rest rest'}, Aligned rest rest' →
    Aligned (rest.dropWhile isBlank) (rest'.dropWhile isBlank)
  /-- The same character comes first behind the blanks. -/
  head? : ∀ {rest rest'}, Aligned rest rest' →
    (rest.dropWhile isBlank).head? = (rest'.dropWhile isBlank).head?
  position : ∀ {rest rest'}, Aligned rest rest' → Clear rest → Clear rest' →
    otherText.length - rest'.length = move (text.length - rest.length)
  /-- The same token comes next, and behind it the rests are aligned again or settled. -/
  next : ∀ {rest rest' more t}, Aligned rest rest' → Next rest t more →
    (∃ more', Next rest' t more' ∧ Aligned more more') ∨
      t = .openParen ∧ ∃ more', Next rest' .openParen more' ∧ Settled more more'
  names : ∀ {rest rest' more n e e'}, Aligned rest rest' → Next rest (.name n) more →
    Related e e' →
    toPairing.Matches n.string (e.bindings.meaning n.string) (e'.bindings.meaning n.string)
  settled_group : ∀ {rest rest' bound bound' e e'}, Settled rest rest' → rest.length < bound →
    rest'.length < bound' → Related e e' →
    toPairing.Agree
      ((do let value ← expressionOf (factor evaluate bound) bound; close; return value : Parse Float)
        (.facing text rest e))
      ((do let value ← expressionOf (factor other bound') bound'; close; return value : Parse Float)
        (.facing otherText rest' e'))
  settled_list : ∀ {rest rest' bound bound' e e'}, Settled rest rest' → rest.length < bound →
    rest'.length < bound' → Related e e' →
    toPairing.Agree
      (argumentList (expressionOf (factor evaluate bound) bound) bound (.facing text rest e))
      (argumentList (expressionOf (factor other bound') bound') bound' (.facing otherText rest' e'))

namespace Lockstep
open Pairing

variable {x : Lockstep}

/-- Behind a token other than an opening parenthesis the rests are aligned again. -/
theorem next_of_ne {t : Token} (h : x.Aligned rest rest') (hn : Next rest t more)
    (ht : t ≠ .openParen) : ∃ more', Next rest' t more' ∧ x.Aligned more more' := by
  obtain hnext | ⟨hopen, -⟩ := x.next h hn
  · exact hnext
  · exact absurd hopen ht

/-- A fault at the place behind the blanks where both runs stand. -/
theorem fault_agree {α : Type} (fault : Option Char → Nat → Fault) (s s' : State)
    (h : x.Aligned rest rest')
    (hf : ∀ found position,
      (fault found position).mapPosition x.move = fault found (x.move position))
    (he : x.Related s.environment s'.environment) :
    x.Agree
      (.error (.failed (.fault (fault (rest.dropWhile isBlank).head?
        (x.text.length - (rest.dropWhile isBlank).length)))) s : EStateM.Result Halt State α)
      (.error (.failed (.fault (fault (rest'.dropWhile isBlank).head?
        (x.otherText.length - (rest'.dropWhile isBlank).length)))) s') := by
  have hplace := x.position (x.blanks h) (clear_dropWhile rest) (clear_dropWhile rest')
  rw [← x.head? h, hplace, ← hf]
  exact .error (.fault _) he

theorem ends_iff {operator? : Char → Option (Float → Float → Float)} (h : x.Aligned rest rest') :
    Ends operator? rest ↔ Ends operator? rest' := by
  rw [Ends, Ends, x.head? h]

theorem close_agree (h : x.Aligned rest rest') (he : x.Related e e') :
    x.Agree ((close : Parse Unit) (.facing x.text rest e))
      ((close : Parse Unit) (.facing x.otherText rest' e')) := by
  obtain ⟨hr, hr'⟩ := x.length_le h
  obtain ⟨more, hclose⟩ | hmiss := Cursor.next_or_ne (c := ')') rfl rest
  · obtain ⟨more', hclose', hmore⟩ := next_of_ne h hclose fun ht =>
      absurd (Token.mark.inj ht) (by decide)
    rw [close_next hr hclose, close_next hr' hclose']
    exact .ok () hmore he
  · rw [close_fail hr hmiss, close_fail hr' (x.head? h ▸ hmiss)]
    exact fault_agree .unbalanced _ _ h (fun _ _ => rfl) he

section Chain
variable {l : Level} {operand operand' : Parse Float} {bound bound' rounds rounds' : Nat}
  (hm : x.Mirrors bound bound' operand operand') (hs : Sound x.evaluate l operand)
  (hs' : Sound x.other l operand')
include hm hs hs'

theorem linked_agree (hchain : x.ChainMirrors l bound bound' operand operand' rounds rounds')
    (start : Float → Float) (h : x.Aligned rest rest') (hb : rest.length < bound)
    (hb' : rest'.length < bound') (hrounds : rest.length ≤ rounds)
    (hrounds' : rest'.length ≤ rounds') (he : x.Related e e') :
    x.Agree (linked l.operator? operand rounds start (.facing x.text rest e))
      (linked l.operator? operand' rounds' start (.facing x.otherText rest' e')) := by
  obtain ⟨hr, hr'⟩ := x.length_le h
  refine (hm rest rest' e e' h hb hb' he).bind ?_
  intro value left left' between between' hrun hrun' hleft hbetween
  have hless := hs.length_lt hr hrun
  have hless' := hs'.length_lt hr' hrun'
  exact hchain _ left left' between between' hleft (by omega) (by omega) (by omega) (by omega)
    hbetween

theorem chain_mirrors :
    ∀ rounds rounds', x.ChainMirrors l bound bound' operand operand' rounds rounds' := by
  intro rounds
  induction rounds with
  | zero => intro rounds' value rest rest' e e' _ _ _ h; omega
  | succ rounds ih =>
    intro rounds' value rest rest' e e' h hb hb' hrounds hrounds' he
    obtain ⟨rounds', rfl⟩ : ∃ n, rounds' = n + 1 := Nat.exists_eq_succ_of_ne_zero (by omega)
    obtain ⟨hr, hr'⟩ := x.length_le h
    obtain ⟨operator, mid, hnext⟩ | hend := operator_or_ends l rest
    · obtain ⟨mid', hnext', hmid⟩ := next_of_ne h hnext operator.token_ne_openParen
      have hlt := hnext.length_lt
      have hlt' := hnext'.length_lt
      rw [chain_next hr hnext operator.operator?_char, chain_next hr' hnext' operator.operator?_char]
      exact linked_agree hm hs hs' (ih rounds') _ hmid (by omega) (by omega) (by omega) (by omega) he
    · rw [chain_end hr hend, chain_end hr' ((ends_iff h).mp hend)]
      exact .ok value (x.blanks h) he

end Chain

section Levels
variable {inner inner' : Parse Float} {bound bound' : Nat}
  (hm : x.Mirrors bound bound' inner inner') (hs : Sound x.evaluate .factor inner)
  (hs' : Sound x.other .factor inner')
include hm hs hs'

theorem term_mirrors : x.Mirrors bound bound' (termOf inner bound) (termOf inner' bound') := by
  intro rest rest' e e' h hb hb' he
  rw [termOf_eq, termOf_eq]
  exact linked_agree hm hs hs' (chain_mirrors hm hs hs' bound bound') id h hb hb' hb.le hb'.le he

theorem expression_mirrors :
    x.Mirrors bound bound' (expressionOf inner bound) (expressionOf inner' bound') := by
  intro rest rest' e e' h hb hb' he
  have ht := term_mirrors hm hs hs'
  have hterm : Sound x.evaluate .term (termOf inner bound) := term_sound hs
  have hterm' : Sound x.other .term (termOf inner' bound') := term_sound hs'
  rw [expressionOf_eq, expressionOf_eq]
  exact linked_agree ht hterm hterm' (chain_mirrors ht hterm hterm' bound bound') id h hb hb' hb.le
    hb'.le he

end Levels

/-- Behind a comma, or where none stands, the two rests are aligned again. Both stand behind the
blanks, so that a comma is under both cursors or under none. -/
theorem skipComma_agree (h : x.Aligned rest rest') (hc : Clear rest) (hc' : Clear rest')
    (he : x.Related e e') :
    x.Agree ((skipComma : Parse Unit) (.facing x.text rest e))
      ((skipComma : Parse Unit) (.facing x.otherText rest' e')) := by
  obtain ⟨hr, hr'⟩ := x.length_le h
  have hhead := x.head? h
  rw [hc, hc'] at hhead
  by_cases hcomma : rest.head? = some ','
  · obtain ⟨next, rfl⟩ := List.head?_eq_some_iff.mp hcomma
    obtain ⟨next', rfl⟩ := List.head?_eq_some_iff.mp (hhead.symm.trans hcomma)
    have hn : Next (',' :: next) .comma next := ⟨rfl, trivial⟩
    obtain ⟨left, ⟨htail, -⟩, hnext⟩ := next_of_ne h hn fun ht =>
      absurd (Token.mark.inj ht) (by decide)
    obtain rfl : next' = left := (List.cons.inj htail).2
    rw [skipComma_next hr, skipComma_next hr']
    exact .ok () hnext he
  · rw [skipComma_miss hcomma, skipComma_miss (hhead ▸ hcomma)]
    exact .ok () h he

theorem argumentList_mirrors {run run' : Parse Float} {bound bound' : Nat}
    (hm : x.Mirrors bound bound' run run') (hs : Sound x.evaluate .expression run)
    (hs' : Sound x.other .expression run') :
    ∀ (rounds rounds' : Nat) (rest rest' : List Char) (e e' : Environment),
      x.Aligned rest rest' → rest.length < bound → rest'.length < bound' →
      rest.length < rounds → rest'.length < rounds' → x.Related e e' →
      x.Agree (argumentList run rounds (.facing x.text rest e))
        (argumentList run' rounds' (.facing x.otherText rest' e')) := by
  intro rounds
  induction rounds with
  | zero => intro rounds' rest rest' e e' _ _ _ h; omega
  | succ rounds ih =>
    intro rounds' rest rest' e e' h hb hb' hrounds hrounds' he
    obtain ⟨rounds', rfl⟩ : ∃ n, rounds' = n + 1 := Nat.exists_eq_succ_of_ne_zero (by omega)
    obtain ⟨hr, hr'⟩ := x.length_le h
    have hdrop := rest.length_dropWhile_le isBlank
    have hdrop' := rest'.length_dropWhile_le isBlank
    cases hstart : (rest.dropWhile isBlank).head?.any Cursor.isOperandStart with
    | false =>
      rw [argumentList_end hr hstart, argumentList_end hr' (x.head? h ▸ hstart)]
      exact (close_agree (x.blanks h) he).map fun _ => []
    | true =>
      rw [argumentList_next hr hstart, argumentList_next hr' (x.head? h ▸ hstart)]
      refine (hm _ _ e e' (x.blanks h) (by omega) (by omega) he).bind ?_
      intro value mid mid' between between' hrun hrun' hmid hbetween
      have hless := hs.length_lt (by omega) hrun
      have hless' := hs'.length_lt (by omega) hrun'
      have hc := hs.clear (by omega) hrun
      have hc' := hs'.clear (by omega) hrun'
      refine (skipComma_agree hmid hc hc' hbetween).bind ?_
      intro _ next next' last last' hskip hskip' hnext hlast
      have hle := skipComma_length_le hskip
      have hle' := skipComma_length_le hskip'
      exact (ih rounds' next next' last last' hnext (by omega) (by omega) (by omega) (by omega)
        hlast).map (value :: ·)

theorem argumentsOf_mirrors {bound bound' : Nat}
    (hm : x.Mirrors bound bound' (factor x.evaluate bound) (factor x.other bound')) :
    x.Mirrors bound bound' (argumentsOf (factor x.evaluate bound) bound)
      (argumentsOf (factor x.other bound') bound') := by
  intro rest rest' e e' h hb hb' he
  have hs : Sound x.evaluate .factor (factor x.evaluate bound) := factor_sound bound
  have hs' : Sound x.other .factor (factor x.other bound') := factor_sound bound'
  obtain ⟨hr, hr'⟩ := x.length_le h
  obtain ⟨more, hopen⟩ | hbare := Cursor.next_or_ne (c := '(') rfl rest
  · have hlt := hopen.length_lt
    obtain ⟨rounds, rfl⟩ : ∃ n, bound = n + 1 := Nat.exists_eq_succ_of_ne_zero (by omega)
    obtain ⟨rounds', rfl⟩ : ∃ n, bound' = n + 1 := Nat.exists_eq_succ_of_ne_zero (by omega)
    rw [argumentsOf_list hr hopen]
    obtain ⟨more', hopen', hmore⟩ | ⟨-, more', hopen', hmore⟩ := x.next h hopen
    · have hlt' := hopen'.length_lt
      rw [argumentsOf_list hr' hopen']
      exact argumentList_mirrors (expression_mirrors hm hs hs') (expression_sound hs)
        (expression_sound hs') _ _ more more' e e' hmore (by omega) (by omega) (by omega) (by omega)
        he
    · have hlt' := hopen'.length_lt
      rw [argumentsOf_list hr' hopen']
      exact x.settled_list hmore (by omega) (by omega) he
  · rw [argumentsOf_bare hr hbare, argumentsOf_bare hr' (x.head? h ▸ hbare)]
    exact (hm rest rest' e e' h hb hb' he).map fun value => [value]

theorem isFunction_of_callee? {meaning : Meaning} {callee : Callee}
    (h : meaning.callee? = some callee) : isFunction meaning = true := by
  match meaning with
  | .custom _ => rfl
  | .builtin _ => rfl
  | .variable _ => simp [Meaning.callee?] at h
  | .constant _ => simp [Meaning.callee?] at h
  | .unknown => simp [Meaning.callee?] at h

theorem lift_agree {first second : Outcome} (h : x.Alike first second)
    (hr : x.Aligned rest rest') :
    x.Agree (lift first.1 (.facing x.text rest first.2))
      (lift second.1 (.facing x.otherText rest' second.2)) := by
  obtain ⟨first, after⟩ := first
  obtain ⟨second, after'⟩ := second
  obtain ⟨rfl, he⟩ := h
  cases first with
  | ok value => exact .ok value hr he
  | error failure => exact .error failure he

theorem resolve_agree {arguments arguments' : Parse (List Float)} {name : String}
    {start start' bound bound' : Nat} (hm : x.Mirrors bound bound' arguments arguments')
    (h : x.Aligned rest rest') (hb : rest.length < bound) (hb' : rest'.length < bound')
    (he : x.Related e e')
    (hname : x.Matches name (e.bindings.meaning name) (e'.bindings.meaning name))
    (hstart : start' = x.move start) :
    x.Agree (resolve x.evaluate arguments name start (.facing x.text rest e))
      (resolve x.other arguments' name start' (.facing x.otherText rest' e')) := by
  have hmeaning : (State.facing x.text rest e).environment.bindings.meaning name =
      e.bindings.meaning name := rfl
  have hmeaning' : (State.facing x.otherText rest' e').environment.bindings.meaning name =
      e'.bindings.meaning name := rfl
  generalize e.bindings.meaning name = meaning at hname hmeaning
  generalize e'.bindings.meaning name = meaning' at hname hmeaning'
  cases hname with
  | @value _ _ value hv hv' =>
    rw [resolve_held (hmeaning.symm ▸ hv), resolve_held (hmeaning'.symm ▸ hv')]
    exact .ok value h he
  | call hk hk' hcall =>
    rw [resolve_function (hmeaning.symm ▸ isFunction_of_callee? hk),
      resolve_function (hmeaning'.symm ▸ isFunction_of_callee? hk'), hmeaning, hmeaning']
    refine (hm rest rest' e e' h hb hb' he).bind ?_
    intro values left left' between between' _ _ hleft hbetween
    rw [applied_eq_call hk, applied_eq_call hk']
    exact lift_agree (hcall values between between' hbetween) hleft
  | unknown =>
    rw [resolve_unknown hmeaning, resolve_unknown hmeaning', hstart]
    exact .error (.fault (.unknownName name start)) he

theorem factor_mirrors (x : Lockstep) :
    ∀ bound bound', x.Mirrors bound bound' (factor x.evaluate bound) (factor x.other bound') := by
  -- the texts may differ in length, so each run has a bound of its own; both go down together
  intro bound
  induction bound with
  | zero => intro bound' rest rest' e e' _ h; omega
  | succ bound ih =>
    intro bound' rest rest' e e' h hb hb' he
    obtain ⟨bound', rfl⟩ : ∃ n, bound' = n + 1 := Nat.exists_eq_succ_of_ne_zero (by omega)
    obtain ⟨hr, hr'⟩ := x.length_le h
    have hs : Sound x.evaluate .factor (factor x.evaluate bound) := factor_sound bound
    have hs' : Sound x.other .factor (factor x.other bound') := factor_sound bound'
    rw [factor_succ, factor_succ]
    cases hstart : (rest.dropWhile isBlank).head?.any Cursor.isOperandStart with
    | false =>
      rw [factorOf_fail hr hstart, factorOf_fail hr' (x.head? h ▸ hstart)]
      exact fault_agree .unexpected _ _ h (fun _ _ => rfl) he
    | true =>
      cases Cursor.lead_of_isOperandStart hstart with
      | sign negative mid hsign =>
        obtain ⟨mid', hsign', hmid⟩ := next_of_ne h hsign fun ht => by
          cases negative <;> exact absurd (Token.mark.inj ht) (by decide)
        have hlt := hsign.length_lt
        have hlt' := hsign'.length_lt
        have hinner := ih bound' mid mid' e e' hmid (by omega) (by omega) he
        rw [factorOf_sign hr hsign, factorOf_sign hr' hsign']
        cases negative with
        | false => exact hinner
        | true => exact hinner.map (- ·)
      | group mid hopen =>
        have hlt := hopen.length_lt
        rw [factorOf_group hr hopen]
        obtain ⟨mid', hopen', hmid⟩ | ⟨-, mid', hopen', hmid⟩ := x.next h hopen
        · have hlt' := hopen'.length_lt
          rw [factorOf_group hr' hopen']
          refine (expression_mirrors (ih bound') hs hs' mid mid' e e' hmid (by omega) (by omega)
            he).bind ?_
          intro value left left' between between' _ _ hleft hbetween
          exact (close_agree hleft hbetween).map fun _ => value
        · have hlt' := hopen'.length_lt
          rw [factorOf_group hr' hopen']
          exact x.settled_group hmid (by omega) (by omega) he
      | number n mid hnumber =>
        obtain ⟨mid', hnumber', hmid⟩ := next_of_ne h hnumber (by rintro ⟨⟩)
        rw [factorOf_number hr hnumber, factorOf_number hr' hnumber']
        exact .ok _ hmid he
      | name n mid hname =>
        obtain ⟨mid', hname', hmid⟩ := next_of_ne h hname (by rintro ⟨⟩)
        have hlt := hname.length_lt
        have hlt' := hname'.length_lt
        have hplace := x.position (x.blanks h) (clear_dropWhile rest) (clear_dropWhile rest')
        rw [hname.1, hname'.1] at hplace
        rw [factorOf_name hr hname, factorOf_name hr' hname']
        exact resolve_agree (argumentsOf_mirrors (ih bound')) hmid (by omega) (by omega) he
          (x.names h hname he) hplace

theorem whole_agree {bound bound' : Nat} (h : x.Aligned rest rest') (hb : rest.length < bound)
    (hb' : rest'.length < bound') (he : x.Related e e') :
    x.Agree (whole x.evaluate bound (.facing x.text rest e))
      (whole x.other bound' (.facing x.otherText rest' e')) := by
  have hs : Sound x.evaluate .expression (expression x.evaluate bound) :=
    expression_sound (factor_sound bound)
  have hs' : Sound x.other .expression (expression x.other bound') :=
    expression_sound (factor_sound bound')
  have hx := expression_mirrors (x.factor_mirrors bound bound') (factor_sound bound)
    (factor_sound bound')
  obtain ⟨hr, hr'⟩ := x.length_le h
  refine (hx rest rest' e e' h hb hb' he).bind ?_
  intro value left left' between between' hrun hrun' hleft hbetween
  have hc := hs.clear hr hrun
  have hc' := hs'.clear hr' hrun'
  have hhead := x.head? hleft
  rw [hc, hc'] at hhead
  cases left with
  | nil =>
    obtain rfl : left' = [] := by simpa using hhead.symm
    exact .ok value hleft hbetween
  | cons c tail =>
    obtain ⟨tail', rfl⟩ := List.head?_eq_some_iff.mp (hhead.symm.trans List.head?_cons)
    have hfault := fault_agree (α := Float) .unexpected (.facing x.text (c :: tail) between)
      (.facing x.otherText (c :: tail') between') hleft (fun _ _ => rfl) hbetween
    rw [hc, hc'] at hfault
    exact hfault

/-- Evaluations in step have outcomes that agree. -/
theorem evaluateText_alike (x : Lockstep) (h : x.Aligned x.text x.otherText) (he : x.Related e e') :
    x.Alike (evaluateText x.evaluate x.text e) (evaluateText x.other x.otherText e') := by
  have hwhole := whole_agree (x := x) h (Nat.lt_succ_self _) (Nat.lt_succ_self _) he
  rw [evaluateText_eq, evaluateText_eq]
  generalize hfirst : whole x.evaluate (boundFor x.text) _ = result
  generalize hsecond : whole x.other (boundFor x.otherText) _ = result'
  have hagree : x.Agree result result' := hfirst ▸ hsecond ▸ hwhole
  cases hagree with
  | ok value _ he => exact ⟨rfl, he⟩
  | error failure he => exact ⟨rfl, he⟩

/-- The values are rounded in the same way, and where that fails there is no position. -/
theorem evaluateWith_alike (x : Lockstep) (e e' : Environment) (precision : Precision)
    {expression other : String} (hne : expression ≠ "") (hne' : other ≠ "")
    (htext : expression.toList = x.text) (htext' : other.toList = x.otherText)
    (h : x.Aligned x.text x.otherText) (he : x.Related e e') :
    x.Alike (evaluateWith x.evaluate precision expression e)
      (evaluateWith x.other precision other e') := by
  obtain ⟨hresult, hafter⟩ := x.evaluateText_alike h he
  have hempty : expression.isEmpty = false := by simpa using hne
  have hempty' : other.isEmpty = false := by simpa using hne'
  simp only [evaluateWith, hempty, hempty', Bool.false_eq_true, if_false, htext, htext']
  refine ⟨?_, hafter⟩
  rw [hresult]
  cases (evaluateText x.evaluate x.text e).1 with
  | error failure => rfl
  | ok value =>
    cases hround : precision.round value with
    | error cause => simp [Except.bind, Except.mapError, hround, Failure.mapPosition]
    | ok rounded => simp [Except.bind, Except.mapError, hround]

end Lockstep

section SameText
variable (evaluate other : Evaluator) (text : List Char) (Related : Environment → Environment → Prop)

/-- Evaluations of one text that stand at the same place. -/
def Pairing.sameText : Pairing where
  evaluate := evaluate
  other := other
  text := text
  otherText := text
  move := id
  Aligned rest rest' := rest' = rest ∧ rest <:+ text
  Related := Related

variable {evaluate other text Related}

theorem Pairing.alike_sameText {first second : Outcome} :
    (Pairing.sameText evaluate other text Related).Alike first second ↔
      second.1 = first.1 ∧ Related first.2 second.2 := by
  have hid : first.1.mapError (Failure.mapPosition id) = first.1 := by
    cases first.1 <;> simp [Except.mapError]
  simp only [Alike, sameText, hid]

/-- Evaluations of one text go on in step if every name in it does the same in both. -/
def Lockstep.sameText
    (names : ∀ name : String, name.toList <:+: text → ∀ e e', Related e e' →
      (Pairing.sameText evaluate other text Related).Matches name (e.bindings.meaning name)
        (e'.bindings.meaning name)) : Lockstep where
  toPairing := .sameText evaluate other text Related
  Settled _ _ := False
  length_le := by
    rintro _ rest ⟨rfl, h⟩
    exact ⟨h.length_le, h.length_le⟩
  blanks := by
    rintro _ rest ⟨rfl, h⟩
    exact ⟨rfl, (List.dropWhile_suffix _).trans h⟩
  head? := by
    rintro _ rest ⟨rfl, -⟩
    rfl
  position := by
    rintro _ rest ⟨rfl, -⟩ - -
    rfl
  next := by
    rintro _ rest more t ⟨rfl, h⟩ hn
    exact .inl ⟨more, hn, rfl, hn.suffix.trans h⟩
  names := by
    rintro _ rest more n e e' ⟨rfl, h⟩ hn he
    refine names n.string ?_ e e' he
    have htext : n.string.toList = n.text := String.toList_ofList
    have hname : n.text <:+: rest.dropWhile isBlank := hn.1 ▸ (List.prefix_append _ _).isInfix
    exact htext ▸ (hname.trans (List.dropWhile_suffix _).isInfix).trans h.isInfix
  settled_group := False.elim
  settled_list := False.elim

end SameText

end Expression

end Reckon
