import Reckon.Calculator
import Reckon.Proofs.Grammar.Tree

/-!
# What functions answer in a tree

Where every custom function leaves the bindings as they are, so does every tree, and each name
keeps its meaning until the end. Where the answers depend on nothing but the arguments, the value
of a tree depends on neither the calls made before nor the evaluator that callbacks are given.
-/
namespace Reckon
open Grammar

variable {evaluate other : Evaluator} {b : Bindings} {e after : Environment}
  {described : String → List Float → Except Failure Float → Prop}

/-- Called with as many arguments as it takes, every function leaves the bindings as they are and
gives an answer of the kind described. -/
def Bindings.Respond (b : Bindings) (evaluate : Evaluator)
    (described : String → List Float → Except Failure Float → Prop) : Prop :=
  ∀ (name : String) (function : CustomFunction), b.functions.get? name = some function →
    ∀ arguments : List Float, admits (function.arity.map Int.ofNat) arguments.length = true →
    ∀ calls : List Call, ∃ (answer : Except Failure Float) (more : List Call),
      described name arguments answer ∧
      (function.callback arguments).perform evaluate ⟨b, calls⟩ = (answer, ⟨b, more⟩)

/-- Every function leaves the bindings as they are and answers with a number. -/
def Bindings.Total (b : Bindings) (evaluate : Evaluator) : Prop :=
  b.Respond evaluate fun _ _ found => ∃ value, found = .ok value

/-- All functions of a table with a single entry are that entry. -/
theorem Bindings.eq_of_get?_setFunction {name other : String} {function found : CustomFunction}
    (h : (Bindings.empty.setFunction name function).functions.get? other = some found) :
    found = function := by
  simp only [Bindings.setFunction, Bindings.empty, Table.get?_put] at h
  split at h
  · exact (Option.some.inj h).symm
  · simp at h

theorem Bindings.builtin?_of_meaning {name : String} {function : Builtin}
    (h : b.meaning name = .builtin function) : Builtin.builtin? name = some function := by
  simp only [Bindings.meaning] at h
  split at h
  · simp at h
  · split at h
    · simp at h
    · simp only [builtinMeaning] at h
      split at h
      · simp at h
      · split at h
        · next hf =>
          obtain rfl := Meaning.builtin.inj h
          exact hf
        · simp at h

/-- The outcome of a call, which is recorded before it is made. -/
theorem Bindings.Respond.call (h : b.Respond evaluate described) (he : e.bindings = b)
    {name : String} {function : CustomFunction} {arguments : List Float}
    (hm : b.meaning name = .custom function)
    (ha : admits (function.arity.map Int.ofNat) arguments.length = true) :
    ∃ (answer : Except Failure Float) (more : List Call), described name arguments answer ∧
      function.call evaluate name arguments e =
        (answer.mapError (Failure.inCall name), ⟨b, more⟩) := by
  obtain ⟨bindings, calls⟩ := e
  obtain rfl : bindings = b := he
  obtain ⟨answer, more, hanswer, hperform⟩ :=
    h name function (Bindings.get?_of_meaning hm) arguments ha
      (calls ++ [⟨name, function, arguments⟩])
  refine ⟨answer, more, hanswer, ?_⟩
  simp only [CustomFunction.call, Environment.record, hperform]

namespace Grammar

/-- A name that is called successfully is a function that takes so many arguments. -/
theorem called_eq_some {name : String} {meaning : Meaning} {values : List Float} {value : Float} :
    called evaluate name meaning values e = some (value, after) ↔
      (∃ function, meaning = .custom function ∧
        admits (function.arity.map Int.ofNat) values.length = true ∧
        function.call evaluate name values e = (.ok value, after)) ∨
      (∃ function, meaning = .builtin function ∧
        admits (function.arity.map Int.ofNat) values.length = true ∧
        function.apply values = .ok value ∧ e = after) := by
  match meaning with
  | .variable _ => simp [called]
  | .constant _ => simp [called]
  | .unknown => simp [called]
  | .custom function =>
    simp only [called, accepts_iff_admits, CustomFunction.call]
    split
    · next ha =>
      rcases hcall : (function.callback values).perform evaluate (e.record ⟨name, function, values⟩)
        with ⟨_ | _, _⟩ <;> simp [ha, hcall, Except.mapError]
    · next ha => simp [ha]
  | .builtin function =>
    simp only [called, accepts_iff_admits]
    split
    · next ha =>
      rcases happly : function.apply values with _ | x
      · simp [happly]
      · simp [ha, happly, and_comm]
    · next ha => simp [ha]

theorem called_bindings (h : b.Respond evaluate described) (he : e.bindings = b) {name : String}
    {values : List Float} {value : Float}
    (hc : called evaluate name (b.meaning name) values e = some (value, after)) :
    after.bindings = b := by
  rcases called_eq_some.mp hc with ⟨function, hm, ha, hcall⟩ | ⟨function, -, -, -, rfl⟩
  · obtain ⟨answer, more, -, hanswer⟩ := h.call he hm ha
    obtain ⟨-, rfl⟩ := Prod.mk.inj (hanswer.symm.trans hcall)
    rfl
  · exact he

section Related
variable {Related : Environment → Environment → Prop}

/-- Calls of what a name stands for succeed alike in related environments. -/
def CallsRelated (evaluate other : Evaluator) (b : Bindings)
    (Related : Environment → Environment → Prop) : Prop :=
  ∀ (name : String) (values : List Float) (e e' after : Environment) (value : Float), Related e e' →
    called evaluate name (b.meaning name) values e = some (value, after) →
    ∃ after', called other name (b.meaning name) values e' = some (value, after') ∧
      Related after after'

mutual

/-- If calls succeed alike in related environments, so does every tree. -/
theorem Tree.eval_related (hb : ∀ e e', Related e e' → e.bindings = b ∧ e'.bindings = b)
    (hc : CallsRelated evaluate other b Related) :
    ∀ {l : Level} (t : Tree l) {e e' after : Environment} {value : Float}, Related e e' →
      t.eval evaluate e = some (value, after) →
      ∃ after', t.eval other e' = some (value, after') ∧ Related after after'
  | _, .signed negative inner, e, e', after, value, hr, hv => by
    simp only [Tree.eval, Option.bind_eq_bind, Option.bind_eq_some_iff, Prod.exists] at hv ⊢
    obtain ⟨x, between, hx, hdone⟩ := hv
    obtain ⟨rfl, rfl⟩ := Prod.mk.inj (Option.some.inj hdone)
    obtain ⟨after', hx', hr'⟩ := inner.eval_related hb hc hr hx
    exact ⟨after', ⟨x, after', hx', rfl⟩, hr'⟩
  | _, .group inner, e, e', after, value, hr, hv => inner.eval_related hb hc hr hv
  | _, .value name, e, e', after, value, hr, hv => by
    simp only [Tree.eval, resolved_eq_meaning, (hb e e' hr).1, (hb e e' hr).2, Option.bind_eq_bind,
      Option.bind_eq_some_iff] at hv ⊢
    obtain ⟨x, hx, hdone⟩ := hv
    obtain ⟨rfl, rfl⟩ := Prod.mk.inj (Option.some.inj hdone)
    exact ⟨e', ⟨x, hx, rfl⟩, hr⟩
  | _, .literal number nearest h, e, e', after, value, hr, hv => by
    obtain ⟨rfl, rfl⟩ := Prod.mk.inj (Option.some.inj hv)
    exact ⟨e', rfl, hr⟩
  | _, .call name arguments, e, e', after, value, hr, hv => by
    simp only [Tree.eval, resolved_eq_meaning, (hb e e' hr).1, (hb e e' hr).2, Option.bind_eq_bind,
      Option.bind_eq_some_iff, Prod.exists] at hv ⊢
    obtain ⟨values, between, hvalues, hcall⟩ := hv
    obtain ⟨between', hvalues', hr'⟩ := arguments.eval_related hb hc hr hvalues
    obtain ⟨after', hcall', hr''⟩ := hc _ _ _ _ _ _ hr' hcall
    exact ⟨after', ⟨values, between', hvalues', hcall'⟩, hr''⟩
  | _, .bare name argument, e, e', after, value, hr, hv => by
    simp only [Tree.eval, resolved_eq_meaning, (hb e e' hr).1, (hb e e' hr).2, Option.bind_eq_bind,
      Option.bind_eq_some_iff, Prod.exists] at hv ⊢
    obtain ⟨x, between, hx, hcall⟩ := hv
    obtain ⟨between', hx', hr'⟩ := argument.eval_related hb hc hr hx
    obtain ⟨after', hcall', hr''⟩ := hc _ _ _ _ _ _ hr' hcall
    exact ⟨after', ⟨x, between', hx', hcall'⟩, hr''⟩
  | _, .term first others, e, e', after, value, hr, hv => by
    simp only [Tree.eval, Option.bind_eq_bind, Option.bind_eq_some_iff, Prod.exists] at hv ⊢
    obtain ⟨x, between, hx, hrest⟩ := hv
    obtain ⟨between', hx', hr'⟩ := first.eval_related hb hc hr hx
    obtain ⟨after', hrest', hr''⟩ := others.eval_related hb hc hr' hrest
    exact ⟨after', ⟨x, between', hx', hrest'⟩, hr''⟩
  | _, .expression first others, e, e', after, value, hr, hv => by
    simp only [Tree.eval, Option.bind_eq_bind, Option.bind_eq_some_iff, Prod.exists] at hv ⊢
    obtain ⟨x, between, hx, hrest⟩ := hv
    obtain ⟨between', hx', hr'⟩ := first.eval_related hb hc hr hx
    obtain ⟨after', hrest', hr''⟩ := others.eval_related hb hc hr' hrest
    exact ⟨after', ⟨x, between', hx', hrest'⟩, hr''⟩

theorem Tail.eval_related (hb : ∀ e e', Related e e' → e.bindings = b ∧ e'.bindings = b)
    (hc : CallsRelated evaluate other b Related) :
    ∀ {l : Level} (tail : Tail l) {e e' after : Environment} {value result : Float}, Related e e' →
      tail.eval evaluate value e = some (result, after) →
      ∃ after', tail.eval other value e' = some (result, after') ∧ Related after after'
  | _, .nil, e, e', after, value, result, hr, hv => by
    obtain ⟨rfl, rfl⟩ := Prod.mk.inj (Option.some.inj hv)
    exact ⟨e', rfl, hr⟩
  | _, .cons operator next others, e, e', after, value, result, hr, hv => by
    simp only [Tail.eval, Option.bind_eq_bind, Option.bind_eq_some_iff, Prod.exists] at hv ⊢
    obtain ⟨x, between, hx, hrest⟩ := hv
    obtain ⟨between', hx', hr'⟩ := next.eval_related hb hc hr hx
    obtain ⟨after', hrest', hr''⟩ := others.eval_related hb hc hr' hrest
    exact ⟨after', ⟨x, between', hx', hrest'⟩, hr''⟩

theorem Arguments.eval_related (hb : ∀ e e', Related e e' → e.bindings = b ∧ e'.bindings = b)
    (hc : CallsRelated evaluate other b Related) :
    ∀ (arguments : Arguments) {e e' after : Environment} {values : List Float}, Related e e' →
      arguments.eval evaluate e = some (values, after) →
      ∃ after', arguments.eval other e' = some (values, after') ∧ Related after after'
  | .nil, e, e', after, values, hr, hv => by
    obtain ⟨rfl, rfl⟩ := Prod.mk.inj (Option.some.inj hv)
    exact ⟨e', rfl, hr⟩
  | .cons first comma others, e, e', after, values, hr, hv => by
    simp only [Arguments.eval, Option.bind_eq_bind, Option.bind_eq_some_iff, Prod.exists] at hv ⊢
    obtain ⟨x, between, hx, xs, last, hxs, hdone⟩ := hv
    obtain ⟨rfl, rfl⟩ := Prod.mk.inj (Option.some.inj hdone)
    obtain ⟨between', hx', hr'⟩ := first.eval_related hb hc hr hx
    obtain ⟨last', hxs', hr''⟩ := others.eval_related hb hc hr' hxs
    exact ⟨last', ⟨x, between', hx', xs, last', hxs', rfl⟩, hr''⟩

end

end Related

/-- No tree changes the bindings. -/
theorem Tree.eval_bindings (h : b.Respond evaluate described) {l : Level} (t : Tree l)
    (he : e.bindings = b) {value : Float} (hv : t.eval evaluate e = some (value, after)) :
    after.bindings = b := by
  have hcalls : CallsRelated evaluate evaluate b fun e e' => e = e' ∧ e.bindings = b := by
    rintro name values e _ after value ⟨rfl, he⟩ hcall
    exact ⟨after, hcall, rfl, called_bindings h he hcall⟩
  obtain ⟨_, -, rfl, hafter⟩ := t.eval_related (fun e e' hr => ⟨hr.2, hr.1 ▸ hr.2⟩) hcalls ⟨rfl, he⟩ hv
  exact hafter

theorem Arguments.eval_bindings (h : b.Respond evaluate described) (arguments : Arguments)
    (he : e.bindings = b) {values : List Float}
    (hv : arguments.eval evaluate e = some (values, after)) : after.bindings = b := by
  have hcalls : CallsRelated evaluate evaluate b fun e e' => e = e' ∧ e.bindings = b := by
    rintro name values e _ after value ⟨rfl, he⟩ hcall
    exact ⟨after, hcall, rfl, called_bindings h he hcall⟩
  obtain ⟨_, -, rfl, hafter⟩ :=
    arguments.eval_related (fun e e' hr => ⟨hr.2, hr.1 ▸ hr.2⟩) hcalls ⟨rfl, he⟩ hv
  exact hafter

/-- Where answers depend on nothing but the arguments, the value of a tree depends on nothing but
the bindings. -/
theorem Tree.eval_pure {answer : String → List Float → Except Failure Float}
    (h : b.Respond evaluate fun name arguments found => found = answer name arguments)
    (h' : b.Respond other fun name arguments found => found = answer name arguments)
    {l : Level} (t : Tree l) (he : e.bindings = b) {value : Float}
    (hv : t.eval evaluate e = some (value, after)) {e' : Environment} (he' : e'.bindings = b) :
    ∃ after', after'.bindings = b ∧ t.eval other e' = some (value, after') := by
  have hcalls : CallsRelated evaluate other b fun e e' => e.bindings = b ∧ e'.bindings = b := by
    rintro name values e e' after value ⟨he, he'⟩ hcall
    have hafter := called_bindings h he hcall
    rcases called_eq_some.mp hcall with ⟨function, hm, ha, hok⟩ | ⟨function, hm, ha, hok, -⟩
    · obtain ⟨_, more, rfl, hfirst⟩ := h.call he hm ha
      obtain ⟨_, more', rfl, hsecond⟩ := h'.call he' hm ha
      obtain ⟨hvalue, -⟩ := Prod.mk.inj (hfirst.symm.trans hok)
      rw [hvalue] at hsecond
      exact ⟨⟨b, more'⟩, called_eq_some.mpr (.inl ⟨function, hm, ha, hsecond⟩), hafter, rfl⟩
    · exact ⟨e', called_eq_some.mpr (.inr ⟨function, hm, ha, hok, rfl⟩), hafter, he'⟩
  obtain ⟨after', heval, -, hafter'⟩ := t.eval_related (fun _ _ hr => hr) hcalls ⟨he, he'⟩ hv
  exact ⟨after', hafter', heval⟩

end Grammar

/-- The evaluator that a calculator gives its callbacks. -/
def nested (precision : Precision) : Evaluator := evaluateWithin precision (nestingLimit - 1)

/-- Every function leaves the bindings as they are, and its answer depends on nothing but its
arguments. -/
def Bindings.Pure (b : Bindings) (answer : String → List Float → Except Failure Float) : Prop :=
  ∀ precision, b.Respond (nested precision) fun name arguments found => found = answer name arguments

theorem Calculator.evaluate_eq {c : Calculator} {expression : String} (h : expression ≠ "") :
    c.evaluate expression =
      (Expression.evaluateText (nested c.precision) expression.toList ⟨c.bindings, []⟩).1.bind
        fun value => (c.precision.round value).mapError .breakdown := by
  have hne : expression.isEmpty = false := by simpa using h
  have hstep : evaluateWithin c.precision nestingLimit =
      evaluateWith (nested c.precision) c.precision := rfl
  rw [Calculator.evaluate, Calculator.run, hstep, evaluateWith, hne]
  rfl

end Reckon
