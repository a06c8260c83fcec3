import Reckon.Proofs.Calculator.Dependence
import Reckon.Proofs.Expression.Breakdown

/-!
# Custom functions and variables in place of builtin ones

A custom function is called in another way than a builtin one: the call is recorded, an action is
carried out, and a failure is wrapped. Where it computes the same from as many arguments, none of
this can be told from the result of an expression, whatever surrounds the call and wherever the
evaluation fails. The counting functions are left out, since they can break down, which as a failure
of a custom function would be another one. A variable with the value of a constant is no different
from the constant.
-/
namespace Reckon
open Expression
open Grammar (held)

namespace Builtin

variable {name : String} {function : Builtin}

/-- A function that does not count has a value wherever its arity is right. -/
theorem sturdy_of_builtin? (h : builtin? name = some function) (hname : name ∉ countingNames) :
    Sturdy function := by
  intro arguments ha
  cases happly : function.apply arguments with
  | ok value => exact ⟨value, rfl⟩
  | error breakdown => exact absurd (breakdown_of_builtin? h ha happly).2 hname

theorem constant?_isNone : ∀ entry ∈ catalogue, ∀ name ∈ entry.names, (constant? name).isNone := by
  decide

/-- No name is that of a function and of a constant. -/
theorem builtinMeaning_of_builtin? (h : builtin? name = some function) :
    (builtinMeaning name : Meaning) = .builtin function := by
  obtain ⟨entry, hentry, -⟩ := Option.map_eq_some_iff.mp h
  have hname : name ∈ entry.names := by simpa using List.find?_some hentry
  have hnone := constant?_isNone entry (List.mem_of_find?_eq_some hentry) name hname
  simp [builtinMeaning, Option.isNone_iff_eq_none.mp hnone, h]

end Builtin

/-- A custom function that takes as many arguments as a builtin one, computes the same value from
them, and changes nothing. -/
structure CustomFunction.StandsFor (evaluate : Evaluator) (function : CustomFunction)
    (builtin : Builtin) : Prop where
  arity : function.arity = builtin.arity
  computes : ∀ (arguments : List Float) (value : Float),
    admits (builtin.arity.map Int.ofNat) arguments.length = true →
    builtin.apply arguments = .ok value →
    ∀ e, (function.callback arguments).perform evaluate e = (.ok value, e)

/-- The custom function that computes a builtin one. -/
def Builtin.asCustom (builtin : Builtin) : CustomFunction where
  callback arguments :=
    match builtin.apply arguments with
    | .ok value => Callback.answer value
    | .error breakdown => .fail (.breakdown breakdown)
  arity := builtin.arity

theorem Builtin.asCustom_standsFor (evaluate : Evaluator) (builtin : Builtin) :
    builtin.asCustom.StandsFor evaluate builtin where
  arity := rfl
  computes arguments value _ hvalue e := by
    simp only [Builtin.asCustom, hvalue]
    rfl

/-- The calls in `first` are those in `second` but for calls under `name`, which are all calls of
one function. -/
def Call.Besides (name : String) (function : CustomFunction) (first second : List Call) : Prop :=
  second.filter (·.name != name) = first ∧ ∀ call ∈ second, call.name = name → call.function = function

namespace Call.Besides

variable {name other : String} {function : CustomFunction} {first second more : List Call}

theorem nil (name : String) (function : CustomFunction) : Call.Besides name function [] [] :=
  ⟨rfl, by simp⟩

/-- Calls under other names come to both. -/
theorem append (h : Call.Besides name function first second) (hne : other ≠ name)
    (hmore : ∀ call ∈ more, call.name = other) :
    Call.Besides name function (first ++ more) (second ++ more) := by
  have hother : ∀ call ∈ more, call.name ≠ name := fun call hcall => hmore call hcall ▸ hne
  refine ⟨?_, ?_⟩
  · rw [List.filter_append, h.1, List.filter_eq_self.mpr (by simpa using hother)]
  · intro call hcall hname
    obtain hcall | hcall := List.mem_append.mp hcall
    · exact h.2 call hcall hname
    · exact absurd hname (hother call hcall)

/-- A call under the name itself comes to the second alone. -/
theorem record (h : Call.Besides name function first second) (arguments : List Float) :
    Call.Besides name function first (second ++ [⟨name, function, arguments⟩]) := by
  refine ⟨by simpa using h.1, ?_⟩
  intro call hcall hname
  obtain hcall | hcall := List.mem_append.mp hcall
  · exact h.2 call hcall hname
  · rw [List.mem_singleton.mp hcall]

end Call.Besides

section StandIn
variable {b : Bindings} {evaluate : Evaluator} {text : List Char} {name : String}
  {builtin : Builtin} {function : CustomFunction}

/-- A call of a builtin function and one of the custom function in its place: both are refused for
the same number of arguments, and otherwise both have the same value. -/
theorem call_standIn (hsturdy : Builtin.Sturdy builtin) (h : function.StandsFor evaluate builtin)
    (name : String) (values : List Float) (e e' : Environment) :
    ∃ result more, (more = [] ∨ more = [⟨name, function, values⟩]) ∧
      (Callee.builtin builtin).call evaluate name values e = (result, e) ∧
      (Callee.custom function).call evaluate name values e' =
        (result, { e' with calls := e'.calls ++ more }) := by
  have harity : (Callee.custom function).arity = (Callee.builtin builtin).arity := h.arity
  have hsame : (Callee.custom function).takes values = (Callee.builtin builtin).takes values := by
    rw [Callee.takes, Callee.takes, harity]
  cases htakes : (Callee.builtin builtin).takes values with
  | true =>
    have hadmits := (Callee.takes_eq_admits ..).symm.trans htakes
    obtain ⟨value, hvalue⟩ := hsturdy values hadmits
    rw [Callee.call_of_takes htakes, Callee.call_of_takes (hsame.trans htakes)]
    refine ⟨.ok value, _, .inr rfl, by simp [Callee.run, hvalue, Except.mapError], ?_⟩
    simp [Callee.run, h.computes values value hadmits hvalue, Environment.record, Except.mapError]
  | false =>
    rw [Callee.call_refused htakes, Callee.call_refused (hsame.trans htakes), Callee.refusal,
      Callee.refusal, harity]
    exact ⟨_, [], .inl rfl, rfl, by rw [List.append_nil]⟩

theorem matches_standIn (hbuiltin : Builtin.builtin? name = some builtin)
    (hname : name ∉ Builtin.countingNames) (hfree : b.functions.get? name = none)
    (h : function.StandsFor evaluate builtin) :
    (Pairing.sameText evaluate evaluate text
      (Environment.Under b (b.setFunction name function) (Call.Besides name function))).Matches name
        (b.meaning name) ((b.setFunction name function).meaning name) := by
  cases hnumber : b.numbers.get? name with
  | some value =>
    -- a variable hides the one like the other
    have hfirst : held (b.meaning name) = some value := by
      simp [Bindings.meaning, hnumber, held]
    have hsecond : held ((b.setFunction name function).meaning name) = some value := by
      simp [Bindings.meaning, Bindings.setFunction, hnumber, held]
    exact .value hfirst hsecond
  | none =>
    have hfirst : b.meaning name = .builtin builtin := by
      simp [Bindings.meaning, hnumber, hfree, Builtin.builtinMeaning_of_builtin? hbuiltin]
    have hsecond : (b.setFunction name function).meaning name = .custom function := by
      simp [Bindings.meaning, Bindings.setFunction, Table.get?_put, hnumber]
    rw [hfirst, hsecond]
    refine .call rfl rfl ?_
    rintro values e e' ⟨hbinding, hbinding', hcalls⟩
    obtain ⟨result, more, hmore, hcall, hcall'⟩ :=
      call_standIn (Builtin.sturdy_of_builtin? hbuiltin hname) h name values e e'
    refine Pairing.alike_sameText.mpr ?_
    simp only [Pairing.sameText, hcall, hcall', true_and]
    refine ⟨hbinding, hbinding', ?_⟩
    rcases hmore with rfl | rfl
    · simpa using hcalls
    · exact hcalls.record values

end StandIn

theorem matches_constant {b : Bindings} {evaluate : Evaluator} {text : List Char} {name : String}
    {value : Float} {Related : Environment → Environment → Prop}
    (hconstant : Builtin.constant? name = some value) (hvariable : b.numbers.get? name = none)
    (hfree : b.functions.get? name = none) :
    (Pairing.sameText evaluate evaluate text Related).Matches name (b.meaning name)
      ((b.setVariable name value).meaning name) := by
  have hfirst : held (b.meaning name) = some value := by
    simp [Bindings.meaning, builtinMeaning, hvariable, hfree, hconstant, held]
  have hsecond : held ((b.setVariable name value).meaning name) = some value := by
    simp [Bindings.meaning, Bindings.setVariable, Table.get?_put, held]
  exact .value hfirst hsecond

namespace Calculator

/-- Under pure functions, a custom function that stands in for a builtin one changes nothing but
the calls that are recorded, and a variable with the value of a constant changes nothing. -/
theorem step_evaluate_standIn (c : Calculator) (text : String)
    (hpure : ∀ (name : String) (function : CustomFunction),
      c.bindings.functions.get? name = some function → function.Pure (nested c.precision)) :
    (∀ (name : String) (builtin : Builtin) (callback : Callback) (arity : Datum)
        (count : Option Nat),
      Builtin.builtin? name = some builtin → name ∉ Builtin.countingNames →
      c.bindings.functions.get? name = none → arity.toArity name = .ok count →
      (⟨callback, count⟩ : CustomFunction).StandsFor (nested c.precision) builtin →
      let plain := (c.step (.evaluate text)).1
      let registered := (c.step (.addFunction name (.callback callback) arity)).2
      let answer := (registered.step (.evaluate text)).1
      answer.result = plain.result ∧
        Call.Besides name ⟨callback, count⟩ plain.calls answer.calls) ∧
    (∀ (name : String) (value : Float) (datum : Given),
      Builtin.constant? name = some value → c.bindings.numbers.get? name = none →
      c.bindings.functions.get? name = none → datum.toVariable = .ok value →
      ((c.step (.addVariable name datum)).2.step (.evaluate text)).1 =
        (c.step (.evaluate text)).1) := by
  obtain ⟨b, precision⟩ := c
  constructor
  · intro name builtin callback arity count hbuiltin hcounting hfree harity hstands
    have hregistered : ((⟨b, precision⟩ : Calculator).step
        (.addFunction name (.callback callback) arity)).2 =
        ⟨b.setFunction name ⟨callback, count⟩, precision⟩ := by
      simp [Calculator.step, addFunction, harity, accept, Except.map]
    simp only [hregistered]
    refine answer_of_matches _ _ precision text _ (Call.Besides.nil _ _) fun other _ => ?_
    by_cases hother : other = name
    · subst hother
      exact matches_standIn hbuiltin hcounting hfree hstands
    · refine matches_of_pure rfl ?_ (hpure other) fun first second more hmore h =>
        h.append hother hmore
      simp [Bindings.setFunction, Table.get?_put, hother]
  · intro name value datum hconstant hvariable hfree hdatum
    have hdefined : ((⟨b, precision⟩ : Calculator).step (.addVariable name datum)).2 =
        ⟨b.setVariable name value, precision⟩ := by
      simp [Calculator.step, addVariable, hdatum, accept, Except.map]
    rw [hdefined]
    have hmatches : ∀ other : String, other.toList <:+: text.toList →
        (Pairing.sameText (nested precision) (nested precision) text.toList
          (Environment.Under b (b.setVariable name value) Eq)).Matches other (b.meaning other)
          ((b.setVariable name value).meaning other) := by
      intro other _
      by_cases hother : other = name
      · subst hother
        exact matches_constant hconstant hvariable hfree
      · refine matches_of_pure ?_ rfl (hpure other) fun _ _ more _ h => congrArg (· ++ more) h
        simp [Bindings.setVariable, Table.get?_put, hother]
    obtain ⟨hresult, hcalls⟩ := answer_of_matches _ _ precision text Eq rfl hmatches
    exact congrArg₂ Answer.mk hresult hcalls.symm

/-- A square root and a constant next to another custom function, in a call that is not closed. -/
theorem step_evaluate_standIn_sqrt :
    let c : Calculator := ⟨Bindings.empty.setFunction "f" ⟨Callback.sum, none⟩, .places 3⟩
    let root := (Builtin.unary Float.sqrt).asCustom
    let text := "f(sqrt 2, pi * sqrt(4"
    let registered := (c.step (.addFunction "sqrt" (.callback root.callback) (.integer 1))).2
    let defined := (c.step (.addVariable "pi" (.real Builtin.pi))).2
    ((registered.step (.evaluate text)).1.result = (c.step (.evaluate text)).1.result ∧
      Call.Besides "sqrt" root (c.step (.evaluate text)).1.calls
        (registered.step (.evaluate text)).1.calls) ∧
    (defined.step (.evaluate text)).1 = (c.step (.evaluate text)).1 := by
  intro c root text registered defined
  have hpure : ∀ (name : String) (function : CustomFunction),
      c.bindings.functions.get? name = some function → function.Pure (nested c.precision) := by
    intro name function hfunction
    obtain rfl := Bindings.eq_of_get?_setFunction hfunction
    exact fun arguments => ⟨.ok (arguments.foldl (· + ·) 0.0), fun _ => rfl⟩
  obtain ⟨hfunction, hconstant⟩ := step_evaluate_standIn c text hpure
  exact ⟨hfunction "sqrt" _ _ _ (some 1) rfl (by decide) rfl rfl
      (Builtin.asCustom_standsFor _ (Builtin.unary Float.sqrt)),
    hconstant "pi" _ _ rfl rfl rfl rfl⟩

end Calculator

end Reckon
