import Reckon.Session
import Reckon.Proofs.Expression.Lockstep
import Reckon.Proofs.Grammar.Response

/-!
# What an evaluation depends on

Definitions are writes to two tables, and the last write of a name is all that is left of them. An
evaluation sees nothing of the tables but their entries, and where no function changes them or asks
for more, nothing but the entries of the names in its text. So how a calculator has come by its
bindings does not matter, and neither do the bindings of other names.
-/
namespace Reckon
open Expression

namespace Table
variable {α : Type}

/-- The table after a write, which gives a name a new entry or removes its entry. -/
def write (t : Table α) : String × Option α → Table α
  | (name, some value) => t.put name value
  | (name, none) => t.erase name

theorem get?_write (t : Table α) (name other : String) (entry : Option α) :
    (t.write (name, entry)).get? other = if other = name then entry else t.get? other := by
  cases entry with
  | none => exact get?_erase t name other
  | some value => exact get?_put t name other value

/-- The entry of a name after writes to an empty table. -/
def lastWrite (writes : List (String × Option α)) (name : String) : Option α :=
  (writes.reverse.lookup name).join

theorem get?_foldl_write (t : Table α) (writes : List (String × Option α)) (name : String) :
    (writes.foldl write t).get? name = (writes.reverse.lookup name).getD (t.get? name) := by
  induction writes generalizing t with
  | nil => rfl
  | cons first writes ih =>
    obtain ⟨other, entry⟩ := first
    rw [List.foldl_cons, ih, get?_write, List.reverse_cons, List.lookup_append]
    -- the first write counts only if no later one is of the same name
    cases writes.reverse.lookup name with
    | some last => rfl
    | none =>
      by_cases h : name = other
      · simp [h]
      · have hb : (name == other) = false := beq_eq_false_iff_ne.mpr h
        simp [List.lookup_cons, h, hb]

theorem get?_writes (writes : List (String × Option α)) (name : String) :
    (writes.foldl write empty).get? name = lastWrite writes name := by
  rw [get?_foldl_write, get?_empty, lastWrite]
  cases writes.reverse.lookup name <;> rfl

end Table

/-- The variables that are set to the values of the pairs, up to the first that is not a number. -/
def numberWritesOf : List (String × Given) → List (String × Option Float)
  | [] => []
  | (name, value) :: more =>
    match value.toVariable with
    | .ok x => (name, some x) :: numberWritesOf more
    | .error _ => []

namespace Step

/-- Whether a step defines or removes variables or functions. -/
def isDefinition : Step → Bool
  | .addVariable _ _ | .addVariables _ | .removeVariable _ => true
  | .addFunction _ _ _ | .removeFunction _ => true
  | .create _ | .setPrecision _ | .evaluate _ => false

/-- What a definition writes to the variables. -/
def numberWrites : Step → List (String × Option Float)
  | .addVariable name value => numberWritesOf [(name, value)]
  | .addVariables pairs => numberWritesOf pairs
  | .removeVariable name => [(name, none)]
  | _ => []

/-- What a definition writes to the functions. A rejected one writes nothing. -/
def functionWrites : Step → List (String × Option CustomFunction)
  | .addFunction name (.callback f) arity =>
    match arity.toArity name with
    | .ok n => [(name, some ⟨f, n⟩)]
    | .error _ => []
  | .removeFunction name => [(name, none)]
  | _ => []

end Step

namespace Calculator

/-- The calculator after writes to its tables. -/
def written (c : Calculator) (numbers : List (String × Option Float))
    (functions : List (String × Option CustomFunction)) : Calculator :=
  { c with bindings :=
    ⟨numbers.foldl Table.write c.bindings.numbers,
      functions.foldl Table.write c.bindings.functions⟩ }

theorem addVariables_written (c : Calculator) (pairs : List (String × Given)) :
    (c.addVariables pairs).2 = c.written (numberWritesOf pairs) [] := by
  induction pairs generalizing c with
  | nil => rfl
  | cons pair pairs ih =>
    obtain ⟨name, value⟩ := pair
    cases hv : value.toVariable with
    | error breakdown => simp [addVariables, addVariable, numberWritesOf, hv, Except.map, written]
    | ok x =>
      simp only [addVariables, addVariable, numberWritesOf, hv, Except.map]
      exact ih _

/-- One definition is what it writes. -/
theorem step_written (c : Calculator) {step : Step} (h : step.isDefinition = true) :
    (c.step step).2 = c.written step.numberWrites step.functionWrites := by
  match step with
  | .addVariable name value =>
    have hwritten := c.addVariables_written [(name, value)]
    simp only [addVariables] at hwritten
    simp only [Calculator.step]
    cases hv : c.addVariable name value <;> rw [hv] at hwritten <;> exact hwritten
  | .addVariables pairs => exact c.addVariables_written pairs
  | .removeVariable _ => rfl
  | .addFunction name (.value _) arity => rfl
  | .addFunction name (.callback f) arity =>
    simp only [Calculator.step, addFunction, Step.numberWrites, Step.functionWrites]
    cases arity.toArity name <;> rfl
  | .removeFunction _ => rfl
  | .create _ | .setPrecision _ | .evaluate _ => simp [Step.isDefinition] at h

/-- Definitions are what they write one after another. -/
theorem steps_written (c : Calculator) {steps : List Step}
    (h : ∀ step ∈ steps, step.isDefinition = true) :
    (c.steps steps).2 =
      c.written (steps.flatMap Step.numberWrites) (steps.flatMap Step.functionWrites) := by
  induction steps generalizing c with
  | nil => rfl
  | cons step steps ih =>
    obtain ⟨hstep, hsteps⟩ := List.forall_mem_cons.mp h
    rw [Calculator.steps, ih (c.step step).2 hsteps, c.step_written hstep]
    simp [written]

end Calculator

/-- Both bindings have the same entries for every name of a kind. -/
def Bindings.AgreeOn (known : String → Prop) (a b : Bindings) : Prop :=
  ∀ name, known name →
    a.numbers.get? name = b.numbers.get? name ∧ a.functions.get? name = b.functions.get? name

namespace Bindings.AgreeOn

variable {known : String → Prop} {a b c : Bindings}

theorem refl (a : Bindings) : a.AgreeOn known a := fun _ _ => ⟨rfl, rfl⟩

theorem trans (h : a.AgreeOn known b) (h' : b.AgreeOn known c) : a.AgreeOn known c :=
  fun name hname =>
    ⟨(h name hname).1.trans (h' name hname).1, (h name hname).2.trans (h' name hname).2⟩

/-- The same edit of both. -/
theorem apply (h : a.AgreeOn known b) (change : Edit) :
    (a.apply change).AgreeOn known (b.apply change) := by
  intro name hname
  obtain ⟨hnumber, hfunction⟩ := h name hname
  cases change with
  | setVariable other value =>
    simp only [Bindings.apply, Bindings.setVariable, Table.get?_put, hnumber, hfunction, and_self]
  | removeVariable other =>
    simp only [Bindings.apply, Bindings.removeVariable, Table.get?_erase, hnumber, hfunction,
      and_self]
  | removeFunction other =>
    simp only [Bindings.apply, Bindings.removeFunction, Table.get?_erase, hnumber, hfunction,
      and_self]

theorem setFunction (h : a.AgreeOn known b) (other : String) (function : CustomFunction) :
    (a.setFunction other function).AgreeOn known (b.setFunction other function) := by
  intro name hname
  obtain ⟨hnumber, hfunction⟩ := h name hname
  simp only [Bindings.setFunction, Table.get?_put, hnumber, hfunction, and_self]

end Bindings.AgreeOn

/-- The same entries for all names, and the same calls. -/
def Environment.Same (e e' : Environment) : Prop :=
  e.bindings.AgreeOn (fun _ => True) e'.bindings ∧ e'.calls = e.calls

/-- The outcome depends on the tables only through their entries. -/
def Evaluator.Extensional (evaluate : Evaluator) : Prop :=
  ∀ expression e e', Environment.Same e e' →
    (evaluate expression e').1 = (evaluate expression e).1 ∧
      Environment.Same (evaluate expression e).2 (evaluate expression e').2

section Extensional
variable {evaluate : Evaluator} (h : evaluate.Extensional)
include h

theorem Action.perform_same (action : Action) {e e' : Environment} (he : e.Same e') :
    (action.perform evaluate e').1 = (action.perform evaluate e).1 ∧
      (action.perform evaluate e).2.Same (action.perform evaluate e').2 := by
  induction action generalizing e e' with
  | give result => exact ⟨rfl, he⟩
  | fail failure => exact ⟨rfl, he⟩
  | evaluate expression next ih =>
    obtain ⟨hresult, hafter⟩ := h expression e e' he
    simp only [Action.perform]
    rw [hresult]
    exact ih _ hafter
  | edit change next ih => exact ih ⟨he.1.apply change, he.2⟩
  | define name callback arity next _ ih => exact ih ⟨he.1.setFunction name ⟨callback, arity⟩, he.2⟩

theorem Callee.call_same (callee : Callee) (name : String) (values : List Float)
    {e e' : Environment} (he : e.Same e') :
    (callee.call evaluate name values e').1 = (callee.call evaluate name values e).1 ∧
      (callee.call evaluate name values e).2.Same (callee.call evaluate name values e').2 := by
  cases htakes : callee.takes values with
  | false =>
    rw [Callee.call_refused htakes, Callee.call_refused htakes]
    exact ⟨rfl, he⟩
  | true =>
    rw [Callee.call_of_takes htakes, Callee.call_of_takes htakes]
    cases callee with
    | builtin function => exact ⟨rfl, he⟩
    | custom function =>
      have hrecord : (e.record ⟨name, function, values⟩).Same (e'.record ⟨name, function, values⟩) :=
        ⟨he.1, congrArg (· ++ [(⟨name, function, values⟩ : Call)]) he.2⟩
      obtain ⟨hresult, hafter⟩ := Action.perform_same h (function.callback values) hrecord
      exact ⟨congrArg (Except.mapError (Failure.inCall name)) hresult, hafter⟩

theorem evaluateWith_extensional (precision : Precision) :
    Evaluator.Extensional (evaluateWith evaluate precision) := by
  intro expression e e' he
  by_cases hne : expression = ""
  · subst hne
    exact ⟨rfl, he⟩
  · refine Pairing.alike_sameText.mp <| (Lockstep.sameText fun name _ e e' he => ?_).evaluateWith_alike
      e e' precision hne hne rfl rfl ⟨rfl, List.suffix_rfl⟩ he
    obtain ⟨hnumber, hfunction⟩ := he.1 name trivial
    rw [← Bindings.meaning_congr hnumber hfunction]
    refine .same fun callee _ values e₁ e₂ he₁ => Pairing.alike_sameText.mpr ?_
    exact callee.call_same h name values he₁

end Extensional

theorem evaluateWithin_extensional (precision : Precision) (depth : Nat) :
    Evaluator.Extensional (evaluateWithin precision depth) := by
  induction depth with
  | zero => exact evaluateWith_extensional (fun _ _ _ he => ⟨rfl, he⟩) precision
  | succ depth ih => exact evaluateWith_extensional ih precision

/-- Tables with the same entries give the same answer, whatever the functions in them do. -/
theorem Calculator.answer_of_same {a b : Bindings} (h : a.AgreeOn (fun _ => True) b)
    (precision : Precision) (expression : String) :
    ((⟨a, precision⟩ : Calculator).step (.evaluate expression)).1 =
      ((⟨b, precision⟩ : Calculator).step (.evaluate expression)).1 := by
  obtain ⟨hresult, -, hcalls⟩ :=
    evaluateWithin_extensional precision nestingLimit expression ⟨a, []⟩ ⟨b, []⟩ ⟨h, rfl⟩
  exact congrArg₂ Answer.mk (congrArg (Except.map some) hresult.symm) hcalls.symm

/-- The answer depends on nothing but the arguments, and nothing is changed. -/
def CustomFunction.Pure (evaluate : Evaluator) (function : CustomFunction) : Prop :=
  ∀ arguments, ∃ answer, ∀ e, (function.callback arguments).perform evaluate e = (answer, e)

/-- A call of a pure function leaves nothing behind but itself. -/
theorem Callee.call_of_pure {evaluate : Evaluator} {callee : Callee}
    (h : ∀ function, callee = .custom function → function.Pure evaluate) (name : String)
    (values : List Float) :
    ∃ (result : Except Failure Float) (more : List Call), (∀ call ∈ more, call.name = name) ∧
      ∀ e, callee.call evaluate name values e = (result, ⟨e.bindings, e.calls ++ more⟩) := by
  cases htakes : callee.takes values with
  | false =>
    simp only [Callee.call_refused htakes]
    exact ⟨.error (.fault (callee.refusal name values)), [], by simp⟩
  | true =>
    simp only [Callee.call_of_takes htakes]
    cases callee with
    | builtin function =>
      exact ⟨(function.apply values).mapError .breakdown, [], by simp [Callee.run]⟩
    | custom function =>
      obtain ⟨answer, hanswer⟩ := h function rfl values
      exact ⟨answer.mapError (Failure.inCall name), [⟨name, function, values⟩],
        by simp [Callee.run, hanswer, Environment.record]⟩

/-- Environments with bindings of their own, and calls that belong together. -/
def Environment.Under (a b : Bindings) (Related : List Call → List Call → Prop)
    (e e' : Environment) : Prop :=
  e.bindings = a ∧ e'.bindings = b ∧ Related e.calls e'.calls

section Under
variable {a b : Bindings} {Related : List Call → List Call → Prop}

/-- A name with the same entries in both bindings, as long as its calls can be added to both
lists. -/
theorem matches_of_pure {evaluate : Evaluator} {text : List Char} {name : String}
    (hnumber : a.numbers.get? name = b.numbers.get? name)
    (hfunction : a.functions.get? name = b.functions.get? name)
    (hpure : ∀ function, a.functions.get? name = some function → function.Pure evaluate)
    (happend : ∀ first second more, (∀ call ∈ more, call.name = name) → Related first second →
      Related (first ++ more) (second ++ more)) :
    (Pairing.sameText evaluate evaluate text (Environment.Under a b Related)).Matches name
      (a.meaning name) (b.meaning name) := by
  rw [← Bindings.meaning_congr hnumber hfunction]
  refine .same ?_
  rintro callee hcallee values e e' ⟨hfirst, hsecond, hcalls⟩
  have hcustom : ∀ function, callee = .custom function → function.Pure evaluate := by
    rintro function rfl
    exact hpure function (Bindings.get?_of_meaning (Meaning.eq_custom_of_callee? hcallee))
  obtain ⟨result, more, hmore, hcall⟩ := Callee.call_of_pure hcustom name values
  refine Pairing.alike_sameText.mpr ?_
  simp only [Pairing.sameText, hcall]
  exact ⟨trivial, hfirst, hsecond, happend _ _ more hmore hcalls⟩

namespace Calculator

variable {precision : Precision} {text : String}

/-- Bindings under which every name in a text does the same give the same result, and leave
environments behind that still belong together. -/
theorem run_of_matches (a b : Bindings) (precision : Precision) (text : String)
    (Related : List Call → List Call → Prop) (hnil : Related [] [])
    (hnames : ∀ name : String, name.toList <:+: text.toList →
      (Pairing.sameText (nested precision) (nested precision) text.toList
        (Environment.Under a b Related)).Matches name (a.meaning name) (b.meaning name)) :
    let first := (⟨a, precision⟩ : Calculator).run text
    let second := (⟨b, precision⟩ : Calculator).run text
    second.1 = first.1 ∧ first.2.Under a b Related second.2 := by
  by_cases hne : text = ""
  · subst hne
    exact ⟨rfl, rfl, rfl, hnil⟩
  · have hunder : ∀ name : String, name.toList <:+: text.toList → ∀ e e' : Environment,
        e.Under a b Related e' →
        (Pairing.sameText (nested precision) (nested precision) text.toList
          (Environment.Under a b Related)).Matches name (e.bindings.meaning name)
          (e'.bindings.meaning name) := by
      rintro name hname e e' ⟨hfirst, hsecond, -⟩
      rw [hfirst, hsecond]
      exact hnames name hname
    have halike := (Lockstep.sameText hunder).evaluateWith_alike ⟨a, []⟩ ⟨b, []⟩ precision hne hne
      rfl rfl ⟨rfl, List.suffix_rfl⟩ ⟨rfl, rfl, hnil⟩
    exact Pairing.alike_sameText.mp halike

/-- The answers of such bindings. -/
theorem answer_of_matches (a b : Bindings) (precision : Precision) (text : String)
    (Related : List Call → List Call → Prop) (hnil : Related [] [])
    (hnames : ∀ name : String, name.toList <:+: text.toList →
      (Pairing.sameText (nested precision) (nested precision) text.toList
        (Environment.Under a b Related)).Matches name (a.meaning name) (b.meaning name)) :
    let first := ((⟨a, precision⟩ : Calculator).step (.evaluate text)).1
    let second := ((⟨b, precision⟩ : Calculator).step (.evaluate text)).1
    second.result = first.result ∧ Related first.calls second.calls := by
  obtain ⟨hresult, -, -, hcalls⟩ := run_of_matches a b precision text Related hnil hnames
  exact ⟨congrArg (Except.map some) hresult, hcalls⟩

/-- Pure functions leave a calculator as it was. -/
theorem afterwards_of_pure {c : Calculator}
    (hpure : ∀ name function, c.bindings.functions.get? name = some function →
      function.Pure (nested c.precision)) (text : String) :
    c.afterwards text = c := by
  obtain ⟨b, precision⟩ := c
  obtain ⟨-, hafter, -⟩ := run_of_matches b b precision text (fun _ _ => True) trivial
    fun name _ => matches_of_pure rfl rfl (hpure name) fun _ _ _ _ h => h
  exact congrArg (Calculator.mk · precision) hafter

/-- Under pure functions only the entries of the names in a text matter. -/
theorem answer_of_agreeOn (hagree : a.AgreeOn (·.toList <:+: text.toList) b)
    (hpure : ∀ name function, name.toList <:+: text.toList →
      a.functions.get? name = some function → function.Pure (nested precision)) :
    ((⟨a, precision⟩ : Calculator).step (.evaluate text)).1 =
      ((⟨b, precision⟩ : Calculator).step (.evaluate text)).1 := by
  obtain ⟨hresult, hcalls⟩ := answer_of_matches a b precision text Eq rfl fun name hname =>
    matches_of_pure (hagree name hname).1 (hagree name hname).2
      (fun function => hpure name function hname) fun _ _ more _ h => congrArg (· ++ more) h
  exact congrArg₂ Answer.mk hresult.symm hcalls

end Calculator

end Under

namespace Calculator

variable {precision : Precision} {text : String}

/-- Two calculators with the same precision give a text the same answer if the last writes of the
names in it are the same, however the calculators were set up. -/
theorem answer_of_lastWrite {first second : List Step}
    (hfirst : ∀ step ∈ first, step.isDefinition = true)
    (hsecond : ∀ step ∈ second, step.isDefinition = true)
    (hagree : ∀ name : String, name.toList <:+: text.toList →
      Table.lastWrite (first.flatMap Step.numberWrites) name =
          Table.lastWrite (second.flatMap Step.numberWrites) name ∧
        Table.lastWrite (first.flatMap Step.functionWrites) name =
          Table.lastWrite (second.flatMap Step.functionWrites) name)
    (hpure : ∀ (name : String) (function : CustomFunction), name.toList <:+: text.toList →
      Table.lastWrite (first.flatMap Step.functionWrites) name = some function →
      function.Pure (nested precision)) :
    (((new precision).steps first).2.step (.evaluate text)).1 =
      (((new precision).steps second).2.step (.evaluate text)).1 := by
  rw [steps_written _ hfirst, steps_written _ hsecond]
  refine answer_of_agreeOn (fun name hname => ?_) fun name function hname hfunction => ?_
  · simp only [new, Bindings.empty, Table.get?_writes]
    exact hagree name hname
  · simp only [new, Bindings.empty, Table.get?_writes] at hfunction
    exact hpure name function hname hfunction

/-- A variable that was overwritten, a rejected definition, a removed function of the same name and
another variable make no difference. -/
theorem answer_of_lastWrite_overwritten :
    (((new (.places 2)).steps
        [.addFunction "f" (.callback Callback.sum) .nothing, .addVariable "x" (.real 2.0)]).2.step
          (.evaluate "f(x,1)")).1 =
      (((new (.places 2)).steps
        [.addVariables [("x", .real 1.0), ("y", .real 3.0), ("x", .record [])],
          .addFunction "x" (.callback Callback.count) .nothing, .addVariable "x" (.real 2.0),
          .addFunction "f" (.callback Callback.sum) .nothing, .removeFunction "x"]).2.step
          (.evaluate "f(x,1)")).1 := by
  refine answer_of_lastWrite (by decide) (by decide) ?_ ?_
  · intro name hname
    have hy : (name == "y") = false := by
      refine beq_eq_false_iff_ne.mpr ?_
      rintro rfl
      exact absurd hname (by decide)
    refine ⟨?_, ?_⟩
    · simp only [List.flatMap_cons, List.flatMap_nil, Step.numberWrites, numberWritesOf,
        Given.toVariable, Given.datum, Datum.toFloat, Table.lastWrite, List.lookup_cons, hy,
        List.append_nil, List.nil_append, List.reverse_cons, List.reverse_nil, List.cons_append]
      cases name == "x" <;> rfl
    · simp only [List.flatMap_cons, List.flatMap_nil, Step.functionWrites, Datum.toArity,
        Table.lastWrite, List.lookup_cons, List.append_nil, List.nil_append, List.reverse_cons,
        List.reverse_nil, List.cons_append]
      cases hx : name == "x" with
      | false => cases name == "f" <;> rfl
      | true =>
        obtain rfl := eq_of_beq hx
        rfl
  · intro name function _ hfunction
    have hsum : function.callback = Callback.sum := by
      simp only [List.flatMap_cons, List.flatMap_nil, Step.functionWrites, Datum.toArity,
        Table.lastWrite, List.lookup_cons, List.append_nil, List.reverse_cons, List.reverse_nil,
        List.nil_append] at hfunction
      cases hf : name == "f" with
      | false => simp [hf] at hfunction
      | true =>
        rw [hf] at hfunction
        obtain rfl := Option.some.inj hfunction
        rfl
    exact fun arguments => ⟨.ok (arguments.foldl (· + ·) 0.0), fun e => by rw [hsum]; rfl⟩

end Calculator

end Reckon
