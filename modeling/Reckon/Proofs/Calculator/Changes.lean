import Reckon.Proofs.Calculator.Dependence
import Reckon.Proofs.Calculator.Trace

/-!
# What an evaluation changes

Nothing but the callbacks that are called touches the tables, and nothing is ever rolled back. So
however an evaluation ends, the tables are what the changes on the way have made of them, in their
order, and an evaluation that has changed nothing can be repeated.
-/
namespace Reckon
open Expression Grammar

/-- The bindings after a change. -/
def Bindings.change (b : Bindings) : Change → Bindings
  | .edit e => b.apply e
  | .define name function => b.setFunction name function

namespace Deed

def call? : Deed → Option Call
  | .called call => some call
  | .changed _ _ => none

def change? : Deed → Option Change
  | .called _ => none
  | .changed _ change => some change

end Deed

def callsOf (deeds : List Deed) : List Call := deeds.filterMap Deed.call?

def changesOf (deeds : List Deed) : List Change := deeds.filterMap Deed.change?

section Deeds
variable (call : Call) (change : Change) (deeds others : List Deed)

@[simp] theorem callsOf_called : callsOf (.called call :: deeds) = call :: callsOf deeds := rfl

@[simp] theorem callsOf_changed : callsOf (.changed call change :: deeds) = callsOf deeds := rfl

@[simp] theorem callsOf_append : callsOf (deeds ++ others) = callsOf deeds ++ callsOf others :=
  List.filterMap_append

@[simp] theorem changesOf_called : changesOf (.called call :: deeds) = changesOf deeds := rfl

@[simp] theorem changesOf_changed :
    changesOf (.changed call change :: deeds) = change :: changesOf deeds := rfl

@[simp] theorem changesOf_append :
    changesOf (deeds ++ others) = changesOf deeds ++ changesOf others :=
  List.filterMap_append

end Deeds

/-- A change that an action makes, for some values of the expressions in it. -/
inductive Action.Makes : Action → Change → Prop
  | edit (e : Edit) (next : Action) : (Action.edit e next).Makes (.edit e)
  | define (name : String) (callback : List Float → Action) (arity : Option Nat) (next : Action) :
      (Action.define name callback arity next).Makes (.define name ⟨callback, arity⟩)
  | afterEdit (e : Edit) {next : Action} {change : Change} (h : next.Makes change) :
      (Action.edit e next).Makes change
  | afterDefine (name : String) (callback : List Float → Action) (arity : Option Nat)
      {next : Action} {change : Change} (h : next.Makes change) :
      (Action.define name callback arity next).Makes change
  | afterEvaluate (expression : String) {next : Except Failure Float → Action}
      (result : Except Failure Float) {change : Change} (h : (next result).Makes change) :
      (Action.evaluate expression next).Makes change

/-- A change that the callback of a call makes. -/
def Call.Makes (call : Call) (change : Change) : Prop :=
  (call.function.callback call.arguments).Makes change

namespace Trace

/-- A trace that starts in an environment. The changes `own` are those of a call that is noted
further outside; every other change belongs to a call that the trace notes itself. -/
inductive Built : (Call → Change → Prop) → Environment → Trace → Prop
  | done {own : Call → Change → Prop} (result : Except Failure Float) (e : Environment) :
      Built own e (.done result e)
  | called {own : Call → Change → Prop} {e : Environment} {t : Trace} (call : Call)
      (h : Built (fun maker change => maker = call ∧ call.Makes change) (e.record call) t) :
      Built own e ((t.within call.name).noting (.called call))
  | changed {own : Call → Change → Prop} {e : Environment} {t : Trace} {maker : Call}
      {change : Change} (hown : own maker change)
      (h : Built own ⟨e.bindings.change change, e.calls⟩ t) :
      Built own e (t.noting (.changed maker change))
  | followedBy {own : Call → Change → Prop} {e : Environment} {t next : Trace} (h : Built own e t)
      (hnext : Built own t.after next) : Built own e (t.followedBy next)

variable {own : Call → Change → Prop} {e : Environment} {t : Trace}

theorem Built.andThen {next : Float → Environment → Trace} (h : Built own e t)
    (hnext : ∀ value after, Built own after (next value after)) : Built own e (t.andThen next) := by
  rw [Trace.andThen]
  split
  · exact h
  · exact h.followedBy (hnext _ _)

theorem Built.mono {own' : Call → Change → Prop} (h : Built own e t)
    (hown : ∀ maker change, own maker change → own' maker change) : Built own' e t := by
  induction h with
  | done result e => exact .done result e
  | called call h _ => exact .called call h
  | changed hmade _ ih => exact .changed (hown _ _ hmade) (ih hown)
  | followedBy _ _ ih ihnext => exact .followedBy (ih hown) (ihnext hown)

end Trace

section Built
variable {tracer : Tracer} {own : Call → Change → Prop}
  (h : ∀ own expression e, Trace.Built own e (tracer expression e))
include h

theorem Action.trace_built (maker : Call) (action : Action) (e : Environment) :
    Trace.Built (fun other change => other = maker ∧ action.Makes change) e
      (action.trace tracer maker e) := by
  induction action generalizing e with
  | give result => exact .done _ e
  | fail failure => exact .done _ e
  | evaluate expression next ih =>
    -- the action goes on after a value, and after a failure that it does not hand on
    have hnext (result : Except Failure Float) : Trace.Built
        (fun other change => other = maker ∧ (Action.evaluate expression next).Makes change)
        (tracer expression e).after
        ((next result).trace tracer maker (tracer expression e).after) :=
      (ih result _).mono fun _ _ hown => ⟨hown.1, .afterEvaluate expression result hown.2⟩
    simp only [Action.trace]
    split
    · exact (h _ expression e).followedBy (hnext _)
    · split
      · exact h _ expression e
      · exact (h _ expression e).followedBy (hnext _)
  | edit change next ih =>
    exact .changed ⟨rfl, .edit change next⟩
      ((ih _).mono fun _ _ hown => ⟨hown.1, .afterEdit change hown.2⟩)
  | define name callback arity next _ ih =>
    exact .changed ⟨rfl, .define name callback arity next⟩
      ((ih _).mono fun _ _ hown => ⟨hown.1, .afterDefine name callback arity hown.2⟩)

theorem Callee.trace_built (name : String) (callee : Callee) (arguments : List Float)
    (e : Environment) : Trace.Built own e (callee.trace tracer name arguments e) := by
  cases callee with
  | builtin function => exact .done _ e
  | custom function =>
    exact .called ⟨name, function, arguments⟩ (Action.trace_built h _ _ _)

theorem Plan.trace_built (plan : Plan Float) (e : Environment) :
    Trace.Built own e (plan.trace tracer e) := by
  induction plan generalizing e with
  | done value => exact .done _ e
  | stop reason => exact .done _ e
  | scan name start next ih => exact ih e
  | look name start next ih => exact ih _ e
  | call name callee arguments place next ih =>
    exact .andThen (callee.trace_built h name arguments e) ih

theorem tracedWith_built (precision : Precision) (expression : String) (e : Environment) :
    Trace.Built own e (tracedWith tracer precision expression e) :=
  .andThen (Plan.trace_built h _ e) fun _ after => .done _ after

end Built

theorem traced_built (own : Call → Change → Prop) (precision : Precision) (depth : Nat)
    (expression : String) (e : Environment) :
    Trace.Built own e (traced precision depth expression e) := by
  induction depth generalizing own expression e with
  | zero => exact tracedWith_built (fun _ _ e => .done _ e) precision expression e
  | succ depth ih => exact tracedWith_built ih precision expression e

namespace Trace.Built

variable {own : Call → Change → Prop} {e : Environment} {t : Trace}

/-- The deeds lead from the environment at the start to the one at the end. -/
theorem after_eq (h : Built own e t) :
    t.after =
      ⟨(changesOf t.deeds).foldl Bindings.change e.bindings, e.calls ++ callsOf t.deeds⟩ := by
  induction h with
  | done result e => cases result <;> simp [Trace.done, changesOf, callsOf]
  | called call _ ih => simp [Trace.noting, Trace.within, ih, Environment.record]
  | changed _ _ ih => simp [Trace.noting, ih]
  | followedBy _ _ ih ihnext => simp [Trace.followedBy, ih, ihnext]

/-- Every change is made by a call that is noted, unless it is one of `own`. -/
theorem maker_called (h : Built own e t) (maker : Call) (change : Change)
    (hmem : .changed maker change ∈ t.deeds) :
    own maker change ∨ maker ∈ callsOf t.deeds ∧ maker.Makes change := by
  induction h with
  | done result e => cases result <;> simp [Trace.done] at hmem
  | called call _ ih =>
    rcases List.mem_cons.mp hmem with hfirst | hmem
    · cases hfirst
    · rcases ih hmem with ⟨rfl, hmakes⟩ | ⟨hcall, hmakes⟩
      · exact .inr ⟨List.mem_cons_self, hmakes⟩
      · exact .inr ⟨List.mem_cons_of_mem _ hcall, hmakes⟩
  | changed hown _ ih =>
    rcases List.mem_cons.mp hmem with hfirst | hmem
    · obtain ⟨rfl, rfl⟩ := Deed.changed.inj hfirst
      exact .inl hown
    · exact ih hmem
  | followedBy _ _ ih ihnext =>
    simp only [Trace.followedBy, callsOf_append, List.mem_append] at hmem ⊢
    rcases hmem with hmem | hmem
    · exact (ih hmem).imp_right fun hcall => ⟨.inl hcall.1, hcall.2⟩
    · exact (ihnext hmem).imp_right fun hcall => ⟨.inr hcall.1, hcall.2⟩

end Trace.Built

theorem Bindings.AgreeOn.change {known : String → Prop} {a b : Bindings} (h : a.AgreeOn known b)
    (change : Change) : (a.change change).AgreeOn known (b.change change) := by
  cases change with
  | edit e => exact h.apply e
  | define name function => exact h.setFunction name function

/-- Changes that leave all entries as they are leave them so together. -/
theorem Bindings.agreeOn_foldl_change {known : String → Prop} {b : Bindings} {changes : List Change}
    (h : ∀ change ∈ changes, (b.change change).AgreeOn known b) :
    (changes.foldl Bindings.change b).AgreeOn known b := by
  suffices hall : ∀ a : Bindings, a.AgreeOn known b →
      (changes.foldl Bindings.change a).AgreeOn known b from hall b (.refl b)
  induction changes with
  | nil => exact fun a ha => ha
  | cons first changes ih =>
    obtain ⟨hfirst, hchanges⟩ := List.forall_mem_cons.mp h
    exact fun a ha => ih hchanges _ ((ha.change first).trans hfirst)

namespace Calculator

/-- What happens while a calculator evaluates an expression. -/
def deeds (c : Calculator) (expression : String) : List Deed :=
  (traced c.precision nestingLimit expression ⟨c.bindings, []⟩).deeds

/-- However an evaluation ends, it leaves the tables as the changes by the callbacks that it has
called make them, in their order, and the precision as it was. If none of these changes an entry,
the tables are the same as before, and the evaluation has the same answer when it is repeated. -/
theorem step_evaluate_changes (c : Calculator) (expression : String) :
    (c.step (.evaluate expression)).2 =
        ⟨(changesOf (c.deeds expression)).foldl Bindings.change c.bindings, c.precision⟩ ∧
      (c.step (.evaluate expression)).1.calls = callsOf (c.deeds expression) ∧
      (∀ maker change, .changed maker change ∈ c.deeds expression →
        maker ∈ callsOf (c.deeds expression) ∧ maker.Makes change) ∧
      ((∀ change ∈ changesOf (c.deeds expression),
          (c.bindings.change change).AgreeOn (fun _ => True) c.bindings) →
        (c.step (.evaluate expression)).2.bindings.AgreeOn (fun _ => True) c.bindings ∧
          ((c.step (.evaluate expression)).2.step (.evaluate expression)).1 =
            (c.step (.evaluate expression)).1) := by
  have hbuilt : Trace.Built (fun _ _ => False) ⟨c.bindings, []⟩
      (traced c.precision nestingLimit expression ⟨c.bindings, []⟩) := traced_built _ _ _ _ _
  have hafter : (c.run expression).2 =
      ⟨(changesOf (c.deeds expression)).foldl Bindings.change c.bindings,
        callsOf (c.deeds expression)⟩ :=
    (congrArg Prod.snd (traced_outcome c.precision nestingLimit expression _)).symm.trans
      hbuilt.after_eq
  have hcalculator : (c.step (.evaluate expression)).2 =
      ⟨(changesOf (c.deeds expression)).foldl Bindings.change c.bindings, c.precision⟩ :=
    congrArg (fun e : Environment => (⟨e.bindings, c.precision⟩ : Calculator)) hafter
  refine ⟨hcalculator, congrArg Environment.calls hafter, fun maker change hmem => ?_, fun hidle => ?_⟩
  · exact (hbuilt.maker_called maker change hmem).resolve_left id
  · have hsame := Bindings.agreeOn_foldl_change hidle
    rw [hcalculator]
    exact ⟨hsame, answer_of_same hsame c.precision expression⟩

/-- A function that sets a variable to the value that it has. -/
theorem step_evaluate_changes_none :
    ((⟨(Bindings.empty.setFunction "f" ⟨Callback.settingVariable "x", some 1⟩).setVariable "x" 2.0,
        .exact⟩ : Calculator).step (.evaluate "f x")).2.bindings.AgreeOn (fun _ => True)
      ((Bindings.empty.setFunction "f" ⟨Callback.settingVariable "x", some 1⟩).setVariable "x" 2.0) ∧
    (((⟨(Bindings.empty.setFunction "f" ⟨Callback.settingVariable "x", some 1⟩).setVariable "x" 2.0,
        .exact⟩ : Calculator).step (.evaluate "f x")).2.step (.evaluate "f x")).1 =
      ((⟨(Bindings.empty.setFunction "f" ⟨Callback.settingVariable "x", some 1⟩).setVariable "x" 2.0,
        .exact⟩ : Calculator).step (.evaluate "f x")).1 := by
  generalize (2.0 : Float) = v
  generalize hf : (⟨Callback.settingVariable "x", some 1⟩ : CustomFunction) = function
  generalize hb : (Bindings.empty.setFunction "f" function).setVariable "x" v = b
  obtain ⟨-, hcalls, hmakers, hrepeat⟩ := step_evaluate_changes ⟨b, .exact⟩ "f x"
  have hrun : ((⟨b, .exact⟩ : Calculator).step (.evaluate "f x")).1.calls =
      [⟨"f", function, [v]⟩] := by
    let f : Name := ⟨['f'], by decide, by simp⟩
    let x : Name := ⟨['x'], by decide, by simp⟩
    let t : Tree .expression := .expression (.term (.bare f (.value x)) .nil) .nil
    have hw : t.WellFormed := ⟨⟨⟨trivial, rfl⟩, trivial⟩, trivial⟩
    have hs : Spaced t.tokens "f x".toList := by
      refine .token ?_ (.blank rfl (.token ?_ .nil))
      · exact fun _ _ _ _ => ⟨' ', rfl, rfl⟩
      · rintro - _ ⟨⟩
    have hvalue : t.eval (nested .exact) ⟨b, []⟩ =
        some (v, ⟨b.setVariable "x" v, [⟨"f", function, [v]⟩]⟩) := by
      subst hb hf
      rfl
    have htext := evaluateText_of_reads hw hs.reads hvalue
    exact congrArg (fun outcome => outcome.2.calls) htext
  refine hrepeat fun change hchange => ?_
  obtain ⟨deed, hdeed, hsome⟩ := List.mem_filterMap.mp hchange
  cases deed with
  | called call => cases hsome
  | changed maker made =>
    obtain rfl : made = change := Option.some.inj hsome
    obtain ⟨hmaker, hmakes⟩ := hmakers maker made hdeed
    rw [← hcalls, hrun, List.mem_singleton] at hmaker
    subst hmaker hf
    simp only [Call.Makes, Callback.settingVariable] at hmakes
    cases hmakes with
    | edit =>
      subst hb
      intro name _
      simp only [Bindings.change, Bindings.apply, Bindings.setVariable, Table.get?_put, and_true]
      split <;> rfl
    | afterEdit _ h => cases h

end Calculator

end Reckon
