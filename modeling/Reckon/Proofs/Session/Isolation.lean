import Reckon.Proofs.Session.Mirror
import Reckon.Proofs.Session.Schedule

/-!
# Evaluators in a shared memory do not disturb one another

As long as functions are only added to the evaluators that they work on, the memory stays sound, and
what is asked of an evaluator is what is asked of the calculator of that name in a session. So no
evaluator notices the others.
-/
namespace Reckon
open Expression

namespace Memory

variable {m : Memory} {a : Address}

/-- What has come of a step in a memory is what comes of it for the calculator that an evaluator
shows, and other evaluators are as they were. -/
structure CarriesOut (m : Memory) (a : Address) (step : Step) (result : Answer × Memory) :
    Prop where
  answer : result.1 = ((m.calculator a).step step).1
  after : result.2.calculator a = ((m.calculator a).step step).2
  alters : m.Alters a result.2

section Steps
variable (hm : m.Sound) (ha : a < m.instances.free)
include hm ha

theorem edit_self (change : Edit) :
    (m.edit a change).calculator a =
      { m.calculator a with bindings := (m.calculator a).bindings.apply change } := by
  rw [(only_edit hm ha change).calculator_self, bindings_edit]
  rfl

theorem alters_edit (change : Edit) : m.Alters a (m.edit a change) :=
  (only_edit hm ha change).alters hm ha

theorem carriesOut_addVariable (name : String) (value : Given) :
    m.CarriesOut a (.addVariable name value) (m.accept (m.addVariable a name value)) := by
  simp only [addVariable]
  cases hvalue : value.toVariable with
  | error breakdown =>
    refine ⟨?_, ?_, .refl hm⟩ <;>
      simp [accept, Except.map, Calculator.step, Calculator.addVariable, hvalue, Calculator.accept]
  | ok x =>
    refine ⟨?_, (edit_self hm ha _).trans ?_, alters_edit hm ha (.setVariable name x)⟩ <;>
      simp [accept, Except.map, Calculator.step, Calculator.addVariable, hvalue, Calculator.accept,
        Bindings.apply]

/-- Several variables are defined as one after another. -/
theorem addVariables_eq (pairs : List (String × Given)) :
    (m.addVariables a pairs).1 = ((m.calculator a).addVariables pairs).1 ∧
      (m.addVariables a pairs).2.calculator a = ((m.calculator a).addVariables pairs).2 ∧
      m.Alters a (m.addVariables a pairs).2 := by
  induction pairs generalizing m with
  | nil => exact ⟨rfl, rfl, .refl hm⟩
  | cons pair pairs ih =>
    obtain ⟨name, value⟩ := pair
    simp only [addVariables, addVariable, Calculator.addVariables, Calculator.addVariable]
    cases value.toVariable with
    | error breakdown => exact ⟨rfl, rfl, .refl hm⟩
    | ok x =>
      have halters := alters_edit hm ha (.setVariable name x)
      obtain ⟨hresult, hafter, hmore⟩ := ih halters.sound (by rw [halters.free]; exact ha)
      rw [edit_self hm ha] at hresult hafter
      exact ⟨hresult, hafter, halters.trans hmore⟩

theorem carriesOut_addVariables (pairs : List (String × Given)) :
    let added := m.addVariables a pairs
    m.CarriesOut a (.addVariables pairs) (added.1.elim .done .rejected, added.2) := by
  obtain ⟨hresult, hafter, halters⟩ := addVariables_eq hm ha pairs
  exact ⟨by simp only [Calculator.step, hresult], hafter, halters⟩

theorem carriesOut_addFunction (name : String) (candidate : Candidate) (arity : Datum) :
    m.CarriesOut a (.addFunction name candidate arity)
      (m.accept (m.addFunction a a name candidate arity)) := by
  match candidate with
  | .value v => exact ⟨rfl, rfl, .refl hm⟩
  | .callback f =>
    simp only [addFunction]
    cases harity : arity.toArity name with
    | error breakdown =>
      refine ⟨?_, ?_, .refl hm⟩ <;>
        simp [accept, Except.map, Calculator.step, Calculator.addFunction, harity, Calculator.accept]
    | ok n =>
      have honly := only_define hm ha name ⟨f, n⟩
      refine ⟨?_, honly.calculator_self.trans ?_, honly.alters hm ha⟩
      · simp [accept, Except.map, Calculator.step, Calculator.addFunction, harity, Calculator.accept]
      · rw [bindings_define]
        simp [Except.map, Calculator.step, Calculator.addFunction, harity, Calculator.accept,
          calculator]

theorem carriesOut_evaluate (expression : String) :
    let outcome := evaluateAt nestingLimit a expression ⟨m, []⟩
    m.CarriesOut a (.evaluate expression)
      (⟨outcome.1.map some, outcome.2.calls⟩, outcome.2.memory) := by
  obtain ⟨hresult, henvironment, honly⟩ := evaluateAt_shows nestingLimit a (m.instances.cell a)
    expression ⟨m, []⟩ ⟨hm, ha, rfl⟩
  refine ⟨?_, honly.calculator_self.trans ?_, honly.alters hm ha⟩
  · exact congrArg₂ Answer.mk (congrArg (Except.map some) hresult)
      (congrArg Environment.calls henvironment)
  · exact congrArg (fun e : Environment => { m.calculator a with bindings := e.bindings })
      henvironment

end Steps

end Memory

/-- A function is added to no other evaluator than the one that it works on. -/
def Request.Confined (r : Request) : Prop := r.owner = r.on

namespace Store

variable {s : Store} {session : Session} {name : String}

/-- What the evaluator of a name shows. A name that has not been used yet shows a new one. -/
def calculator (s : Store) (name : String) : Calculator :=
  match s.names.get? name with
  | some a => s.memory.calculator a
  | none => .new .exact

/-- Different names are those of different evaluators, which have tables of their own. -/
structure Sound (s : Store) : Prop where
  memory : s.memory.Sound
  lt : ∀ name a, s.names.get? name = some a → a < s.memory.instances.free
  unique : ∀ name other a, s.names.get? name = some a → s.names.get? other = some a → name = other

theorem sound_empty : empty.Sound :=
  ⟨Memory.sound_empty, (fun _ _ h => by cases h), (fun _ _ _ h => by cases h)⟩

theorem calculator_of_get? {a : Address} (h : s.names.get? name = some a) :
    s.calculator name = s.memory.calculator a := by
  rw [calculator, h]

theorem create_sound (hs : s.Sound) (name : String) (precision : Precision) :
    (s.create name precision).Sound := by
  refine ⟨Memory.sound_create hs.memory precision, fun other a h => ?_, fun first second a h h' => ?_⟩
  · rw [create, Table.get?_put] at h
    split at h
    · rw [← Option.some.inj h]
      exact Nat.lt_succ_self _
    · exact (hs.lt other a h).trans (Nat.lt_succ_self _)
  · rw [create, Table.get?_put] at h h'
    split at h <;> split at h'
    next hfirst hsecond => exact hfirst.trans hsecond.symm
    next => exact absurd (hs.lt _ _ h') (by rw [Option.some.inj h]; exact lt_irrefl a)
    next => exact absurd (hs.lt _ _ h) (by rw [Option.some.inj h']; exact lt_irrefl a)
    next => exact hs.unique first second a h h'

theorem calculator_create (hs : s.Sound) (name other : String) (precision : Precision) :
    (s.create name precision).calculator other =
      if other = name then .new precision else s.calculator other := by
  simp only [calculator, create, Table.get?_put]
  by_cases h : other = name
  · simp only [h, if_true, Memory.calculator_create]
  · simp only [h, if_false]
    cases hget : s.names.get? other with
    | none => rfl
    | some a => exact Memory.calculator_create_of_lt hs.memory (hs.lt other a hget) precision

/-- Where an evaluator is located, it is, and nothing has changed for the others. -/
theorem locate_spec (hs : s.Sound) (name : String) :
    (s.locate name).2.Sound ∧ (s.locate name).2.names.get? name = some (s.locate name).1 ∧
      ∀ other, (s.locate name).2.calculator other = s.calculator other := by
  rw [locate]
  cases hget : s.names.get? name with
  | some a => exact ⟨hs, hget, fun _ => rfl⟩
  | none =>
    refine ⟨create_sound hs name .exact, ?_, fun other => ?_⟩
    · simp only [create, Table.get?_put, if_true]
    · rw [calculator_create hs]
      split
      next h => rw [h, calculator, hget]
      next => rfl

theorem locate_of_get? {a : Address} (h : s.names.get? name = some a) : s.locate name = (a, s) := by
  rw [locate, h]

/-- The store shows what the session holds. -/
structure Shows (s : Store) (session : Session) : Prop where
  sound : s.Sound
  calculator_eq : ∀ name, s.calculator name = session.calculator name

theorem Shows.create (h : s.Shows session) (name : String) (precision : Precision) :
    (s.create name precision).Shows (session.step name (.create precision)).2 := by
  refine ⟨create_sound h.sound name precision, fun other => ?_⟩
  rw [calculator_create h.sound]
  by_cases hother : other = name
  · subst hother
    rw [if_pos rfl, Session.calculator_step_self]
    rfl
  · rw [if_neg hother, Session.calculator_step_of_ne _ hother, h.calculator_eq]

/-- A change of one evaluator's tables is seen under its own name alone. -/
theorem alters_memory (hs : s.Sound) {a : Address} (hget : s.names.get? name = some a) {m : Memory}
    (h : s.memory.Alters a m) :
    (⟨s.names, m⟩ : Store).Sound ∧ (⟨s.names, m⟩ : Store).calculator name = m.calculator a ∧
      ∀ other, other ≠ name → (⟨s.names, m⟩ : Store).calculator other = s.calculator other := by
  refine ⟨⟨h.sound, fun other b hb => ?_, hs.unique⟩, calculator_of_get? hget,
    fun other hother => ?_⟩
  · rw [h.free]
    exact hs.lt other b hb
  · simp only [calculator]
    cases hb : s.names.get? other with
    | none => rfl
    | some b =>
      refine h.others b (hs.lt other b hb) ?_
      rintro rfl
      exact hother (hs.unique other name b hb hget)

/-- Work on an evaluator that carries out a step for it is a step of the session. -/
theorem Shows.work (h : s.Shows session) {step : Step} {f : Memory → Address → Answer × Memory}
    (hf : let located := s.locate name
      located.2.memory.Sound → located.1 < located.2.memory.instances.free →
        located.2.memory.CarriesOut located.1 step (f located.2.memory located.1)) :
    (s.work name f).1 = (session.step name step).1 ∧
      (s.work name f).2.Shows (session.step name step).2 := by
  obtain ⟨hsound, hget, hsame⟩ := locate_spec h.sound name
  obtain ⟨hanswer, hafter, halters⟩ := hf hsound.memory (hsound.lt name _ hget)
  have hself : (s.locate name).2.memory.calculator (s.locate name).1 = session.calculator name := by
    rw [← calculator_of_get? hget, hsame, h.calculator_eq]
  rw [hself] at hanswer hafter
  obtain ⟨hsound', hown, hothers⟩ := alters_memory hsound hget halters
  refine ⟨hanswer, hsound', fun other => ?_⟩
  by_cases hother : other = name
  · subst hother
    rw [Session.calculator_step_self]
    exact hown.trans hafter
  · rw [Session.calculator_step_of_ne _ hother]
    exact (hothers other hother).trans ((hsame other).trans (h.calculator_eq other))

/-- In a store a confined request is answered as in a session. -/
theorem Shows.step (h : s.Shows session) {r : Request} (hr : r.Confined) :
    (s.step r).1 = (session.step r.on r.step).1 ∧
      (s.step r).2.Shows (session.step r.on r.step).2 := by
  obtain ⟨on, step, owner⟩ := r
  obtain rfl : owner = on := hr
  match step with
  | .create precision => exact ⟨rfl, h.create _ precision⟩
  | .addVariable name value =>
    exact h.work fun hm ha => Memory.carriesOut_addVariable hm ha name value
  | .addVariables pairs => exact h.work fun hm ha => Memory.carriesOut_addVariables hm ha pairs
  | .removeVariable name =>
    exact h.work fun hm ha =>
      ⟨rfl, Memory.edit_self hm ha _, Memory.alters_edit hm ha (.removeVariable name)⟩
  | .removeFunction name =>
    exact h.work fun hm ha =>
      ⟨rfl, Memory.edit_self hm ha _, Memory.alters_edit hm ha (.removeFunction name)⟩
  | .setPrecision precision =>
    exact h.work fun hm _ =>
      ⟨rfl, Memory.calculator_setPrecision precision, Memory.alters_setPrecision hm _ precision⟩
  | .evaluate expression =>
    exact h.work fun hm ha => Memory.carriesOut_evaluate hm ha expression
  | .addFunction name candidate arity =>
    -- the owner is located first, and is then found to be the same evaluator
    obtain ⟨hsound, hget, hsame⟩ := locate_spec h.sound owner
    have hshows : (s.locate owner).2.Shows session :=
      ⟨hsound, fun other => (hsame other).trans (h.calculator_eq other)⟩
    refine hshows.work fun hm ha => ?_
    rw [locate_of_get? hget] at hm ha ⊢
    exact Memory.carriesOut_addFunction hm ha name candidate arity

theorem Shows.steps (h : s.Shows session) {schedule : List Request}
    (hc : ∀ r ∈ schedule, r.Confined) :
    (s.steps schedule).1 = (session.steps (schedule.map fun r => (r.on, r.step))).1 ∧
      (s.steps schedule).2.Shows (session.steps (schedule.map fun r => (r.on, r.step))).2 := by
  induction schedule generalizing s session with
  | nil => exact ⟨rfl, h⟩
  | cons r schedule ih =>
    obtain ⟨hr, hschedule⟩ := List.forall_mem_cons.mp hc
    obtain ⟨hanswer, hafter⟩ := h.step hr
    obtain ⟨hanswers, hlast⟩ := ih hafter hschedule
    exact ⟨congrArg₂ (fun answer answers => (r.on, answer) :: answers) hanswer hanswers, hlast⟩

theorem empty_shows : Store.empty.Shows Table.empty := ⟨sound_empty, fun _ => rfl⟩

/-- Evaluators that share a memory do not disturb one another, whatever they are asked for and in
whichever order, as long as every function is added to the evaluator that its callback works on.
What an evaluator answers, the calls in that and the tables that it ends with are those of a new
calculator that carries out the evaluator's own steps alone. -/
theorem steps_isolated (schedule : List Request) (h : ∀ r ∈ schedule, r.Confined) (name : String) :
    let shared := Store.empty.steps schedule
    let alone := (Calculator.new .exact).steps
      (Session.own name (schedule.map fun r => (r.on, r.step)))
    Session.own name shared.1 = alone.1 ∧ shared.2.calculator name = alone.2 := by
  obtain ⟨hanswers, hafter⟩ := empty_shows.steps h
  obtain ⟨hown, hlast⟩ :=
    Session.own_steps name .empty (schedule.map fun r => (r.on, r.step))
  exact ⟨(congrArg (Session.own name) hanswers).trans hown,
    (hafter.calculator_eq name).trans hlast⟩

/-- Two evaluators in turns, each with a function of the same name that sets a variable of its own,
and a step that is rejected in between. -/
theorem steps_isolated_turns :
    let f : Step := .addFunction "f" (.callback (Callback.settingVariable "x")) (.integer 1)
    let schedule : List Request :=
      [⟨"a", f, "a"⟩, ⟨"b", f, "b"⟩, ⟨"a", .evaluate "f 1 + x", "a"⟩,
        ⟨"b", .addVariable "x" (.record []), "b"⟩, ⟨"b", .evaluate "x", "b"⟩]
    let shared := Store.empty.steps schedule
    let alone := (Calculator.new .exact).steps
      [f, .addVariable "x" (.record []), .evaluate "x"]
    Session.own "b" shared.1 = alone.1 ∧ shared.2.calculator "b" = alone.2 ∧
      alone.2.bindings.numbers.names = [] := by
  intro f schedule shared alone
  obtain ⟨hanswers, hafter⟩ := steps_isolated schedule (by simp [schedule, Request.Confined]) "b"
  exact ⟨hanswers, hafter, by decide +kernel⟩

/-- A function that is added to another evaluator than the one it works on does disturb that one. -/
example :
    let schedule : List Request :=
      [⟨"b", .addFunction "f" (.callback (Callback.settingVariable "x")) (.integer 1), "a"⟩,
        ⟨"b", .evaluate "f 1", "b"⟩]
    ((Store.empty.steps schedule).2.calculator "a").bindings.numbers.names = ["x"] := by
  decide +kernel

end Store

end Reckon
