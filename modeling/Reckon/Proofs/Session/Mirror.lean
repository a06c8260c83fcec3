import Reckon.Proofs.Expression.Simulation
import Reckon.Proofs.Expression.Step
import Reckon.Proofs.Session.Separation

/-!
# Evaluations in a shared memory

An evaluation in a sound memory goes like the one in the environment that its evaluator sees, and
nothing is written on the way but that evaluator's tables. The evaluator is the same in both
surroundings, so only its operations need to be compared.
-/
namespace Reckon
open Expression

/-- What an evaluator sees of a world. -/
def World.environment (w : World) (a : Address) : Environment := ⟨w.memory.bindings a, w.calls⟩

/-- What has come of something that an evaluator does in a world is what comes of it in the
environment that the evaluator sees, and other evaluators have not noticed. -/
structure Mirrors {α : Type} (a : Address) (w : World) (outcome : Except Failure α × World)
    (seen : Except Failure α × Environment) : Prop where
  result : outcome.1 = seen.1
  environment : outcome.2.environment a = seen.2
  only : w.memory.Only a outcome.2.memory

/-- In the worlds that hold `object` at the address, an evaluation there mirrors the other one. -/
def Resident.Shows (evaluate : Resident) (a : Address) (object : Instance)
    (evaluator : Evaluator) : Prop :=
  ∀ expression w, w.memory.Holds a object →
    Mirrors a w (evaluate a expression w) (evaluator expression (w.environment a))

section Calls
variable {evaluate : Resident} {evaluator : Evaluator} {a : Address} {object : Instance}
  {w w' : World}
  (h : evaluate.Shows a object evaluator)

theorem Mirrors.after {α : Type} {outcome : Except Failure α × World}
    {seen : Except Failure α × Environment} (h : Mirrors a w' outcome seen)
    (hw : w.memory.Only a w'.memory) : Mirrors a w outcome seen :=
  ⟨h.result, h.environment, hw.trans h.only⟩

include h

theorem Action.performAt_mirrors (action : Action) (hw : w.memory.Holds a object) :
    Mirrors a w (action.performAt evaluate a w) (action.perform evaluator (w.environment a)) := by
  induction action generalizing w with
  | give result => exact ⟨rfl, rfl, .refl hw.sound⟩
  | fail failure => exact ⟨rfl, rfl, .refl hw.sound⟩
  | evaluate expression next ih =>
    obtain ⟨hresult, henvironment, honly⟩ := h expression w hw
    simp only [performAt, perform, ← hresult, ← henvironment]
    exact (ih _ (honly.holds hw)).after honly
  | edit change next ih =>
    have honly := Memory.only_edit hw.sound hw.lt change
    have hnext := ih (w := { w with memory := w.memory.edit a change }) (honly.holds hw)
    rw [World.environment, Memory.bindings_edit] at hnext
    exact hnext.after honly
  | define name callback arity next _ ih =>
    have honly := Memory.only_define hw.sound hw.lt name ⟨callback, arity⟩
    have hnext := ih (w := { w with memory := w.memory.define a name ⟨a, ⟨callback, arity⟩⟩ })
      (honly.holds hw)
    rw [World.environment, Memory.bindings_define] at hnext
    exact hnext.after honly

theorem Closure.call_mirrors {closure : Closure} (howner : closure.owner = a) (name : String)
    (arguments : List Float) (hw : w.memory.Holds a object) :
    Mirrors a w (closure.call evaluate name arguments w)
      (closure.function.call evaluator name arguments (w.environment a)) := by
  subst howner
  obtain ⟨hresult, henvironment, honly⟩ := Action.performAt_mirrors h
    (closure.function.callback arguments)
    (w := { w with calls := w.calls ++ [⟨name, closure.function, arguments⟩] }) hw
  exact ⟨congrArg (Except.mapError (Failure.inCall name)) hresult, henvironment, honly⟩

end Calls

namespace Expression

/-- What the evaluator at an address sees of a place in an evaluation. -/
def Site.seen (a : Address) (s : Site) : State := ⟨s.cursor, s.world.environment a⟩

variable {α β : Type} {a : Address} {object : Instance} {evaluate : Resident} {evaluator : Evaluator}

/-- A run in a world comes to the same as the one that the evaluator sees. -/
inductive SameRun (a : Address) (w : World) :
    EStateM.Result Halt Site α → EStateM.Result Halt State α → Prop
  | ok (value : α) (s : Site) (h : w.memory.Only a s.world.memory) :
      SameRun a w (.ok value s) (.ok value (s.seen a))
  | error (halt : Halt) (s : Site) (h : w.memory.Only a s.world.memory) :
      SameRun a w (.error halt s) (.error halt (s.seen a))

/-- From every site that holds the evaluator, the step does what the other one does. -/
def Tracks (a : Address) (run : Tied object α) (parse : Parse α) : Prop :=
  ∀ s : Site, s.world.memory.Holds a object → SameRun a s.world (run s) (parse (s.seen a))

theorem SameRun.after {w w' : World} {r : EStateM.Result Halt Site α}
    {r' : EStateM.Result Halt State α} (h : SameRun a w' r r') (hw : w.memory.Only a w'.memory) :
    SameRun a w r r' := by
  cases h with
  | ok value s h => exact .ok value s (hw.trans h)
  | error halt s h => exact .error halt s (hw.trans h)

theorem Tracks.bind {run : Tied object α} {parse : Parse α} {next : α → Tied object β}
    {parseNext : α → Parse β} (h : Tracks a run parse)
    (hnext : ∀ x, Tracks a (next x) (parseNext x)) :
    Tracks a (run >>= next) (parse >>= parseNext) := by
  intro s hs
  change SameRun a s.world (EStateM.bind run next s) (EStateM.bind parse parseNext (s.seen a))
  have hrun := h s hs
  simp only [EStateM.bind]
  generalize run s = r at hrun ⊢
  generalize parse (s.seen a) = r' at hrun ⊢
  cases hrun with
  | ok value s' honly => exact (hnext value s' (honly.holds hs)).after honly
  | error halt s' honly => exact .error halt s' honly

theorem tracks_onCursor (operation : Cursor → α × Cursor) :
    Tracks a (onCursor operation : Tied object α) (onCursor operation) :=
  fun s hs => .ok (operation s.cursor).1 { s with cursor := (operation s.cursor).2 } (.refl hs.sound)

theorem tracking (a : Address) (object : Instance) :
    Simulation fun α (run : Tied object α) (parse : Parse α) => Tracks a run parse where
  pure x := fun s hs => .ok x s (.refl hs.sound)
  bind := Tracks.bind
  onCursor _ := tracks_onCursor _
  exhausted := fun s hs => .error .exhausted s (.refl hs.sound)

theorem tracks_reject (rejection : Rejection) :
    Tracks a (reject rejection : Tied object α) (reject rejection) :=
  fun s hs => .error (.failed (.fault rejection)) s (.refl hs.sound)

theorem tracks_failAt (rejection : Option Char → Nat → Rejection) :
    Tracks a (failAt rejection : Tied object α) (failAt rejection) :=
  (tracks_onCursor _).bind fun _ => tracks_reject _

theorem tracks_act {effect : Effect α} (outcome : Environment → Except Failure α × Environment)
    (h : ∀ w : World, w.memory.Holds a object → Mirrors a w (effect w) (outcome (w.environment a))) :
    Tracks a (Tied.act effect : Tied object α) fun s =>
      lift (outcome s.environment).1 { s with environment := (outcome s.environment).2 } := by
  intro s hs
  obtain ⟨hresult, henvironment, honly⟩ := h s.world hs
  simp only [Tied.act, Site.seen, ← hresult, ← henvironment]
  generalize effect s.world = result at honly ⊢
  obtain ⟨failure | value, w⟩ := result
  · exact .error (.failed failure) { s with world := w } honly
  · exact .ok value { s with world := w } honly

/-- A result that needs no memory. -/
theorem tracks_result (result : Except Failure α) :
    Tracks a (Tied.act fun w => (result, w) : Tied object α) (lift result) :=
  tracks_act (fun e => (result, e)) fun _ hw => ⟨rfl, rfl, .refl hw.sound⟩

theorem tracks_close : Tracks a (close : Tied object Unit) close :=
  (tracks_onCursor _).bind fun found => by
    cases found with
    | true => exact (tracking a object).pure ()
    | false => exact (tracks_onCursor _).bind fun _ => tracks_failAt _

theorem tracks_literalOrFail : Tracks a (literalOrFail : Tied object Float) literalOrFail :=
  (tracks_onCursor _).bind fun starts => by
    cases starts with
    | true => exact (tracks_onCursor _).bind fun _ => tracks_result _
    | false => exact tracks_failAt _

theorem tracks_requireArity (name : String) (arity : Option Nat) (values : List Float) :
    Tracks a (requireArity name arity values : Tied object Unit)
      (requireArity name arity values) := by
  simp only [requireArity]
  cases checkCall name arity values with
  | ok _ => exact (tracking a object).pure ()
  | error rejection => exact tracks_reject rejection

/-- A function is called only if it works on the evaluator that has found it. -/
theorem tracks_valueOf (h : evaluate.Shows a object evaluator)
    {arguments : Tied object (List Float)} {parse : Parse (List Float)}
    (ha : Tracks a arguments parse) (name : String) (start : Nat) {found : Meaning Closure}
    (hown : ∀ closure, found = .custom closure → closure.owner = a) :
    Tracks a (valueOf evaluate arguments name start found)
      (valueOf evaluator parse name start (found.map Closure.function)) := by
  match found with
  | .variable value => exact (tracking a object).pure value
  | .custom closure =>
    exact ha.bind fun values => (tracks_requireArity name _ values).bind fun _ =>
      tracks_act _ fun w hw => closure.call_mirrors h (hown closure rfl) name values hw
  | .constant value => exact (tracking a object).pure value
  | .builtin function =>
    exact ha.bind fun values => (tracks_requireArity name _ values).bind fun _ => tracks_result _
  | .unknown => exact tracks_reject _

theorem tracks_resolve (h : evaluate.Shows a object evaluator)
    {arguments : Tied object (List Float)} {parse : Parse (List Float)}
    (ha : Tracks a arguments parse) (name : String) (start : Nat) :
    Tracks a (resolve evaluate arguments name start) (resolve evaluator parse name start) := by
  intro s hs
  let tables : Bindings Closure := ⟨s.world.memory.numbersOf a, s.world.memory.functionsOf a⟩
  have hown : ∀ closure, tables.meaning name = .custom closure → closure.owner = a :=
    fun closure hcustom => hs.sound.owner a hs.lt name closure (Bindings.get?_of_meaning hcustom)
  have hseen : (s.seen a).environment.bindings.meaning name =
      (tables.meaning name).map Closure.function := Bindings.meaning_map ..
  have hparse : resolve evaluator parse name start (s.seen a) =
      valueOf evaluator parse name start ((tables.meaning name).map Closure.function)
        (s.seen a) := by
    rw [resolve, bind_ok meaningOf_eq, hseen]
  obtain ⟨-, -, rfl⟩ := id hs
  rw [hparse]
  exact tracks_valueOf h ha name start hown s hs

theorem tracks_operand (h : evaluate.Shows a object evaluator) {arguments : Tied object (List Float)}
    {parse : Parse (List Float)} (ha : Tracks a arguments parse) :
    Tracks a (operand evaluate arguments) (operand evaluator parse) :=
  (tracks_onCursor _).bind fun _ => (tracks_onCursor _).bind fun start =>
    (tracks_onCursor _).bind fun found => by
      cases found with
      | none => exact tracks_literalOrFail
      | some name => exact tracks_resolve h ha name start

theorem tracks_whole (h : evaluate.Shows a object evaluator) (bound : Nat) :
    Tracks a (wholeOf (expressionOf (factorWithin evaluate bound) bound) : Tied object Float)
      (whole evaluator bound) :=
  (tracking a object).wholeOf ((tracking a object).expressionOf ((tracking a object).factorWithin
    tracks_close (fun bound hi => tracks_operand h
      ((tracking a object).argumentsOf hi bound tracks_close)) bound) bound) (tracks_failAt _)

end Expression

theorem evaluateAtWith_shows {inner : Resident} {evaluator : Evaluator} {a : Address}
    {object : Instance} (h : inner.Shows a object evaluator) :
    (evaluateAtWith inner).Shows a object (evaluateWith evaluator object.precision) := by
  intro expression w hw
  obtain ⟨hsound, hlt, rfl⟩ := hw
  by_cases hempty : expression.isEmpty = true
  · simp only [evaluateAtWith, evaluateWith, hempty, if_true]
    exact ⟨rfl, rfl, .refl hsound⟩
  · have hrun := tracks_whole h (boundFor expression.toList) ⟨.ofText expression.toList, w⟩
      ⟨hsound, hlt, rfl⟩
    simp only [evaluateAtWith, evaluateWith, hempty, evaluateText]
    change SameRun a w _ (whole evaluator _ ⟨.ofText expression.toList, w.environment a⟩) at hrun
    generalize whole evaluator _ ⟨.ofText expression.toList, w.environment a⟩ = seen at hrun ⊢
    generalize (wholeOf _ : Tied _ Float) ⟨.ofText expression.toList, w⟩ = run at hrun ⊢
    cases hrun with
    | ok value s honly =>
      refine ⟨?_, rfl, honly⟩
      simp only [honly.instances]
      rfl
    | error halt s honly => exact ⟨rfl, rfl, honly⟩

theorem evaluateAt_shows (depth : Nat) (a : Address) (object : Instance) :
    (evaluateAt depth).Shows a object (evaluateWithin object.precision depth) := by
  induction depth with
  | zero => exact evaluateAtWith_shows fun _ _ hw => ⟨rfl, rfl, .refl hw.sound⟩
  | succ depth ih => exact evaluateAtWith_shows ih

end Reckon
