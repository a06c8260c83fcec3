import Reckon.Proofs.Expression.Breakdown
import Reckon.Proofs.Expression.Position

/-!
# What an evaluation never does

A text can only be read where it goes on, a number only where a literal starts, and a function can
only be called on as many arguments as it asks for. The surroundings of this module check all this at
every step, and where it is not so, something else happens: a misuse, which may be anything at all.
As the evaluator does the same in them as in the unguarded ones, whatever a misuse may be, there is
none.
-/
namespace Reckon
open Grammar Number

namespace Builtin

/-- The function takes its first `n` arguments, and fails without one of them. -/
def Indexes (function : Builtin) (n : Nat) : Prop :=
  ∀ arguments : List Float,
    (n ≤ arguments.length → function.apply arguments = function.apply (arguments.take n)) ∧
    (arguments.length < n → function.apply arguments = .error .missingArgument)

theorem unary_indexes (f : Float → Float) : (unary f).Indexes 1 := by
  intro arguments
  match arguments with
  | [] => exact ⟨fun h => (Nat.not_succ_le_zero 0 h).elim, fun _ => rfl⟩
  | x :: more => exact ⟨fun _ => rfl, fun h => by simp at h⟩

theorem binary_indexes (f : Float → Float → Except Breakdown Float) : (binary f).Indexes 2 := by
  intro arguments
  match arguments with
  | [] => exact ⟨fun h => by simp at h, fun _ => rfl⟩
  | [_] => exact ⟨fun h => by simp at h, fun _ => rfl⟩
  | x :: y :: more => exact ⟨fun _ => rfl, fun h => by simp at h⟩

/-- A builtin function takes as many arguments as its arity says. -/
theorem indexes_of_arity :
    ∀ entry ∈ catalogue, ∀ n, entry.builtin.arity = some n → entry.builtin.Indexes n := by
  have hunary : ∀ f n, (unary f).arity = some n → (unary f).Indexes n := fun f n h =>
    Option.some.inj h ▸ unary_indexes f
  have hbinary : ∀ f n, (binary f).arity = some n → (binary f).Indexes n := fun f n h =>
    Option.some.inj h ▸ binary_indexes f
  have hvariadic : ∀ f n, (variadic f).arity = some n → (variadic f).Indexes n := fun f n h => by
    cases h
  simp only [catalogue, List.forall_mem_cons]
  and_intros
  all_goals first
    | exact hunary _
    | exact hbinary _
    | exact hvariadic _
    | exact List.forall_mem_nil _

end Builtin

/-- The breakdown of a function that is called on too few arguments. -/
def Breakdown.isShortage : Breakdown → Bool
  | .missingArgument | .noExtremum _ => true
  | _ => false

instance (c : Cursor) : Decidable c.InText :=
  decidable_of_iff (c.rest = c.text.drop c.pos ∧ c.pos ≤ c.text.length)
    ⟨fun h => ⟨h.1, h.2⟩, fun h => ⟨h.sound, h.pos_le⟩⟩

namespace Expression

/-- A step with guards. `misuse` is what happens instead where one of them does not hold. -/
def Guarded (_misuse : (α : Type) → Parse α) (α : Type) : Type := Parse α

namespace Guarded

variable {misuse : (α : Type) → Parse α} {α : Type}

instance : Monad (Guarded misuse) := inferInstanceAs (Monad Parse)

/-- Looks at the text and moves on in it, if the cursor stands in it. -/
def onCursor (operation : Cursor → α × Cursor) : Guarded misuse α := fun s =>
  if s.cursor.InText then Parse.onCursor operation s else misuse α s

/-- Scans a number, if a literal starts here. What is scanned must have a value. -/
def literal : Guarded misuse Float := do
  if ← onCursor fun c => (c.startsNumber, c) then
    match ← onCursor Cursor.scanNumber with
    | .ok value => return value
    | .error _ => misuse Float
  else misuse Float

/-- Calls a custom function, if its arity allows for the arguments. -/
def callCustom (evaluate : Evaluator) (name : String) (function : CustomFunction)
    (arguments : List Float) : Guarded misuse Float :=
  if admits (function.arity.map Int.ofNat) arguments.length then
    Parse.callCustom evaluate name function arguments
  else misuse Float

/-- Calls a builtin function, if its arity allows for the arguments. It must neither miss an
argument nor look for the greatest or least of none. -/
def callBuiltin (function : Builtin) (arguments : List Float) : Guarded misuse Float :=
  if admits (function.arity.map Int.ofNat) arguments.length then
    match function.apply arguments with
    | .ok value => return value
    | .error breakdown =>
      if breakdown.isShortage then misuse Float
      else (throw (.failed (.breakdown breakdown)) : Parse Float)
  else misuse Float

instance : Surroundings CustomFunction Evaluator (Guarded misuse) where
  arityOf := CustomFunction.arity
  onCursor := onCursor
  scanName := onCursor Cursor.scanIdentifier
  literal := literal
  meaningOf name _ := Parse.meaningOf name
  callCustom := callCustom
  callBuiltin _ := callBuiltin
  reject rejection := (throw (.failed (.fault rejection)) : Parse _)
  exhausted {α} := (throw .exhausted : Parse α)

/-- Evaluates a whole text, with guards. -/
def evaluateText (misuse : (α : Type) → Parse α) (evaluate : Evaluator) (text : List Char)
    (e : Environment) : Outcome :=
  let bound := boundFor text
  let run : Guarded misuse Float := wholeOf (expressionOf (factorWithin evaluate bound) bound)
  outcomeOf (run ⟨.ofText text, e⟩)

end Guarded

variable {α β : Type} {misuse : (α : Type) → Parse α} {evaluate : Evaluator} {s : State}

/-- From every place in a text the run does what the one with guards does. -/
def Guards (guarded : Guarded misuse α) (run : Parse α) : Prop :=
  ∀ s : State, s.cursor.InText → guarded s = run s

theorem Guards.refl (run : Parse α) : @Guards α misuse run run := fun _ _ => rfl

theorem Guards.bind {guarded : Guarded misuse α} {run : Parse α}
    {guardedNext : α → Guarded misuse β} {next : α → Parse β} (h : Guards guarded run)
    (hrun : Steady run) (hnext : ∀ a, Guards (guardedNext a) (next a)) :
    Guards (guarded >>= guardedNext) (run >>= next) :=
  fun s hs => bind_same (h s hs) fun a s' ha => hnext a s' (hrun.ahead hs ha).inText

theorem guards_onCursor (operation : Cursor → α × Cursor) :
    Guards (onCursor operation : Guarded misuse α) (onCursor operation) :=
  fun _ hs => if_pos hs

theorem guards_failAt (rejection : Option Char → Nat → Rejection) :
    Guards (failAt rejection : Guarded misuse α) (failAt rejection) :=
  (guards_onCursor _).bind (steady_onCursor fun _ hc => .refl hc) fun _ => .refl _

/-- Between names and literals no guard makes a difference. -/
theorem guarding (misuse : (α : Type) → Parse α) :
    Simulation fun α (guarded : Guarded misuse α) (run : Parse α) =>
      Guards guarded run ∧ Steady run where
  pure a := ⟨.refl _, steady_pure a⟩
  bind h hnext := ⟨h.1.bind h.2 fun a => (hnext a).1, h.2.bind fun a => (hnext a).2⟩
  onCursor h := ⟨guards_onCursor _, steady_onCursor h.advances⟩
  exhausted := ⟨.refl _, steady_exhausted⟩

theorem guards_close : Guards (close : Guarded misuse Unit) close := by
  refine (guards_onCursor _).bind (steady_onCursor (Cursor.advances_consumeIf [')']))
    fun found => ?_
  cases found with
  | true => exact .refl _
  | false =>
    exact (guards_onCursor _).bind (steady_onCursor fun _ hc => Cursor.ahead_skipBlanks hc)
      fun _ => guards_failAt .unbalanced

theorem guards_callCustom {name : String} {function : CustomFunction} {arguments : List Float}
    (h : admits (function.arity.map Int.ofNat) arguments.length = true) :
    Guards (callCustom evaluate name function arguments : Guarded misuse Float)
      (callCustom evaluate name function arguments) :=
  fun s _ => congrFun (if_pos h) s

/-- A builtin function that is found under its name has all that it needs. -/
theorem guards_callBuiltin {name : String} {function : Builtin} {arguments : List Float}
    (hname : Builtin.builtin? name = some function)
    (h : admits (function.arity.map Int.ofNat) arguments.length = true) :
    Guards (callBuiltin name function arguments : Guarded misuse Float)
      (callBuiltin name function arguments) := by
  intro s _
  refine (congrFun (if_pos h) s).trans ?_
  change _ = lift ((function.apply arguments).mapError .breakdown) s
  cases happly : function.apply arguments with
  | ok x => rfl
  | error breakdown =>
    obtain ⟨rfl, -⟩ := Builtin.breakdown_of_builtin? hname h happly
    rfl

/-- Behind the check of the arity its guard holds. -/
theorem Guards.bind_requireArity {name : String} {arity : Option Nat} {values : List Float}
    {guarded : Guarded misuse Float} {run : Parse Float}
    (h : admits (arity.map Int.ofNat) values.length = true → Guards guarded run) :
    Guards (requireArity name arity values >>= fun _ => guarded)
      (requireArity name arity values >>= fun _ => run) := by
  intro s hs
  have hcheck := requireArity_eq name arity values s
  have hsame : (requireArity name arity values : Guarded misuse Unit) s =
      (requireArity name arity values : Parse Unit) s := by
    simp only [requireArity]
    cases checkCall name arity values <;> rfl
  refine bind_same hsame fun _ s' hdone => ?_
  rw [hcheck] at hdone
  split at hdone
  case isTrue hadmits =>
    obtain ⟨-, rfl⟩ := EStateM.Result.ok.inj hdone
    exact h hadmits s hs
  case isFalse => cases hdone

theorem guards_resolve {guarded : Guarded misuse (List Float)} {arguments : Parse (List Float)}
    (h : Guards guarded arguments) (ha : Steady arguments) (name : String) (start : Nat) :
    Guards (resolve evaluate guarded name start) (resolve evaluate arguments name start) := by
  intro s hs
  refine bind_same rfl fun meaning s' hmeaning => ?_
  obtain ⟨hfound, rfl⟩ := EStateM.Result.ok.inj hmeaning
  match meaning with
  | .variable _ | .constant _ | .unknown => rfl
  | .custom function =>
    exact h.bind ha (fun values => .bind_requireArity fun hadmits => guards_callCustom hadmits) s hs
  | .builtin function =>
    have hname := Bindings.builtin?_of_meaning hfound
    exact h.bind ha (fun values => .bind_requireArity fun hadmits =>
      guards_callBuiltin hname hadmits) s hs

/-- A number is only scanned where a literal starts, and then it has a value. -/
theorem guards_literalOrFail : Guards (literalOrFail : Guarded misuse Float) literalOrFail := by
  rintro ⟨c, e⟩ hs
  have hguard : (onCursor fun c => (c.startsNumber, c) : Guarded misuse Bool) ⟨c, e⟩ =
      .ok c.startsNumber ⟨c, e⟩ := guards_onCursor _ _ hs
  have hfirst : (literalOrFail : Guarded misuse Float) ⟨c, e⟩ =
      (if c.startsNumber = true then (literal : Guarded misuse Float)
        else failAt .unexpected) ⟨c, e⟩ := bind_ok hguard
  rw [hfirst]
  cases hstarts : c.startsNumber with
  | false =>
    rw [literalOrFail_fail hstarts]
    exact guards_failAt .unexpected _ hs
  | true =>
    rw [hstarts] at hguard
    have hscan : (onCursor Cursor.scanNumber : Guarded misuse _) ⟨c, e⟩ =
        .ok (.ok (Numeral.scan c.rest).1.toFloat)
          ⟨c.forward (Numeral.scan c.rest).1.text.length, e⟩ := by
      rw [guards_onCursor _ _ hs]
      change Parse.onCursor _ _ = _
      rw [Parse.onCursor, scanNumber_eq hstarts]
    rw [literalOrFail_literal hstarts, literal_eq hstarts]
    exact (bind_ok hguard).trans (bind_ok hscan)

theorem guards_operand (evaluate : Evaluator) {guarded : Guarded misuse (List Float)}
    {arguments : Parse (List Float)} (h : Guards guarded arguments) (ha : Steady arguments) :
    Guards (operand evaluate guarded) (operand evaluate arguments) := by
  refine (guards_onCursor _).bind (steady_onCursor fun _ hc => Cursor.ahead_skipBlanks hc)
    fun _ => (guards_onCursor _).bind (steady_onCursor fun _ hc => .refl hc) fun start =>
      (guards_onCursor _).bind (steady_onCursor Cursor.advances_scanIdentifier) fun found => ?_
  cases found with
  | none => exact guards_literalOrFail
  | some name => exact guards_resolve h ha name start

theorem guards_whole (misuse : (α : Type) → Parse α) (evaluate : Evaluator) (bound : Nat) :
    Guards (wholeOf (expressionOf (factorWithin evaluate bound) bound) : Guarded misuse Float)
      (whole evaluate bound) := by
  have hfactor := (guarding misuse).factorWithin ⟨guards_close, close_steady⟩ (fun bound hi => by
    have harguments := (guarding misuse).argumentsOf hi bound ⟨guards_close, close_steady⟩
    exact ⟨guards_operand evaluate harguments.1 harguments.2,
      operand_steady harguments.2⟩) bound
  have hexpression := (guarding misuse).expressionOf hfactor bound
  refine hexpression.1.bind hexpression.2 fun value =>
    (guards_onCursor _).bind (steady_onCursor fun _ hc => .refl hc) fun ends => ?_
  cases ends with
  | true => exact .refl _
  | false => exact guards_failAt .unexpected

/-- Whatever a misuse would do, no evaluation of a text does it, under any tables: the text is only
looked at from places within its bounds, a number is only scanned where a digit or a point stands
and always has a value, and functions are only called on as many arguments as their arity allows
for, builtin ones on exactly as many as they take, or on at least one. -/
theorem evaluateText_guarded (misuse : (α : Type) → Parse α) (evaluate : Evaluator)
    (text : List Char) (e : Environment) :
    Guarded.evaluateText misuse evaluate text e = evaluateText evaluate text e ∧
      ∀ entry ∈ Builtin.catalogue, ∀ n, entry.builtin.arity = some n → entry.builtin.Indexes n := by
  refine ⟨?_, Builtin.indexes_of_arity⟩
  rw [Guarded.evaluateText, guards_whole misuse evaluate _ _ (Cursor.inText_ofText text),
    evaluateText_eq, Cursor.ofText_eq]
  rfl

/-- A call of a builtin function, where a misuse would give up. -/
theorem evaluateText_guarded_power :
    Guarded.evaluateText (fun _ => throw .exhausted) (evaluateWithin .exact 0) "pow(2, 3)".toList
        ⟨.empty, []⟩ =
      evaluateText (evaluateWithin .exact 0) "pow(2, 3)".toList ⟨.empty, []⟩ ∧
    (Builtin.unary Float.abs).Indexes 1 := by
  obtain ⟨hguarded, hindexes⟩ := evaluateText_guarded (fun _ => throw .exhausted)
    (evaluateWithin .exact 0) "pow(2, 3)".toList ⟨.empty, []⟩
  exact ⟨hguarded, hindexes _ List.mem_cons_self 1 rfl⟩

end Expression

end Reckon
