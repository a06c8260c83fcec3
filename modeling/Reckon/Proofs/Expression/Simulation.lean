import Reckon.Proofs.Cursor.Advance
import Reckon.Proofs.Grammar.Tree

/-!
# Evaluations in two surroundings

The evaluator knows its surroundings only through the operations it is given. So what relates the
operations of two surroundings, and is kept when steps follow each other, relates all evaluations in
them. The cursor moves by few operations, and none of these moves it over a name.
-/
namespace Reckon.Expression
open Grammar

variable {φ ψ ρ σ : Type} {m n : Type → Type} [Monad m] [Surroundings φ ρ m] [Monad n]
  [Surroundings ψ σ n]

/-- A relation between the steps of two surroundings that their operations keep. -/
structure Simulation (R : (α : Type) → m α → n α → Prop) : Prop where
  pure {α : Type} (a : α) : R α (pure a) (pure a)
  bind {α β : Type} {p : m α} {q : n α} {f : α → m β} {g : α → n β} (h : R α p q)
    (hnext : ∀ a, R β (f a) (g a)) : R β (p >>= f) (q >>= g)
  onCursor {α : Type} {operation : Cursor → α × Cursor} (h : Cursor.Skims operation) :
    R α (onCursor operation) (onCursor operation)
  exhausted {α : Type} : R α exhausted exhausted

namespace Simulation

variable {R : (α : Type) → m α → n α → Prop}

theorem skipComma (h : Simulation R) : R Unit skipComma skipComma :=
  h.onCursor Cursor.skims_skipComma

theorem chain (h : Simulation R) (l : Level) {operand : m Float} {operand' : n Float}
    (ho : R Float operand operand') (rounds : Nat) (value : Float) :
    R Float (chain l.operator? operand rounds value) (chain l.operator? operand' rounds value) := by
  induction rounds generalizing value with
  | zero => exact h.exhausted
  | succ rounds ih =>
    refine h.bind (h.onCursor (Cursor.skims_accept fun _ _ => isMark_of_operator?)) fun found => ?_
    cases found with
    | none => exact h.pure value
    | some apply => exact h.bind ho fun next => ih (apply value next)

section Levels
variable (h : Simulation R) {inner : m Float} {inner' : n Float} (hi : R Float inner inner')
  (rounds : Nat)
include h hi

theorem termOf : R Float (termOf inner rounds) (termOf inner' rounds) :=
  h.bind hi fun value => h.chain .factor hi rounds value

theorem expressionOf : R Float (expressionOf inner rounds) (expressionOf inner' rounds) :=
  h.bind (h.termOf hi rounds) fun value =>
    h.chain .term (h.termOf hi rounds) rounds value

/-- An argument follows another one for as long as an operand starts there. -/
theorem argumentList (hc : R Unit close close) :
    R (List Float) (argumentList inner rounds) (argumentList inner' rounds) := by
  induction rounds with
  | zero => exact h.exhausted
  | succ rounds ih =>
    refine h.bind (h.onCursor Cursor.skims_startsOperand) fun starts => ?_
    cases starts with
    | true =>
      exact h.bind hi fun value => h.bind h.skipComma fun _ => h.bind ih fun more =>
        h.pure (value :: more)
    | false => exact h.bind hc fun _ => h.pure []

theorem argumentsOf (hc : R Unit close close) :
    R (List Float) (argumentsOf inner rounds) (argumentsOf inner' rounds) := by
  refine h.bind (h.onCursor (Cursor.skims_consumeIf rfl)) fun opens => ?_
  cases opens with
  | false => exact h.bind hi fun value => h.pure [value]
  | true =>
    refine h.bind (h.onCursor (Cursor.skims_consumeIf rfl)) fun closes => ?_
    cases closes with
    | true => exact h.pure []
    | false => exact h.argumentList (h.expressionOf hi rounds) rounds hc

theorem factorOf (hc : R Unit close close) {evaluate : ρ} {evaluate' : σ}
    (ho : R Float (operand evaluate (Expression.argumentsOf inner rounds))
      (operand evaluate' (Expression.argumentsOf inner' rounds))) :
    R Float (factorOf evaluate inner rounds) (factorOf evaluate' inner' rounds) := by
  refine h.bind (h.onCursor (Cursor.skims_consumeIf rfl)) fun plus => ?_
  cases plus with
  | true => exact hi
  | false =>
    refine h.bind (h.onCursor (Cursor.skims_consumeIf rfl)) fun minus => ?_
    cases minus with
    | true => exact h.bind hi fun value => h.pure (-value)
    | false =>
      refine h.bind (h.onCursor (Cursor.skims_consumeIf rfl)) fun opens => ?_
      cases opens with
      | true =>
        exact h.bind (h.expressionOf hi rounds) fun value => h.bind hc fun _ => h.pure value
      | false => exact ho

end Levels

/-- If closing parentheses are related, and operands are as soon as the factors in them are, then
so are factors of all depths. -/
theorem factorWithin (h : Simulation R) (hc : R Unit close close) {evaluate : ρ} {evaluate' : σ}
    (ho : ∀ bound, R Float (factorWithin evaluate bound) (factorWithin evaluate' bound) →
      R Float
        (operand evaluate (Expression.argumentsOf (Expression.factorWithin evaluate bound) bound))
        (operand evaluate'
          (Expression.argumentsOf (Expression.factorWithin evaluate' bound) bound)))
    (bound : Nat) : R Float (factorWithin evaluate bound) (factorWithin evaluate' bound) := by
  induction bound with
  | zero => exact h.exhausted
  | succ bound ih => exact h.factorOf ih bound hc (ho bound ih)

/-- An expression that is related is so as a whole text, if the faults behind it are. -/
theorem wholeOf (h : Simulation R) {run : m Float} {run' : n Float} (hrun : R Float run run')
    (hfail : R Float (failAt .unexpected) (failAt .unexpected)) :
    R Float (wholeOf run) (wholeOf run') := by
  refine h.bind hrun fun value => h.bind (h.onCursor (Cursor.skims_look _)) fun ends => ?_
  cases ends with
  | true => exact h.pure value
  | false => exact hfail

end Simulation

end Reckon.Expression
