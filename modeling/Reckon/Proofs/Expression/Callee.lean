import Reckon.Proofs.Expression.Step

/-!
# Names that are called

A name in an expression has a value, is called, or is unknown. A call runs the function that the
name stood for when it was looked up, once the number of its arguments has been checked.
-/
namespace Reckon
open Grammar Number

/-- What a call runs. -/
inductive Callee where
  | custom (function : CustomFunction)
  | builtin (function : Builtin)

/-- The function that a meaning is, if it is one. -/
def Meaning.callee? : Meaning → Option Callee
  | .custom function => some (.custom function)
  | .builtin function => some (.builtin function)
  | _ => none

theorem Meaning.eq_custom_of_callee? {meaning : Meaning} {function : CustomFunction}
    (h : meaning.callee? = some (.custom function)) : meaning = .custom function := by
  cases meaning <;> simp_all [Meaning.callee?]

theorem Meaning.eq_builtin_of_callee? {meaning : Meaning} {function : Builtin}
    (h : meaning.callee? = some (.builtin function)) : meaning = .builtin function := by
  cases meaning <;> simp_all [Meaning.callee?]

namespace Callee

def arity : Callee → Option Nat
  | .custom function => function.arity
  | .builtin function => function.arity

/-- Whether the function takes so many arguments. -/
def takes (callee : Callee) (arguments : List Float) : Bool :=
  decide (Accepts callee.arity arguments.length)

theorem takes_eq_admits (callee : Callee) (arguments : List Float) :
    callee.takes arguments = admits (callee.arity.map Int.ofNat) arguments.length := by
  rw [Bool.eq_iff_iff, takes, decide_eq_true_eq]
  exact accepts_iff_admits

/-- Runs a function under a name. A call of a custom function is recorded, its callback acts, and a
breakdown in it becomes a fault of the call. -/
def run (evaluate : Evaluator) (name : String) (arguments : List Float) (e : Environment) :
    Callee → Outcome
  | .custom function =>
    let outcome :=
      (function.callback arguments).perform evaluate (e.record ⟨name, function, arguments⟩)
    (outcome.1.mapError (Failure.inCall name), outcome.2)
  | .builtin function => ((function.apply arguments).mapError .breakdown, e)

/-- The fault of a call with the wrong number of arguments. -/
def refusal (callee : Callee) (name : String) (arguments : List Float) : Rejection :=
  .argumentCount name (callee.arity.map Int.ofNat) arguments.length

/-- Runs a function under a name, once the number of arguments is checked against its arity. -/
def call (evaluate : Evaluator) (name : String) (callee : Callee) (arguments : List Float)
    (e : Environment) : Outcome :=
  if callee.takes arguments then callee.run evaluate name arguments e
  else (.error (.fault (callee.refusal name arguments)), e)

variable {evaluate : Evaluator} {name : String} {callee : Callee} {arguments : List Float}
  {e : Environment}

theorem call_of_takes (h : callee.takes arguments = true) :
    callee.call evaluate name arguments e = callee.run evaluate name arguments e := if_pos h

theorem call_refused (h : callee.takes arguments = false) :
    callee.call evaluate name arguments e =
      (.error (.fault (callee.refusal name arguments)), e) :=
  if_neg (Bool.not_eq_true _ ▸ h)

end Callee

namespace Expression

variable {evaluate : Evaluator} {e : Environment} {c : Cursor}

theorem meaning_callee_cases (meaning : Meaning) :
    (meaning.callee? = none ∧ ∃ x, held meaning = some x) ∨
      (∃ callee, meaning.callee? = some callee ∧ isFunction meaning = true) ∨
      meaning = .unknown := by
  match meaning with
  | .variable x => exact .inl ⟨rfl, x, rfl⟩
  | .constant x => exact .inl ⟨rfl, x, rfl⟩
  | .custom function => exact .inr (.inl ⟨.custom function, rfl, rfl⟩)
  | .builtin function => exact .inr (.inl ⟨.builtin function, rfl, rfl⟩)
  | .unknown => exact .inr (.inr rfl)

theorem applied_eq_call {meaning : Meaning} {callee : Callee} (h : meaning.callee? = some callee)
    (name : String) (values : List Float) (s : State) :
    applied evaluate name meaning values s =
      lift (callee.call evaluate name values s.environment).1
        { s with environment := (callee.call evaluate name values s.environment).2 } := by
  have hadmits := callee.takes_eq_admits values
  cases ha : callee.takes values with
  | false =>
    rw [Callee.call_refused ha]
    rw [ha] at hadmits
    cases callee with
    | custom function =>
      obtain rfl := Meaning.eq_custom_of_callee? h
      exact applied_refused (.inl ⟨_, rfl⟩) hadmits.symm
    | builtin function =>
      obtain rfl := Meaning.eq_builtin_of_callee? h
      exact applied_refused (.inr ⟨_, rfl⟩) hadmits.symm
  | true =>
    rw [Callee.call_of_takes ha]
    rw [ha] at hadmits
    cases callee with
    | custom function =>
      obtain rfl := Meaning.eq_custom_of_callee? h
      exact applied_custom hadmits.symm
    | builtin function =>
      obtain rfl := Meaning.eq_builtin_of_callee? h
      exact applied_builtin hadmits.symm

/-- A name stands at a place of a text, and no longer one does. -/
def NameAt (text : List Char) (start : Nat) (name : String) : Prop :=
  ∃ more, text.drop start = name.toList ++ more ∧ Longest IsName name.toList more

theorem nameAt_of_nameOf {text : List Char} (hc : c.Sound) (h : Cursor.nameOf c.rest = some text) :
    NameAt c.text c.pos (String.ofList text) := by
  obtain ⟨more, hmore, hl⟩ := longest_of_nameOf h
  exact ⟨more, by rw [← hc, hmore, String.toList_ofList], by rwa [String.toList_ofList]⟩

end Expression

end Reckon
