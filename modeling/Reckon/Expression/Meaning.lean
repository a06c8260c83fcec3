import Reckon.Callback
import Reckon.Builtin.Catalogue
import Reckon.Number.Power
import Reckon.Number.Remainder

/-!
# Names and operators

What a name and an operator character stand for. A variable hides a custom function of the same
name, which hides a builtin constant, which hides a builtin function.
-/
namespace Reckon

/-- What a name stands for. -/
inductive Meaning (φ : Type := CustomFunction) where
  | variable (value : Float)
  | custom (function : φ)
  | constant (value : Float)
  | builtin (function : Builtin)
  | unknown

variable {φ : Type}

/-- The meaning of a name without any bindings. -/
def builtinMeaning (name : String) : Meaning φ :=
  match Builtin.constant? name with
  | some value => .constant value
  | none =>
    match Builtin.builtin? name with
    | some function => .builtin function
    | none => .unknown

/-- The meaning of a name. -/
def Bindings.meaning (b : Bindings φ) (name : String) : Meaning φ :=
  match b.numbers.get? name with
  | some value => .variable value
  | none =>
    match b.functions.get? name with
    | some function => .custom function
    | none => builtinMeaning name

/-- Only the entries of the name itself matter for its meaning. -/
theorem Bindings.meaning_congr {a b : Bindings φ} {name : String}
    (hv : a.numbers.get? name = b.numbers.get? name)
    (hf : a.functions.get? name = b.functions.get? name) : a.meaning name = b.meaning name := by
  simp only [Bindings.meaning, hv, hf]

/-- A name stands for a custom function only if that is its entry. -/
theorem Bindings.get?_of_meaning {b : Bindings φ} {name : String} {function : φ}
    (h : b.meaning name = .custom function) : b.functions.get? name = some function := by
  simp only [Bindings.meaning] at h
  split at h
  · cases h
  · split at h
    next hf => rw [hf, Meaning.custom.inj h]
    next =>
      simp only [builtinMeaning] at h
      split at h
      · cases h
      · split at h <;> cases h

/-- The operators between the terms of an expression. -/
def additive? : Char → Option (Float → Float → Float)
  | '+' => some (· + ·)
  | '-' => some (· - ·)
  | _ => none

/-- The operators between the factors of a term. The power binds like a product, and the remainder
takes the sign of the dividend. -/
def multiplicative? : Char → Option (Float → Float → Float)
  | '*' => some (· * ·)
  | '/' => some (· / ·)
  | '%' => some Number.remainder
  | '^' => some Number.power
  | _ => none

/-- Whether an arity allows for `count` arguments. -/
def admits (arity : Option Int) (count : Int) : Bool :=
  match arity with
  | none => decide (1 ≤ count)
  | some expected => count == expected

/-- Refuses a wrong number of arguments. -/
def checkArity (name : String) (arity : Option Int) (count : Int) : Except Rejection Unit :=
  if admits arity count then .ok () else .error (.argumentCount name arity count)

/-- Refuses a call of a function with the wrong number of arguments. -/
def checkCall (name : String) (arity : Option Nat) (arguments : List Float) :
    Except Rejection Unit :=
  checkArity name (arity.map Int.ofNat) arguments.length

end Reckon
