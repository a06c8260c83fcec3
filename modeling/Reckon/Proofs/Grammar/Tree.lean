import Reckon.Expression.Evaluation
import Reckon.Proofs.Number.Literal

/-!
# Trees of expressions

The grammar of expressions as trees: what tokens a tree is written with and what value it has. An
expression is a term followed by any number of signed terms, a term a factor followed by any number
of factors behind `*`, `/`, `%` or `^`. The value is taken apart from any text, from left to right
at each level, and every name stands for what the bindings have for it at its turn.

Trees have operators, names, arities and literals of their own. That the evaluator has the same is
what `operator?_char`, `exists_of_operator?`, `resolved_eq_meaning`, `accepts_iff_admits` and
`Tree.ofLiteral` say.
-/
namespace Reckon.Grammar
open Number

/-- How far up in an expression a part of it stands. -/
inductive Level where
  | factor
  | term
  | expression
  deriving DecidableEq

/-- The operators between parts of a level that the evaluator knows. -/
def Level.operator? : Level → Char → Option (Float → Float → Float)
  | .factor => multiplicative?
  | .term => additive?
  | .expression => fun _ => none

/-- An operator between parts of a level. -/
inductive Operator : Level → Type
  | times : Operator .factor
  | over : Operator .factor
  | modulo : Operator .factor
  | power : Operator .factor
  | plus : Operator .term
  | minus : Operator .term

namespace Operator

variable {l : Level}

def char : {l : Level} → Operator l → Char
  | _, .times => '*'
  | _, .over => '/'
  | _, .modulo => '%'
  | _, .power => '^'
  | _, .plus => '+'
  | _, .minus => '-'

def apply : {l : Level} → Operator l → Float → Float → Float
  | _, .times, x, y => x * y
  | _, .over, x, y => x / y
  | _, .modulo, x, y => remainder x y
  | _, .power, x, y => Number.power x y
  | _, .plus, x, y => x + y
  | _, .minus, x, y => x - y

theorem isMark_char (o : Operator l) : isMark o.char = true := by
  cases o <;> rfl

/-- The evaluator knows every operator, and applies it as a tree does. -/
theorem operator?_char (o : Operator l) : l.operator? o.char = some o.apply := by
  cases o <;> rfl

/-- The evaluator knows no other operators. -/
theorem exists_of_operator? {c : Char} {f : Float → Float → Float} (h : l.operator? c = some f) :
    ∃ o : Operator l, o.char = c ∧ o.apply = f := by
  cases l with
  | factor =>
    simp only [Level.operator?, multiplicative?] at h
    split at h
    · exact ⟨.times, rfl, Option.some.inj h⟩
    · exact ⟨.over, rfl, Option.some.inj h⟩
    · exact ⟨.modulo, rfl, Option.some.inj h⟩
    · exact ⟨.power, rfl, Option.some.inj h⟩
    · simp at h
  | term =>
    simp only [Level.operator?, additive?] at h
    split at h
    · exact ⟨.plus, rfl, Option.some.inj h⟩
    · exact ⟨.minus, rfl, Option.some.inj h⟩
    · simp at h
  | expression => simp [Level.operator?] at h

def token (o : Operator l) : Token := .mark o.char o.isMark_char

theorem token_ne_openParen (o : Operator l) : o.token ≠ .openParen := by
  intro h
  have hchar : o.char = '(' := Token.mark.inj h
  cases o <;> simp [char] at hchar

end Operator

theorem isMark_of_operator? {l : Level} {c : Char} {apply : Float → Float → Float}
    (h : l.operator? c = some apply) : isMark c = true := by
  obtain ⟨o, rfl, -⟩ := Operator.exists_of_operator? h
  exact o.isMark_char

mutual

inductive Tree : Level → Type
  | signed (negative : Bool) (inner : Tree .factor) : Tree .factor
  | group (inner : Tree .expression) : Tree .factor
  /-- A variable or a constant. -/
  | value (name : Name) : Tree .factor
  /-- A literal, with the pattern of the double nearest to it. -/
  | literal (number : Literal) (nearest : Nat)
    (h : Rounds number.numeral.value.num.natAbs number.numeral.value.den nearest) : Tree .factor
  /-- A call with a list of arguments in parentheses. -/
  | call (name : Name) (arguments : Arguments) : Tree .factor
  /-- A call with a single argument and no parentheses. -/
  | bare (name : Name) (argument : Tree .factor) : Tree .factor
  | term (first : Tree .factor) (others : Tail .factor) : Tree .term
  | expression (first : Tree .term) (others : Tail .term) : Tree .expression

/-- Further parts of a level, each behind an operator. -/
inductive Tail : Level → Type
  | nil {l : Level} : Tail l
  | cons {l : Level} (operator : Operator l) (next : Tree l) (others : Tail l) : Tail l

/-- Arguments, each with or without a comma behind it. -/
inductive Arguments : Type
  | nil : Arguments
  | cons (first : Tree .expression) (comma : Bool) (others : Arguments) : Arguments

end

mutual

def Tree.tokens : {l : Level} → Tree l → List Token
  | _, .signed negative inner => .sign negative :: inner.tokens
  | _, .group inner => .openParen :: (inner.tokens ++ [.closeParen])
  | _, .value name => [.name name]
  | _, .literal number _ _ => [.number number]
  | _, .call name arguments =>
    .name name :: .openParen :: (arguments.tokens ++ [.closeParen])
  | _, .bare name argument => .name name :: argument.tokens
  | _, .term first others => first.tokens ++ others.tokens
  | _, .expression first others => first.tokens ++ others.tokens

def Tail.tokens : {l : Level} → Tail l → List Token
  | _, .nil => []
  | _, .cons operator next others => operator.token :: (next.tokens ++ others.tokens)

def Arguments.tokens : Arguments → List Token
  | .nil => []
  | .cons first comma others =>
    first.tokens ++ ((if comma then [.comma] else []) ++ others.tokens)

end

/-- Whether the first token is a sign. -/
def startsWithSign : List Token → Bool
  | .mark c _ :: _ => c == '+' || c == '-'
  | _ => false

def Tree.isGroup : {l : Level} → Tree l → Bool
  | _, .group _ => true
  | _, _ => false

mutual

/-- A bare argument is no group, which would be a list of arguments, and an argument with no comma
in front of it starts with no sign, which would be an operator. -/
def Tree.WellFormed : {l : Level} → Tree l → Prop
  | _, .signed _ inner => inner.WellFormed
  | _, .group inner => inner.WellFormed
  | _, .value _ => True
  | _, .literal _ _ _ => True
  | _, .call _ arguments => arguments.WellFormed
  | _, .bare _ argument => argument.WellFormed ∧ argument.isGroup = false
  | _, .term first others => first.WellFormed ∧ others.WellFormed
  | _, .expression first others => first.WellFormed ∧ others.WellFormed

def Tail.WellFormed : {l : Level} → Tail l → Prop
  | _, .nil => True
  | _, .cons _ next others => next.WellFormed ∧ others.WellFormed

def Arguments.WellFormed : Arguments → Prop
  | .nil => True
  | .cons first comma others =>
    first.WellFormed ∧ (comma = false → startsWithSign others.tokens = false) ∧ others.WellFormed

end

/-- What a name stands for. The tables are asked one after the other: the variables, the custom
functions, the builtin constants and the builtin functions. -/
def resolved (b : Bindings) (name : String) : Meaning :=
  ((b.numbers.get? name).map Meaning.variable <|>
    (b.functions.get? name).map Meaning.custom <|>
    (Builtin.constant? name).map Meaning.constant <|>
    (Builtin.builtin? name).map Meaning.builtin).getD Meaning.unknown

theorem resolved_eq_meaning (b : Bindings) (name : String) : resolved b name = b.meaning name := by
  simp only [resolved, Bindings.meaning, builtinMeaning]
  cases b.numbers.get? name <;> cases b.functions.get? name <;> cases Builtin.constant? name <;>
    cases Builtin.builtin? name <;> rfl

/-- A function with an arity takes so many arguments: one or more if it has none. -/
def Accepts : Option Nat → Nat → Prop
  | none, count => 1 ≤ count
  | some arity, count => count = arity

instance : (arity : Option Nat) → (count : Nat) → Decidable (Accepts arity count)
  | none, count => inferInstanceAs (Decidable (1 ≤ count))
  | some arity, count => inferInstanceAs (Decidable (count = arity))

theorem accepts_iff_admits {arity : Option Nat} {count : Nat} :
    Accepts arity count ↔ admits (arity.map Int.ofNat) count = true := by
  cases arity <;> simp [Accepts, admits]

/-- Calls what a name stands for, if it is a function that takes so many arguments and the call
succeeds. A call of a custom function is recorded before its callback acts. -/
def called (evaluate : Evaluator) (name : String) (meaning : Meaning) (arguments : List Float)
    (e : Environment) : Option (Float × Environment) :=
  match meaning with
  | .custom function =>
    if Accepts function.arity arguments.length then
      match (function.callback arguments).perform evaluate (e.record ⟨name, function, arguments⟩) with
      | (.ok value, after) => some (value, after)
      | (.error _, _) => none
    else none
  | .builtin function =>
    if Accepts function.arity arguments.length then
      match function.apply arguments with
      | .ok value => some (value, e)
      | .error _ => none
    else none
  | _ => none

/-- The value of a variable or a constant. -/
def held : Meaning → Option Float
  | .variable value => some value
  | .constant value => some value
  | _ => none

/-- Whether a name with that meaning is called. -/
def isFunction : Meaning → Bool
  | .custom _ => true
  | .builtin _ => true
  | _ => false

mutual

/-- The value of a tree and the environment that its calls leave behind, or nothing if a name or a
call in it has no value. A function is the one that its name stands for before the arguments are
evaluated. -/
def Tree.eval (evaluate : Evaluator) : {l : Level} → Tree l → Environment → Option (Float × Environment)
  | _, .signed negative inner, e => do
    let (value, after) ← inner.eval evaluate e
    return (if negative then -value else value, after)
  | _, .group inner, e => inner.eval evaluate e
  | _, .value name, e => do
    let value ← held (resolved e.bindings name.string)
    return (value, e)
  | _, .literal _ nearest _, e => some (signed false nearest, e)
  | _, .call name arguments, e => do
    let (values, after) ← arguments.eval evaluate e
    called evaluate name.string (resolved e.bindings name.string) values after
  | _, .bare name argument, e => do
    let (value, after) ← argument.eval evaluate e
    called evaluate name.string (resolved e.bindings name.string) [value] after
  | _, .term first others, e => do
    let (value, after) ← first.eval evaluate e
    others.eval evaluate value after
  | _, .expression first others, e => do
    let (value, after) ← first.eval evaluate e
    others.eval evaluate value after

/-- Applies the operators to a value, from left to right. -/
def Tail.eval (evaluate : Evaluator) : {l : Level} → Tail l → Float → Environment →
    Option (Float × Environment)
  | _, .nil, value, e => some (value, e)
  | _, .cons operator next others, value, e => do
    let (operand, after) ← next.eval evaluate e
    others.eval evaluate (operator.apply value operand) after

def Arguments.eval (evaluate : Evaluator) : Arguments → Environment →
    Option (List Float × Environment)
  | .nil, e => some ([], e)
  | .cons first _ others, e => do
    let (value, after) ← first.eval evaluate e
    let (values, done) ← others.eval evaluate after
    return (value :: values, done)

end

/-- A literal as a tree. -/
def Tree.ofLiteral (number : Literal) : Tree .factor :=
  .literal number number.numeral.decimal.nearest (Numeral.rounds_value _)

/-- The double nearest to a literal is the one that the evaluator takes. -/
theorem toFloat_eq_of_rounds {number : Literal} {nearest : Nat}
    (h : Rounds number.numeral.value.num.natAbs number.numeral.value.den nearest) :
    number.numeral.toFloat = signed false nearest := by
  have hpos : 0 < number.numeral.value.den := Rat.den_pos _
  rw [Numeral.toFloat, (Numeral.rounds_value _).unique hpos h]

/-- Whether an operand can start with the token. -/
def Token.startsOperand : Token → Bool
  | mark c _ => Cursor.isOperandStart c
  | name _ => true
  | number _ => true

theorem Next.any_isOperandStart {rest more : List Char} {t : Token} (h : Next rest t more) :
    (rest.dropWhile Text.isBlank).head?.any Cursor.isOperandStart = t.startsOperand := by
  rw [h.1]
  cases t with
  | mark c hm => rfl
  | name n =>
    obtain ⟨c, tail, hc, hstart⟩ := n.exists_cons
    simp [Token.text, hc, Cursor.isOperandStart, hstart, Token.startsOperand]
  | number n =>
    obtain ⟨c, tail, hc, hstart⟩ := n.exists_cons
    simp [Token.text, hc, Cursor.isOperandStart, hstart, Token.startsOperand]

theorem Tree.exists_factor_token (t : Tree .factor) :
    ∃ first more, t.tokens = first :: more ∧ first.startsOperand = true := by
  cases t with
  | signed negative inner => exact ⟨_, _, rfl, by cases negative <;> rfl⟩
  | group inner => exact ⟨_, _, rfl, rfl⟩
  | value name => exact ⟨_, _, rfl, rfl⟩
  | literal number nearest h => exact ⟨_, _, rfl, rfl⟩
  | call name arguments => exact ⟨_, _, rfl, rfl⟩
  | bare name argument => exact ⟨_, _, rfl, rfl⟩

/-- Every tree starts with a token that an operand can start with. -/
theorem Tree.exists_token {l : Level} (t : Tree l) :
    ∃ first more, t.tokens = first :: more ∧ first.startsOperand = true := by
  cases t with
  | term first others =>
    obtain ⟨token, more, ht, hs⟩ := first.exists_factor_token
    exact ⟨token, more ++ others.tokens, by simp [Tree.tokens, ht], hs⟩
  | expression first others =>
    cases first with
    | term inner rest =>
      obtain ⟨token, more, ht, hs⟩ := inner.exists_factor_token
      exact ⟨token, more ++ rest.tokens ++ others.tokens, by simp [Tree.tokens, ht], hs⟩
  | _ => exact Tree.exists_factor_token _

/-- What is read as a tree starts with what an operand can start with. -/
theorem Tree.any_isOperandStart {l : Level} {t : Tree l} {text rest : List Char}
    (h : Reads t.tokens text rest) :
    (text.dropWhile Text.isBlank).head?.any Cursor.isOperandStart = true := by
  obtain ⟨first, tokens, ht, hs⟩ := t.exists_token
  rw [ht] at h
  obtain ⟨more, hnext, -⟩ := reads_cons.mp h
  exact hnext.any_isOperandStart.trans hs

theorem Tree.length_lt {l : Level} {t : Tree l} {text rest : List Char}
    (h : Reads t.tokens text rest) : rest.length < text.length := by
  obtain ⟨first, more, ht, -⟩ := t.exists_token
  rw [ht] at h
  exact h.length_lt

end Reckon.Grammar
