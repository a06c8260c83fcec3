import Reckon.CommandLine.Run
import Reckon.Proofs.Expression.Completeness
import Reckon.Proofs.Grammar.Response
import Reckon.Proofs.Number.Written

/-!
# Printed results read back

What a run prints for a finite result is an expression: a literal, behind a minus sign for a negative
result. It has that result as its value under all bindings, down to the last bit.
-/
namespace Reckon
open Expression Grammar Number

/-- The sign and the literal that a finite double is printed as. -/
def printedTokens (negative : Bool) (n : Literal) : List Token :=
  if negative then [.sign true, .number n] else [.number n]

/-- The tree of a literal behind its sign. -/
def printedTree (negative : Bool) (n : Literal) : Tree .expression :=
  .expression (.term (if negative then .signed true (.ofLiteral n) else .ofLiteral n) .nil) .nil

section Printed
variable {n : Literal} {m : Nat}

theorem tokens_printedTree (negative : Bool) (n : Literal) :
    (printedTree negative n).tokens = printedTokens negative n := by
  cases negative <;> rfl

theorem wellFormed_printedTree (negative : Bool) (n : Literal) :
    (printedTree negative n).WellFormed := by
  cases negative <;> exact ⟨⟨trivial, trivial⟩, trivial⟩

/-- The sign of the text is the sign of the double, also of a zero. -/
theorem eval_printedTree (evaluate : Evaluator) (e : Environment) (hm : m < infinite)
    (hn : n.numeral.toFloat = signed false m) (negative : Bool) :
    (printedTree negative n).eval evaluate e = some (signed negative m, e) := by
  cases negative with
  | false => exact congrArg (fun x => some (x, e)) hn
  | true =>
    have hvalue : -n.numeral.toFloat = signed true m := by rw [hn, neg_signed hm]
    exact congrArg (fun x => some (x, e)) hvalue

theorem reads_printed (negative : Bool) (n : Literal) :
    Reads (printedTokens negative n)
      (if negative then '-' :: n.numeral.text else n.numeral.text) [] := by
  have hnumber : Spaced [.number n] n.numeral.text := by
    have hspaced : Spaced [.number n] (n.numeral.text ++ []) := .token (by simp) .nil
    rwa [List.append_nil] at hspaced
  cases negative with
  | false => exact hnumber.reads
  | true => exact hnumber.mark.reads

/-- The text of a finite double is a sign and a literal. -/
theorem exists_literal_of_text {x : Float} (h : isFinite x = true) :
    ∃ n : Literal, n.numeral.toFloat = signed false (magnitude x) ∧
      text x = if isNegative x then '-' :: n.numeral.text else n.numeral.text := by
  have hm : magnitude x < infinite := of_decide_eq_true h
  obtain ⟨n, htext, hvalue⟩ := exists_literal_of_shortest hm
  refine ⟨n, hvalue, ?_⟩
  rw [text, withSign]
  simp only [if_neg hm.not_gt, if_neg hm.ne, htext]

end Printed

namespace Calculator

/-- The printed text of a finite double is read to its end as a literal with its sign, no name among
the tokens, and without a precision its value is that double again, bit for bit, whatever the bindings
are. -/
theorem step_evaluate_printed {x : Float} (h : isFinite x = true) (b : Bindings) :
    (∃ n : Literal,
        Reads (printedTokens (isNegative x) n) (CommandLine.valueText x).toList []) ∧
      (⟨b, .exact⟩ : Calculator).step (.evaluate (CommandLine.valueText x)) =
        (⟨.ok (some x), []⟩, ⟨b, .exact⟩) := by
  have hm : magnitude x < infinite := of_decide_eq_true h
  obtain ⟨n, hvalue, htext⟩ := exists_literal_of_text h
  have hreads : Reads (printedTokens (isNegative x) n) (CommandLine.valueText x).toList [] := by
    rw [CommandLine.valueText, String.toList_ofList, htext]
    exact reads_printed _ n
  have heval := evaluateText_of_reads (wellFormed_printedTree (isNegative x) n)
    (tokens_printedTree (isNegative x) n ▸ hreads)
    (eval_printedTree (nested .exact) ⟨b, []⟩ hm hvalue (isNegative x))
  have hempty : (CommandLine.valueText x).isEmpty = false := by
    by_contra hnil
    have hblank : (CommandLine.valueText x).toList = [] := by simpa using hnil
    rw [hblank, ← tokens_printedTree] at hreads
    exact absurd (Tree.length_lt hreads) (Nat.lt_irrefl _)
  have hrun : (⟨b, .exact⟩ : Calculator).run (CommandLine.valueText x) = (.ok x, ⟨b, []⟩) := by
    change evaluateWith (nested .exact) .exact _ _ = _
    rw [evaluateWith, hempty, heval, signed_magnitude]
    rfl
  refine ⟨⟨n, hreads⟩, ?_⟩
  simp only [Calculator.step, hrun]
  rfl

/-- The negative zero, under a variable of the name that an exponent looks like. -/
theorem step_evaluate_printed_zero :
    isFinite (signed true 0) = true ∧
      ((∃ n : Literal, Reads (printedTokens (isNegative (signed true 0)) n)
          (CommandLine.valueText (signed true 0)).toList []) ∧
        (⟨Bindings.empty.setVariable "e" 1.0, .exact⟩ : Calculator).step
            (.evaluate (CommandLine.valueText (signed true 0))) =
          (⟨.ok (some (signed true 0)), []⟩, ⟨Bindings.empty.setVariable "e" 1.0, .exact⟩)) := by
  have h : isFinite (signed true 0) = true := by decide +kernel
  exact ⟨h, step_evaluate_printed h _⟩

end Calculator

end Reckon
