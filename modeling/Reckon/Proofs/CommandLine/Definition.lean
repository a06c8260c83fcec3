import Reckon.CommandLine.Definition
import Reckon.Session
import Reckon.Proofs.Expression.Completeness
import Reckon.Proofs.Grammar.Response
import Reckon.Proofs.Number.Reading

/-!
# Definitions on the command line

A definition that is written from a name and a double gives both back, with blanks around the name
and padding around the number. The name then has that value as an expression, whatever else it is
the name of. Nothing but a missing equals sign, a missing name and an unreadable number is an error.
-/
namespace Reckon
open Grammar (Name Tree)
open Number (isPadding readFloat?)
open Text (isBlank)

namespace CommandLine

variable {mark : Char} {before behind front middle gap back : List Char}

/-- The split is at the first mark. -/
theorem splitAtFirst?_append (h : mark ∉ before) :
    splitAtFirst? mark (before ++ mark :: behind) = some (before, behind) := by
  have hbefore : ∀ c ∈ before, (c != mark) = true := fun c hc =>
    bne_iff_ne.mpr fun heq => h (heq ▸ hc)
  have hrun := @Grammar.takeWhile_append_stop (· != mark) before (mark :: behind) hbefore (by simp)
  simp only [splitAtFirst?, hrun]

theorem splitAtFirst?_of_not_mem {text : List Char} (h : mark ∉ text) :
    splitAtFirst? mark text = none := by
  have hall : ∀ c ∈ text, (c != mark) = true := fun c hc => bne_iff_ne.mpr fun heq => h (heq ▸ hc)
  rw [splitAtFirst?, List.dropWhile_eq_nil_iff.mpr hall]

theorem isBlank_of_mem_name {name : Name} {c : Char} (h : c ∈ name.text) : isBlank c = false :=
  Grammar.isBlank_eq_false_of_isLexical (Grammar.isLexical_of_isName name.isName c h)

/-- Blanks around a name are stripped, and nothing of the name is. -/
theorem strip_name {name : Name} (hfront : ∀ c ∈ front, isBlank c = true)
    (hmiddle : ∀ c ∈ middle, isBlank c = true) :
    Text.strip (front ++ name.text ++ middle) = name.text :=
  Number.trim_padded hfront hmiddle fun _ hc => isBlank_of_mem_name hc

theorem strip_eq_nil_iff : Text.strip before = [] ↔ ∀ c ∈ before, isBlank c = true := by
  rw [Text.strip, Text.trim, List.reverse_eq_nil_iff, List.dropWhile_eq_nil_iff]
  constructor
  · intro h
    rw [← List.dropWhile_eq_nil_iff]
    cases hdrop : before.dropWhile isBlank with
    | nil => rfl
    | cons c rest =>
      have hstop := @Grammar.head?_dropWhile_eq_false isBlank before c (by rw [hdrop]; rfl)
      have hblank := h c (by simp [hdrop])
      rw [hstop] at hblank
      exact absurd hblank (by decide)
  · intro h
    rw [List.dropWhile_eq_nil_iff.mpr h]
    simp

/-- No equals sign stands in a name or in the blanks around it. -/
theorem equals_not_mem_name {name : Name} (hfront : ∀ c ∈ front, isBlank c = true)
    (hmiddle : ∀ c ∈ middle, isBlank c = true) : '=' ∉ front ++ name.text ++ middle := by
  have hblank : isBlank '=' = false := by decide
  have hword : Text.isWord '=' = false := by decide +kernel
  intro hmem
  simp only [List.mem_append] at hmem
  rcases hmem with (hmem | hmem) | hmem
  · exact absurd (hfront _ hmem) (by rw [hblank]; decide)
  · exact absurd (Grammar.isWord_of_isName name.isName _ hmem) (by rw [hword]; decide)
  · exact absurd (hmiddle _ hmem) (by rw [hblank]; decide)

theorem definition_written (name : Name) (x : Float) (hfront : ∀ c ∈ front, isBlank c = true)
    (hmiddle : ∀ c ∈ middle, isBlank c = true) (hgap : ∀ c ∈ gap, isPadding c = true)
    (hback : ∀ c ∈ back, isPadding c = true) :
    definition (String.ofList
        (front ++ name.text ++ middle ++ '=' :: (gap ++ Number.text x ++ back))) =
      .ok (name.string, x) := by
  obtain ⟨c, more, hname, -⟩ := name.exists_cons
  have hnonempty : name.text.isEmpty = false := by rw [hname]; rfl
  simp only [definition, String.toList_ofList,
    splitAtFirst?_append (equals_not_mem_name hfront hmiddle), strip_name hfront hmiddle,
    hnonempty, Number.readFloat?_text hgap hback]
  rfl

/-- What is wrong with a text that defines nothing. -/
theorem definition_eq_error_iff (text : String) :
    (∃ error, definition text = .error error) ↔
      '=' ∉ text.toList ∨ ∃ before behind, text.toList = before ++ '=' :: behind ∧ '=' ∉ before ∧
        ((∀ c ∈ before, isBlank c = true) ∨ readFloat? behind = none) := by
  by_cases hmem : '=' ∈ text.toList
  · obtain ⟨before, behind, htext, hbefore⟩ := List.eq_append_cons_of_mem hmem
    have hsplit : splitAtFirst? '=' text.toList = some (before, behind) := by
      rw [htext]
      exact splitAtFirst?_append hbefore
    have hparts : (∃ error, definition text = .error error) ↔
        (∀ c ∈ before, isBlank c = true) ∨ readFloat? behind = none := by
      rw [← strip_eq_nil_iff, ← List.isEmpty_iff]
      simp only [definition, hsplit]
      cases (Text.strip before).isEmpty <;> cases readFloat? behind <;> simp
    rw [hparts]
    refine ⟨fun h => .inr ⟨before, behind, htext, hbefore, h⟩, ?_⟩
    rintro (hnone | ⟨other, rest, hother, hnot, h⟩)
    · exact absurd hmem hnone
    · -- the text is split at its first equals sign in one way only
      have hsame := hsplit.symm.trans (hother ▸ splitAtFirst?_append hnot)
      obtain ⟨rfl, rfl⟩ := Prod.mk.inj (Option.some.inj hsame)
      exact h
  · have hnone : definition text = .error (.malformed text) := by
      simp only [definition, splitAtFirst?_of_not_mem hmem]
    exact ⟨fun _ => .inl hmem, fun _ => ⟨_, hnone⟩⟩

end CommandLine

/-- An expression that is read as a tree with a value is evaluated to that value. -/
theorem Calculator.step_evaluate_of_reads {t : Tree .expression} {b : Bindings} {text : String}
    {value : Float} {after : Environment} (hw : t.WellFormed)
    (hreads : Grammar.Reads t.tokens text.toList [])
    (heval : t.eval (nested .exact) ⟨b, []⟩ = some (value, after)) :
    (⟨b, .exact⟩ : Calculator).step (.evaluate text) =
      (⟨.ok (some value), after.calls⟩, ⟨after.bindings, .exact⟩) := by
  have hnonempty : text.isEmpty = false := by
    by_contra hnil
    have hblank : text.toList = [] := by simpa using hnil
    rw [hblank] at hreads
    exact absurd (Tree.length_lt hreads) (Nat.lt_irrefl _)
  have hrun : (⟨b, .exact⟩ : Calculator).run text = (.ok value, after) := by
    change evaluateWith (nested .exact) .exact text _ = _
    rw [evaluateWith, hnonempty, Expression.evaluateText_of_reads hw hreads heval]
    rfl
  simp only [Calculator.step, hrun]
  rfl

/-- A variable is its value, whatever else its name is the name of. -/
theorem Calculator.step_evaluate_defined (b : Bindings) (name : Name) (x : Float) :
    ((⟨b, .exact⟩ : Calculator).step (.addVariables [(name.string, .real x)])).2.step
        (.evaluate name.string) =
      (⟨.ok (some x), []⟩, ⟨b.setVariable name.string x, .exact⟩) := by
  have hreads : Grammar.Reads [.name name] name.string.toList [] := by
    have hspaced : Grammar.Spaced [.name name] (name.text ++ []) := .token (by simp) .nil
    rw [Name.string, String.toList_ofList, ← name.text.append_nil]
    exact hspaced.reads
  have hmeaning : (b.setVariable name.string x).meaning name.string = .variable x := by
    simp only [Bindings.meaning, Bindings.setVariable, Table.get?_put, if_true]
  let t : Tree .expression := .expression (.term (.value name) .nil) .nil
  have heval : t.eval (nested .exact) ⟨b.setVariable name.string x, []⟩ =
      some (x, ⟨b.setVariable name.string x, []⟩) := by
    simp only [t, Tree.eval, Grammar.Tail.eval, Grammar.resolved_eq_meaning, hmeaning]
    rfl
  exact Calculator.step_evaluate_of_reads (t := t) ⟨⟨trivial, trivial⟩, trivial⟩ hreads heval

namespace CommandLine

/-- A written definition is read as its name and its value, which the name then has, whatever the
bindings are; and there are three ways for a text not to be one. -/
theorem definition_intact (name : Name) (x : Float) (front middle gap back : List Char)
    (hfront : ∀ c ∈ front, isBlank c = true) (hmiddle : ∀ c ∈ middle, isBlank c = true)
    (hgap : ∀ c ∈ gap, isPadding c = true) (hback : ∀ c ∈ back, isPadding c = true) :
    definition (String.ofList
        (front ++ name.text ++ middle ++ '=' :: (gap ++ Number.text x ++ back))) =
      .ok (name.string, x) ∧
    (∀ b : Bindings,
      ((⟨b, .exact⟩ : Calculator).step (.addVariables [(name.string, .real x)])).1 = .done ∧
      (((⟨b, .exact⟩ : Calculator).step (.addVariables [(name.string, .real x)])).2.step
        (.evaluate name.string)).1 = ⟨.ok (some x), []⟩) ∧
    ∀ text : String, (∃ error, definition text = .error error) ↔
      '=' ∉ text.toList ∨ ∃ before behind, text.toList = before ++ '=' :: behind ∧ '=' ∉ before ∧
        ((∀ c ∈ before, isBlank c = true) ∨ readFloat? behind = none) :=
  ⟨definition_written name x hfront hmiddle hgap hback,
    fun b => ⟨rfl, congrArg Prod.fst (Calculator.step_evaluate_defined b name x)⟩,
    definition_eq_error_iff⟩

/-- A definition of a negative zero for the name of a builtin constant, in blanks of all kinds. -/
theorem definition_intact_constant :
    definition "\x1c\u3000pi\x1f = -0.0\u2003\n" = .ok ("pi", Number.signed true 0) ∧
      (((⟨.empty, .exact⟩ : Calculator).step
          (.addVariables [("pi", .real (Number.signed true 0))])).2.step (.evaluate "pi")).1 =
        ⟨.ok (some (Number.signed true 0)), []⟩ := by
  let name : Name := ⟨['p', 'i'], by decide +kernel, by simp [Text.isWord]⟩
  obtain ⟨hdefinition, hvariable, -⟩ :=
    definition_intact name (Number.signed true 0) ['\x1c', '\u3000'] ['\x1f', ' '] [' ']
      ['\u2003', '\n'] (by simp [isBlank]) (by simp [isBlank]) (by simp [isPadding, isBlank])
      (by simp [isPadding, isBlank])
  exact ⟨hdefinition, (hvariable .empty).2⟩

/-- A name may have an information separator beside it, and a number may not: it is a blank to one
and no padding to the other. -/
theorem definition_separator :
    isBlank '\x1c' = true ∧ Number.text 1.0 = ['1', '.', '0'] ∧
      definition (String.ofList ('x' :: '=' :: '\x1c' :: Number.text 1.0)) =
        .error (.badValue "x" "\x1c1.0") := by
  decide +kernel

end CommandLine

end Reckon
