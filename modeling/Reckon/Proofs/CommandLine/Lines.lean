import Reckon.CommandLine.Run
import Reckon.Proofs.Calculator.Dependence

/-!
# Lines do not affect one another

All lines of a run are evaluated by one calculator. Definitions on the command line make variables
only, so an evaluation leaves the calculator as it was, whether it succeeds or not, and what a run
writes is what its lines give one by one: up to the first that ends the run, and the same whether
the lines stand on the command line or in the input.
-/
namespace Reckon.CommandLine

namespace Transcript

@[simp] theorem empty_append (t : Transcript) : empty ++ t = t := rfl

@[simp] theorem append_empty (t : Transcript) : t ++ empty = t :=
  congrArg₂ mk (List.append_nil _) (List.append_nil _)

theorem append_assoc (a b c : Transcript) : a ++ b ++ c = a ++ (b ++ c) :=
  congrArg₂ mk (List.append_assoc ..) (List.append_assoc ..)

@[simp] theorem log_false (source text : String) : log false source text = empty := rfl

end Transcript

/-- The record of a line: its value as output, or the message of its fault as an error. -/
inductive Recorded (c : Calculator) (line : String) : Transcript → Prop
  | value {x : Float} (h : c.evaluate line = .ok x) :
      Recorded c line ⟨[s!"{line} = {valueText x}"], []⟩
  | fault {fault : Fault} (h : c.evaluate line = .error (.fault fault)) :
      Recorded c line ⟨[], [fault.message]⟩

/-- What a line without blanks around it gives. -/
def record (c : Calculator) (line : String) : Transcript :=
  match c.evaluate line with
  | .ok value => ⟨[s!"{line} = {valueText value}"], []⟩
  | .error (.fault fault) => ⟨[], [fault.message]⟩
  | .error (.breakdown _) => .empty

/-- The lines that are not blank, without the blanks around them. -/
def spoken (lines : List String) : List String :=
  (lines.map stripped).filter fun line => !line.isEmpty

/-- What lines give one by one. -/
def records (c : Calculator) (lines : List String) : Transcript :=
  ⟨(spoken lines).flatMap fun line => (record c line).output,
    (spoken lines).flatMap fun line => (record c line).errors⟩

/-- The line does not end a run. -/
structure Passes (c : Calculator) (text : String) : Prop where
  not_quit : stripped text ∉ quitLines
  no_breakdown : ∀ b, c.evaluate (stripped text) ≠ .error (.breakdown b)

theorem recorded_record {c : Calculator} {line : String}
    (h : ∀ b, c.evaluate line ≠ .error (.breakdown b)) : Recorded c line (record c line) := by
  match hresult : c.evaluate line with
  | .ok value => simpa only [record, hresult] using .value hresult
  | .error (.fault fault) => simpa only [record, hresult] using .fault hresult
  | .error (.breakdown b) => exact absurd hresult (h b)

theorem records_append (c : Calculator) (first second : List String) :
    records c (first ++ second) = records c first ++ records c second := by
  simp only [records, spoken, List.map_append, List.filter_append, List.flatMap_append]
  rfl

variable {c : Calculator}

theorem evaluateLine_eq {line : String} (h : ∀ b, c.evaluate line ≠ .error (.breakdown b)) :
    evaluateLine false c line = .ok (record c line, c.afterwards line) := by
  match hresult : c.evaluate line with
  | .ok value => simp [evaluateLine, record, hresult]
  | .error (.fault fault) => simp [evaluateLine, record, hresult]
  | .error (.breakdown b) => exact absurd hresult (h b)

theorem turn_of_passes (hc : ∀ line, c.afterwards line = c) {text : String} (h : Passes c text) :
    turn false c text = .next (records c [text]) c := by
  simp only [turn, records, spoken, List.map_cons, List.map_nil]
  cases hblank : (stripped text).isEmpty with
  | true => simp [hblank, Transcript.empty]
  | false =>
    simp [hblank, h.not_quit, evaluateLine_eq h.no_breakdown, hc]

theorem turn_of_quit {text : String} (h : stripped text ∈ quitLines) :
    turn false c text = .finish (.exit 0) := by
  have hblank : ∀ line ∈ quitLines, line.isEmpty = false := by decide
  simp [turn, hblank _ h, h]

/-- The report on some lines. -/
def reportOn (c : Calculator) (lines : List String) : Report :=
  evaluateLines false .empty c (lines.map .line)

theorem reportOn_cons {text : String} {more : List String} {after : Calculator} {record : Transcript}
    (h : turn false c text = .next record after) :
    reportOn c (text :: more) =
      { reportOn after more with transcript := record ++ (reportOn after more).transcript } := by
  simp [reportOn, evaluateLines, h]

theorem reportOn_append (hc : ∀ line, c.afterwards line = c) {first : List String}
    (h : ∀ line ∈ first, Passes c line) (second : List String) :
    reportOn c (first ++ second) =
      { reportOn c second with transcript := records c first ++ (reportOn c second).transcript } := by
  induction first with
  | nil => rfl
  | cons line first ih =>
    obtain ⟨hline, hfirst⟩ := List.forall_mem_cons.mp h
    have hrecords : records c (line :: first) = records c [line] ++ records c first :=
      records_append c [line] first
    rw [List.cons_append, reportOn_cons (turn_of_passes hc hline), ih hfirst, hrecords,
      Transcript.append_assoc]

theorem reportOn_eq (hc : ∀ line, c.afterwards line = c) {lines : List String}
    (h : ∀ line ∈ lines, Passes c line) : reportOn c lines = ⟨records c lines, .exit 0⟩ := by
  have happend := reportOn_append hc h []
  have hnil : reportOn c [] = ⟨.empty, .exit 0⟩ := rfl
  rw [List.append_nil, hnil] at happend
  simpa using happend

/-- A line that ends the run might as well be the end of the lines, whatever comes before it. -/
theorem reportOn_quit {quit : String} (h : stripped quit ∈ quitLines) (second : List String) :
    ∀ (first : List String) (c : Calculator), reportOn c (first ++ quit :: second) = reportOn c first
  | [], c => by simp [reportOn, evaluateLines, turn_of_quit h]
  | line :: first, c => by
    cases hturn : turn false c line with
    | finish ending => simp [reportOn, evaluateLines, hturn]
    | next record after =>
      rw [List.cons_append, reportOn_cons hturn, reportOn_cons hturn, reportOn_quit h second first]

/-- The text of lines that each have an ending, up to the last. -/
def inputText (ending : String) (lines : List String) (last : String) : String :=
  lines.foldr (fun line text => line ++ ending ++ text) last

/-- The text holds no end of a line. -/
def OneLine (text : String) : Prop := ∀ ch ∈ text.toList, ch ≠ '\r' ∧ ch ≠ '\n'

instance (text : String) : Decidable (OneLine text) :=
  List.decidableBAll (fun ch => ch ≠ '\r' ∧ ch ≠ '\n') text.toList

theorem splitLines_cons {ch : Char} (h : ch ≠ '\r' ∧ ch ≠ '\n') (current more : List Char) :
    splitLines current (ch :: more) = splitLines (ch :: current) more := by
  rw [splitLines]
  · simp [h]
  · rintro _ rfl
    exact absurd rfl h.1

theorem splitLines_append {line : List Char} (h : ∀ ch ∈ line, ch ≠ '\r' ∧ ch ≠ '\n')
    (current more : List Char) :
    splitLines current (line ++ more) = splitLines (line.reverse ++ current) more := by
  induction line generalizing current with
  | nil => rfl
  | cons ch line ih =>
    obtain ⟨hch, hline⟩ := List.forall_mem_cons.mp h
    rw [List.cons_append, splitLines_cons hch, ih hline, List.reverse_cons, List.append_assoc]
    rfl

/-- The ends of lines. A carriage return is one only if no line feed comes behind it. -/
theorem splitLines_ending {ending : String} (h : ending ∈ ["\n", "\r", "\r\n"])
    {more : List Char} (hmore : ending = "\r" → more.head? ≠ some '\n') (current : List Char) :
    splitLines current (ending.toList ++ more) =
      String.ofList current.reverse :: splitLines [] more := by
  simp only [List.mem_cons, List.not_mem_nil, or_false] at h
  rcases h with rfl | rfl | rfl
  · simp [splitLines]
  · have hnext := hmore rfl
    have hreturn : "\r".toList ++ more = '\r' :: more := rfl
    rw [hreturn, splitLines]
    · simp
    · rintro more' - rfl
      exact hnext rfl
  · simp [splitLines]

theorem inputText_nil (ending last : String) : inputText ending [] last = last := rfl

theorem inputText_cons (ending line : String) (lines : List String) (last : String) :
    (inputText ending (line :: lines) last).toList =
      line.toList ++ (ending.toList ++ (inputText ending lines last).toList) := by
  simp [inputText, String.toList_append]

/-- Where lines end in carriage returns alone there is no line feed. -/
theorem not_mem_inputText {lines : List String} (hlines : ∀ line ∈ lines, OneLine line)
    {last : String} (hlast : OneLine last) : '\n' ∉ (inputText "\r" lines last).toList := by
  induction lines with
  | nil => exact fun hmem => (hlast _ hmem).2 rfl
  | cons line lines ih =>
    obtain ⟨hline, hlines⟩ := List.forall_mem_cons.mp hlines
    rw [inputText_cons, List.mem_append, List.mem_append]
    rintro (hmem | hmem | hmem)
    · exact (hline _ hmem).2 rfl
    · exact absurd hmem (by decide)
    · exact ih hlines hmem

/-- The lines of an input are those that its text is made of. The last counts only if it is not
empty. -/
theorem inputLines_inputText {ending : String} (h : ending ∈ ["\n", "\r", "\r\n"])
    {lines : List String} (hlines : ∀ line ∈ lines, OneLine line) {last : String}
    (hlast : OneLine last) :
    inputLines (inputText ending lines last) =
      lines ++ if last.isEmpty then [] else [last] := by
  unfold inputLines
  induction lines with
  | nil =>
    have hsplit := splitLines_append hlast [] []
    rw [List.append_nil, List.append_nil, splitLines, List.reverse_reverse] at hsplit
    rw [inputText_nil, hsplit]
    simp
  | cons line lines ih =>
    obtain ⟨hline, hlines⟩ := List.forall_mem_cons.mp hlines
    have hmore : ending = "\r" → (inputText ending lines last).toList.head? ≠ some '\n' := by
      rintro rfl hhead
      exact not_mem_inputText hlines hlast (List.mem_of_head? hhead)
    rw [inputText_cons, splitLines_append hline, splitLines_ending h hmore, ih hlines]
    simp

/-- The options of a run that is not verbose and shows no prompt. -/
def Options.quiet (precision : Precision) (definitions : List (String × Float))
    (expressions : Option (List String)) : Options :=
  { Options.initial with precision, definitions := definitions.map some, expressions }

/-- The calculator after definitions of variables. -/
def defining (c : Calculator) (definitions : List (String × Float)) : Calculator :=
  definitions.foldl
    (fun c definition => { c with bindings := c.bindings.setVariable definition.1 definition.2 }) c

theorem defineAll_some (c : Calculator) (definitions : List (String × Float)) :
    defineAll false c (definitions.map some) = (.empty, .ok (defining c definitions)) := by
  induction definitions generalizing c with
  | nil => rfl
  | cons definition definitions ih =>
    simp only [List.map_cons, defineAll, ih]
    rfl

theorem defining_functions (c : Calculator) (definitions : List (String × Float)) :
    (defining c definitions).bindings.functions = c.bindings.functions := by
  induction definitions generalizing c with
  | nil => rfl
  | cons definition definitions ih => exact ih _

/-- No evaluation leaves anything behind, since there are no functions but the builtin ones. -/
theorem afterwards_defining (precision : Precision) (definitions : List (String × Float))
    (line : String) :
    (defining (.new precision) definitions).afterwards line =
      defining (.new precision) definitions := by
  refine Calculator.afterwards_of_pure (fun name function hfunction => ?_) line
  rw [defining_functions] at hfunction
  exact absurd hfunction (by simp [Calculator.new, Bindings.empty])

section Quiet
variable (precision : Precision) (definitions : List (String × Float)) (source : Source)

theorem execute_given (lines : List String) :
    execute (.quiet precision definitions (some lines)) source =
      reportOn (defining (.new precision) definitions) lines := by
  have hprepare : prepare (.quiet precision definitions (some lines)) =
      (.empty, .ok (defining (.new precision) definitions)) := defineAll_some _ _
  simp only [execute, hprepare]
  rfl

theorem execute_input :
    execute (.quiet precision definitions none) source =
      reportOn (defining (.new precision) definitions) (inputLines source.input) := by
  have hprepare : prepare (.quiet precision definitions none) =
      (.empty, .ok (defining (.new precision) definitions)) := defineAll_some _ _
  simp only [execute, hprepare]
  rfl

end Quiet

/-- What a run writes for lines of which none ends it is what each of them gives, and then what
the lines behind them give. Nothing behind a line that ends the run has any effect. It is all the
same whether the lines are given on the command line or in the input. -/
theorem execute_lines (precision : Precision) (definitions : List (String × Float))
    (source : Source) :
    let c := defining (.new precision) definitions
    let given (lines : List String) := execute (.quiet precision definitions (some lines)) source
    (∀ first second : List String, (∀ line ∈ first, Passes c line) →
      given (first ++ second) =
          ⟨(given first).transcript ++ (given second).transcript, (given second).ending⟩ ∧
        given first = ⟨records c first, .exit 0⟩ ∧
        ∀ line ∈ spoken first, Recorded c line (record c line)) ∧
    (∀ (first second : List String) (quit : String), stripped quit ∈ quitLines →
      given (first ++ quit :: second) = given first) ∧
    ∀ (lines : List String) (last ending keys : String), (∀ line ∈ lines, OneLine line) →
      OneLine last → ending ∈ ["\n", "\r", "\r\n"] →
      execute (.quiet precision definitions none) ⟨inputText ending lines last, keys⟩ =
        given (lines ++ if last.isEmpty then [] else [last]) := by
  intro c given
  have hgiven : ∀ lines, given lines = reportOn c lines := execute_given precision definitions source
  have hsteady : ∀ line, c.afterwards line = c := afterwards_defining precision definitions
  refine ⟨fun first second hfirst => ⟨?_, ?_, fun line hline => ?_⟩, fun first second quit h => ?_,
    fun lines last ending keys hlines hlast hending => ?_⟩
  · rw [hgiven, hgiven, hgiven, reportOn_append hsteady hfirst, reportOn_eq hsteady hfirst]
  · rw [hgiven, reportOn_eq hsteady hfirst]
  · obtain ⟨hmem, -⟩ := List.mem_filter.mp hline
    obtain ⟨text, htext, rfl⟩ := List.mem_map.mp hmem
    exact recorded_record (hfirst text htext).no_breakdown
  · rw [hgiven, hgiven, reportOn_quit h]
  · rw [hgiven, execute_input, inputLines_inputText hending hlines hlast]

/-- A value, a blank line and a fault, with a line that ends the run between them and another. -/
theorem execute_lines_x :
    let c := defining (.new .exact) [("x", 2.0)]
    let given (lines : List String) := execute (.quiet .exact [("x", 2.0)] (some lines)) ⟨"", ""⟩
    (∀ line ∈ [" x", "", "x)"], Passes c line) ∧
    given ([" x", "", "x)"] ++ ["y", "x"]) =
      ⟨(given [" x", "", "x)"]).transcript ++ (given ["y", "x"]).transcript,
        (given ["y", "x"]).ending⟩ ∧
    given ([" x", "", "x)"] ++ "quit " :: ["x"]) = given [" x", "", "x)"] ∧
    execute (.quiet .exact [("x", 2.0)] none) ⟨inputText "\r\n" [" x", ""] "x)", ""⟩ =
      given [" x", "", "x)"] := by
  intro c given
  have hpass : ∀ line ∈ [" x", "", "x)"], Passes c line := by
    have hcheck : ∀ line ∈ [" x", "", "x)"], stripped line ∉ quitLines ∧
        (match c.evaluate (stripped line) with
          | .error (.breakdown _) => false
          | _ => true) = true := by
      decide +kernel
    intro line hline
    obtain ⟨hquit, hfaultless⟩ := hcheck line hline
    refine ⟨hquit, fun b hb => ?_⟩
    rw [hb] at hfaultless
    exact Bool.false_ne_true hfaultless
  obtain ⟨happend, hquit, hinput⟩ := execute_lines .exact [("x", 2.0)] ⟨"", ""⟩
  exact ⟨hpass, (happend _ _ hpass).1, hquit _ _ _ (by decide +kernel),
    hinput [" x", ""] "x)" "\r\n" "" (by decide) (by decide) (by decide)⟩

end Reckon.CommandLine
