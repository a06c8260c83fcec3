import Reckon.Proofs.Expression.Completeness

/-!
# Every evaluated text is a written tree

A run that succeeds has read the tokens of a tree, and its value and calls are those of the tree.
The tree is put together along the run: each part says what its level has read, and where it has
stopped. Together with completeness this makes the evaluator exactly the grammar.
-/
namespace Reckon.Expression
open Grammar Number
open Text (isBlank)

variable {evaluate : Evaluator} {text rest more : List Char} {e after : Environment}

/-- Where a part of the level stops: behind all blanks and in front of none of its operators. -/
def Stops : Level → List Char → Prop
  | .factor, _ => True
  | .term, more => Clear more ∧ Follows .term more
  | .expression, more => Clear more ∧ Follows .expression more

/-- Wherever the run succeeds, it has read a tree of the level. -/
def Sound (evaluate : Evaluator) (l : Level) (run : Parse Float) : Prop :=
  ∀ (text rest : List Char) (e : Environment) (value : Float) (final : State),
    rest.length ≤ text.length → run (.facing text rest e) = .ok value final →
    ∃ (t : Tree l) (more : List Char) (after : Environment), final = .facing text more after ∧
      t.WellFormed ∧ Reads t.tokens rest more ∧ Stops l more ∧
      t.eval evaluate e = some (value, after)

/-- A successful run has moved on. -/
theorem Sound.length_lt {l : Level} {run : Parse Float} {left : List Char}
    {value : Float} (h : Sound evaluate l run) (hr : rest.length ≤ text.length)
    (hrun : run (.facing text rest e) = .ok value (.facing text left after)) :
    left.length < rest.length := by
  obtain ⟨t, more, between, hfinal, -, hread, -⟩ := h text rest e value _ hr hrun
  obtain rfl : left = more := congrArg (fun s => s.cursor.rest) hfinal
  exact Tree.length_lt hread

/-- An expression has skipped the blanks behind it. -/
theorem Sound.clear {run : Parse Float} {left : List Char} {value : Float}
    (h : Sound evaluate .expression run) (hr : rest.length ≤ text.length)
    (hrun : run (.facing text rest e) = .ok value (.facing text left after)) : Clear left := by
  obtain ⟨t, more, between, hfinal, -, -, hstops, -⟩ := h text rest e value _ hr hrun
  obtain rfl : left = more := congrArg (fun s => s.cursor.rest) hfinal
  exact hstops.1

theorem Stops.dropWhile {l : Level} (h : Stops l rest) : Stops l (rest.dropWhile isBlank) := by
  cases l with
  | factor => trivial
  | term => rwa [h.1]
  | expression => rwa [h.1]

/-- Wherever the chain succeeds, it has applied the operators of a tail. -/
def ChainSound (evaluate : Evaluator) (l : Level) (operand : Parse Float) (rounds : Nat) : Prop :=
  ∀ (text rest : List Char) (e : Environment) (value result : Float) (final : State),
    rest.length ≤ text.length → Stops l rest →
    chain l.operator? operand rounds value (.facing text rest e) = .ok result final →
    ∃ (tail : Tail l) (more : List Char) (after : Environment), final = .facing text more after ∧
      tail.WellFormed ∧ Reads tail.tokens rest more ∧ Clear more ∧ Stops l more ∧
      Ends l.operator? more ∧ tail.eval evaluate value e = some (result, after)

section Chain
variable {l : Level} {operand : Parse Float} {rounds : Nat} (ho : Sound evaluate l operand)
include ho

/-- A tree of the level has been read, and a tail behind it. -/
theorem linked_sound (hchain : ChainSound evaluate l operand rounds) (start : Float → Float)
    {result : Float} {final : State} (hr : rest.length ≤ text.length)
    (h : linked l.operator? operand rounds start (.facing text rest e) = .ok result final) :
    ∃ (first : Tree l) (others : Tail l) (x : Float) (more : List Char) (between after : Environment),
      final = .facing text more after ∧ (first.WellFormed ∧ others.WellFormed) ∧
      Reads (first.tokens ++ others.tokens) rest more ∧ Clear more ∧ Stops l more ∧
      Ends l.operator? more ∧ first.eval evaluate e = some (x, between) ∧
      others.eval evaluate (start x) between = some (result, after) := by
  obtain ⟨x, s, hx, hrest⟩ := bind_eq_ok.mp h
  obtain ⟨first, mid, between, rfl, hw, hread, hstop, heval⟩ := ho text rest e x s hr hx
  have hle := hread.length_le
  obtain ⟨others, more, after, hfinal, hws, hreads, hclear, hstops, hends, hevals⟩ :=
    hchain text mid between _ result final (by omega) hstop hrest
  exact ⟨first, others, x, more, between, after, hfinal, ⟨hw, hws⟩, hread.append hreads, hclear, hstops,
    hends, heval, hevals⟩

theorem chain_sound : ∀ rounds, ChainSound evaluate l operand rounds := by
  intro rounds
  induction rounds with
  | zero => intro text rest e value result final _ _ h; cases h
  | succ rounds ih =>
    intro text rest e value result final hr hstop h
    obtain ⟨operator, mid, hnext⟩ | hend := operator_or_ends l rest
    · have hlt := hnext.length_lt
      rw [chain_next hr hnext operator.operator?_char] at h
      obtain ⟨next, others, x, more, between, after, hfinal, hw, hread, hclear, hstops, hends, heval,
        hevals⟩ := linked_sound ho ih _ (by omega) h
      refine ⟨.cons operator next others, more, after, hfinal, hw, ?_, hclear, hstops, hends, ?_⟩
      · exact reads_cons.mpr ⟨mid, hnext, hread⟩
      · simp only [Tail.eval, heval, Option.bind_eq_bind, Option.bind_some]
        exact hevals
    · rw [chain_end hr hend] at h
      cases h
      exact ⟨.nil, _, e, rfl, trivial, reads_dropWhile rest, clear_dropWhile rest, hstop.dropWhile,
        hend.congr (dropWhile_dropWhile rest), rfl⟩

end Chain

section Levels
variable {inner : Parse Float} {rounds : Nat} (hi : Sound evaluate .factor inner)
include hi

theorem term_sound : Sound evaluate .term (termOf inner rounds) := by
  intro text rest e value final hr h
  rw [termOf_eq] at h
  obtain ⟨first, others, x, more, between, after, hfinal, hw, hread, hclear, -, hends, heval, hevals⟩ :=
    linked_sound hi (chain_sound hi rounds) id hr h
  refine ⟨.term first others, more, after, hfinal, hw, hread, ⟨hclear, hends⟩, ?_⟩
  simp only [Tree.eval, heval, Option.bind_eq_bind, Option.bind_some]
  exact hevals

theorem expression_sound : Sound evaluate .expression (expressionOf inner rounds) := by
  intro text rest e value final hr h
  have ht : Sound evaluate .term (termOf inner rounds) := term_sound hi
  rw [expressionOf_eq] at h
  obtain ⟨first, others, x, more, between, after, hfinal, hw, hread, hclear, hstops, hends, heval,
    hevals⟩ := linked_sound ht (chain_sound ht rounds) id hr h
  refine ⟨.expression first others, more, after, hfinal, hw, hread, ⟨hclear, hstops.2, hends⟩, ?_⟩
  simp only [Tree.eval, heval, Option.bind_eq_bind, Option.bind_some]
  exact hevals

end Levels

/-- Where an expression has stopped, no sign follows. -/
theorem startsWithSign_eq_false {arguments : Arguments} (h : Ends additive? rest)
    (hread : Reads (arguments.tokens ++ [.closeParen]) rest more) :
    startsWithSign arguments.tokens = false := by
  obtain ⟨t, tail, hnext, hsign, -⟩ := Arguments.exists_next hread
  rw [← hsign]
  cases t with
  | mark c hm =>
    have hc := h c (by rw [hnext.1]; rfl)
    by_contra hs
    simp only [startsWithSign, Bool.not_eq_false, Bool.or_eq_true, beq_iff_eq] at hs
    rcases hs with rfl | rfl <;> exact absurd hc (by simp [additive?])
  | name n => rfl
  | number n => rfl

theorem argumentList_sound {run : Parse Float} (hx : Sound evaluate .expression run) :
    ∀ (rounds : Nat) (rest : List Char) (e : Environment) (values : List Float) (final : State),
      rest.length ≤ text.length →
      argumentList run rounds (.facing text rest e) = .ok values final →
      ∃ (arguments : Arguments) (more : List Char) (after : Environment),
        final = .facing text more after ∧ arguments.WellFormed ∧
        Reads (arguments.tokens ++ [.closeParen]) rest more ∧
        arguments.eval evaluate e = some (values, after) := by
  intro rounds
  induction rounds with
  | zero => intro rest e values final _ h; cases h
  | succ rounds ih =>
    intro rest e values final hr h
    have hdrop := rest.length_dropWhile_le isBlank
    cases hstart : (rest.dropWhile isBlank).head?.any Cursor.isOperandStart with
    | false =>
      rw [argumentList_end hr hstart] at h
      obtain ⟨_, s, hclose, hdone⟩ := bind_eq_ok.mp h
      obtain ⟨left, hnext⟩ | hmiss := Cursor.next_or_ne (c := ')') rfl rest
      · rw [close_next (by omega) (next_dropWhile.mpr hnext)] at hclose
        cases hclose
        cases hdone
        exact ⟨.nil, left, e, rfl, trivial, reads_cons.mpr ⟨left, hnext, .nil left⟩, rfl⟩
      · rw [close_fail (by omega) (by simpa using hmiss)] at hclose
        cases hclose
    | true =>
      rw [argumentList_next hr hstart] at h
      obtain ⟨x, s, hrun, hrest⟩ := bind_eq_ok.mp h
      obtain ⟨first, mid, between, rfl, hw, hread, ⟨hclear, hfollow⟩, heval⟩ :=
        hx text (rest.dropWhile isBlank) e x s (by omega) hrun
      have hle := hread.length_le
      obtain ⟨_, s, hskip, hrest⟩ := bind_eq_ok.mp hrest
      obtain ⟨xs, s', hlist, hdone⟩ := bind_eq_ok.mp hrest
      cases hdone
      -- the expression has skipped its blanks, so a comma behind it stands under the cursor
      by_cases hcomma : mid.head? = some ','
      · obtain ⟨next, rfl⟩ : ∃ next, mid = ',' :: next := List.head?_eq_some_iff.mp hcomma
        rw [skipComma_next (by omega)] at hskip
        cases hskip
        simp only [List.length_cons] at hle
        obtain ⟨others, more, after, rfl, hws, hreads, hevals⟩ :=
          ih next between xs _ (by omega) hlist
        refine ⟨.cons first true others, more, after, rfl, ⟨hw, by simp, hws⟩, ?_, ?_⟩
        · have hcomma : Reads [.comma] (',' :: next) next :=
            reads_cons.mpr ⟨next, ⟨hclear, trivial⟩, .nil next⟩
          have hall := ((reads_dropWhile rest).append hread).append (hcomma.append hreads)
          simpa [Arguments.tokens] using hall
        · simp [Arguments.eval, heval, hevals]
      · rw [skipComma_miss hcomma] at hskip
        cases hskip
        obtain ⟨others, more, after, rfl, hws, hreads, hevals⟩ :=
          ih mid between xs _ (by omega) hlist
        have hsign := startsWithSign_eq_false hfollow.2 hreads
        refine ⟨.cons first false others, more, after, rfl, ⟨hw, fun _ => hsign, hws⟩, ?_, ?_⟩
        · have hall := ((reads_dropWhile rest).append hread).append hreads
          simpa [Arguments.tokens] using hall
        · simp [Arguments.eval, heval, hevals]

/-- Only a group starts with a parenthesis. -/
theorem isGroup_eq_false {t : Tree .factor} (h : Reads t.tokens rest more)
    (hne : ∀ c ∈ (rest.dropWhile isBlank).head?, c ≠ '(') : t.isGroup = false := by
  cases t with
  | group inner =>
    obtain ⟨mid, hopen, -⟩ := reads_cons.mp h
    exact absurd rfl (hne '(' (by rw [hopen.1]; rfl))
  | _ => rfl

/-- A list in parentheses has been read. With no round left it can only be empty. -/
theorem argumentsOf_list_sound {inner : Parse Float} {rounds : Nat}
    (hi : Sound evaluate .factor inner) {values : List Float} {final : State}
    (hr : rest.length ≤ text.length) {start : List Char} (hopen : Next rest .openParen start)
    (h : argumentsOf inner rounds (.facing text rest e) = .ok values final) :
    ∃ (arguments : Arguments) (more : List Char) (after : Environment),
      final = .facing text more after ∧ arguments.WellFormed ∧
      Reads (arguments.tokens ++ [.closeParen]) start more ∧
      arguments.eval evaluate e = some (values, after) := by
  have hlt := hopen.length_lt
  cases rounds with
  | succ rounds =>
    rw [argumentsOf_list hr hopen] at h
    exact argumentList_sound (expression_sound hi) _ start e values final (by omega) h
  | zero =>
    rw [argumentsOf, bind_ok (onCursor_facing (Cursor.consumeIf_next hr hopen)), if_pos rfl] at h
    obtain ⟨left, hclose⟩ | hmiss := Cursor.next_or_ne (c := ')') rfl start
    · rw [bind_ok (onCursor_facing (Cursor.consumeIf_next (by omega) hclose))] at h
      cases h
      exact ⟨.nil, left, e, rfl, trivial, reads_cons.mpr ⟨left, hclose, .nil left⟩, rfl⟩
    · rw [bind_ok (onCursor_facing (Cursor.consumeIf_miss (by omega) hmiss))] at h
      cases h

/-- A list in parentheses has been read, or a single factor that is no group. -/
theorem argumentsOf_sound {inner : Parse Float} {rounds : Nat} (hi : Sound evaluate .factor inner)
    {values : List Float} {final : State} (hr : rest.length ≤ text.length)
    (h : argumentsOf inner rounds (.facing text rest e) = .ok values final) :
    ∃ (more : List Char) (after : Environment), final = .facing text more after ∧
      ((∃ arguments : Arguments, arguments.WellFormed ∧
        Reads (.openParen :: (arguments.tokens ++ [.closeParen])) rest more ∧
        arguments.eval evaluate e = some (values, after)) ∨
      ∃ (argument : Tree .factor) (x : Float), values = [x] ∧ argument.WellFormed ∧
        argument.isGroup = false ∧ Reads argument.tokens rest more ∧
        argument.eval evaluate e = some (x, after)) := by
  obtain ⟨start, hopen⟩ | hbare := Cursor.next_or_ne (c := '(') rfl rest
  · obtain ⟨arguments, more, after, hfinal, hw, hread, heval⟩ := argumentsOf_list_sound hi hr hopen h
    exact ⟨more, after, hfinal, .inl ⟨arguments, hw, reads_cons.mpr ⟨start, hopen, hread⟩, heval⟩⟩
  · rw [argumentsOf_bare hr hbare] at h
    obtain ⟨x, s, hx, hdone⟩ := bind_eq_ok.mp h
    cases hdone
    obtain ⟨argument, more, after, hfinal, hw, hread, -, heval⟩ := hi text rest e x _ hr hx
    exact ⟨more, after, hfinal,
      .inr ⟨argument, x, rfl, hw, isGroup_eq_false hread hbare, hread, heval⟩⟩

theorem factor_sound : ∀ bound, Sound evaluate .factor (factor evaluate bound) := by
  intro bound
  induction bound with
  | zero => intro text rest e value final _ h; cases h
  | succ bound ih =>
    intro text rest e value final hr h
    rw [factor_succ] at h
    cases hstart : (rest.dropWhile isBlank).head?.any Cursor.isOperandStart with
    | false =>
      rw [factorOf_fail hr hstart] at h
      cases h
    | true =>
      cases Cursor.lead_of_isOperandStart hstart with
      | sign negative mid hsign =>
        have hlt := hsign.length_lt
        rw [factorOf_sign hr hsign] at h
        obtain ⟨x, hx, rfl⟩ : ∃ x, factor evaluate bound (.facing text mid e) = .ok x final ∧
            value = if negative then -x else x := by
          cases negative with
          | false => exact ⟨value, h, rfl⟩
          | true =>
            obtain ⟨x, s, hx, hdone⟩ := bind_eq_ok.mp h
            cases hdone
            exact ⟨x, hx, rfl⟩
        obtain ⟨inner, more, after, rfl, hw, hread, -, heval⟩ := ih text mid e x final (by omega) hx
        refine ⟨.signed negative inner, more, after, rfl, hw, ?_, trivial, ?_⟩
        · exact reads_cons.mpr ⟨mid, hsign, hread⟩
        · simp [Tree.eval, heval]
      | group mid hopen =>
        have hlt := hopen.length_lt
        rw [factorOf_group hr hopen] at h
        obtain ⟨x, s, hx, hrest⟩ := bind_eq_ok.mp h
        obtain ⟨inner, stop, after, rfl, hw, hread, -, heval⟩ :=
          expression_sound ih text mid e x s (by omega) hx
        have hle := hread.length_le
        obtain ⟨_, s, hclose, hdone⟩ := bind_eq_ok.mp hrest
        cases hdone
        obtain ⟨left, hnext⟩ | hmiss := Cursor.next_or_ne (c := ')') rfl stop
        · rw [close_next (by omega) hnext] at hclose
          cases hclose
          refine ⟨.group inner, left, after, rfl, hw, ?_, trivial, heval⟩
          exact reads_cons.mpr ⟨mid, hopen, hread.append (reads_cons.mpr ⟨left, hnext, .nil left⟩)⟩
        · rw [close_fail (by omega) hmiss] at hclose
          cases hclose
      | number n mid hnumber =>
        rw [factorOf_number hr hnumber] at h
        cases h
        exact ⟨.ofLiteral n, mid, e, rfl, trivial, reads_cons.mpr ⟨mid, hnumber, .nil mid⟩, trivial, rfl⟩
      | name n mid hname =>
        have hlt := hname.length_lt
        rw [factorOf_name hr hname] at h
        rcases meaning_cases (e.bindings.meaning n.string) with ⟨x, hx⟩ | hf | hunknown
        · rw [resolve_held (s := .facing text mid e) hx] at h
          cases h
          refine ⟨.value n, mid, e, rfl, trivial, reads_cons.mpr ⟨mid, hname, .nil mid⟩, trivial, ?_⟩
          simp [Tree.eval, resolved_eq_meaning, hx]
        · rw [resolve_function (s := .facing text mid e) hf] at h
          obtain ⟨values, s, hvalues, hcall⟩ := bind_eq_ok.mp h
          obtain ⟨more, between, rfl, hread⟩ := argumentsOf_sound ih (by omega) hvalues
          obtain ⟨hcalled, hcursor⟩ := applied_eq_ok.mp hcall
          obtain ⟨arguments, hw, hread, heval⟩ | ⟨argument, x, rfl, hw, hgroup, hread, heval⟩ := hread
          · refine ⟨.call n arguments, more, final.environment, State.eq_facing hcursor, hw, ?_,
              trivial, ?_⟩
            · exact reads_cons.mpr ⟨mid, hname, hread⟩
            · simp only [Tree.eval, resolved_eq_meaning, heval, Option.bind_eq_bind, Option.bind_some]
              exact hcalled
          · refine ⟨.bare n argument, more, final.environment, State.eq_facing hcursor, ⟨hw, hgroup⟩,
              ?_, trivial, ?_⟩
            · exact reads_cons.mpr ⟨mid, hname, hread⟩
            · simp only [Tree.eval, resolved_eq_meaning, heval, Option.bind_eq_bind, Option.bind_some]
              exact hcalled
        · rw [resolve_unknown (s := .facing text mid e) hunknown] at h
          cases h

theorem exists_tree_of_evaluateText {value : Float}
    (h : evaluateText evaluate text e = (.ok value, after)) :
    ∃ t : Tree .expression, t.WellFormed ∧ Reads t.tokens text [] ∧
      t.eval evaluate e = some (value, after) := by
  rw [evaluateText_eq] at h
  rcases hrun : whole evaluate (boundFor text) (.facing text text e) with ⟨x, final⟩ | ⟨halt, final⟩
  · obtain ⟨rfl, rfl⟩ : x = value ∧ final.environment = after := by
      simpa [hrun, outcomeOf] using h
    obtain ⟨y, s, hy, -⟩ := bind_eq_ok.mp hrun
    obtain ⟨t, more, between, rfl, hw, hread, -, heval⟩ :=
      expression_sound (factor_sound (boundFor text)) text text e y s le_rfl hy
    cases more with
    | nil =>
      rw [whole_end hy] at hrun
      cases hrun
      exact ⟨t, hw, hread, heval⟩
    | cons c tail =>
      rw [whole_fail hy] at hrun
      cases hrun
  · simp [hrun, outcomeOf] at h

/-- Soundness and completeness: a text is evaluated to a value exactly if it is the tokens of a tree
that has this value. The same calls are made, in the same order. -/
theorem evaluateText_eq_ok_iff {value : Float} :
    evaluateText evaluate text e = (.ok value, after) ↔
      ∃ t : Tree .expression, t.WellFormed ∧ Reads t.tokens text [] ∧
        t.eval evaluate e = some (value, after) := by
  constructor
  · exact exists_tree_of_evaluateText
  · rintro ⟨t, hw, hread, heval⟩
    exact evaluateText_of_reads hw hread heval

end Reckon.Expression
