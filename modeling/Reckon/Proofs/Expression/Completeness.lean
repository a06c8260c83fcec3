import Reckon.Proofs.Expression.Step

/-!
# Every written tree is evaluated

Whatever tree of an expression is written down, evaluating the text gives the value of the tree.
What follows a part of a tree must not go on with an operator that would belong to the part, and
the bound must exceed the length of the text that is left. Each part hands both on to its own
parts, so one induction on the bound carries all levels.
-/
namespace Reckon.Expression
open Grammar Number
open Text (isBlank)

variable {evaluate : Evaluator} {text rest more : List Char} {e after : Environment}

/-- The text does not go on with an operator that belongs to a part of the level. -/
def Follows : Level → List Char → Prop
  | .factor, _ => True
  | .term, rest => Ends multiplicative? rest
  | .expression, rest => Ends multiplicative? rest ∧ Ends additive? rest

/-- What is left behind a part of the level: the blanks behind a factor are left too. -/
def Leaves : Level → List Char → List Char → Prop
  | .factor, left, more => left.dropWhile isBlank = more
  | .term, left, more => left = more
  | .expression, left, more => left = more

/-- The run evaluates every tree of the level whose tokens the text is read as. -/
def Complete (evaluate : Evaluator) (l : Level) (bound : Nat) (run : Parse Float) : Prop :=
  ∀ (t : Tree l) (text rest more : List Char) (e after : Environment) (value : Float),
    t.WellFormed → Reads t.tokens rest more → Clear more → Follows l more →
    rest.length ≤ text.length → rest.length < bound → t.eval evaluate e = some (value, after) →
    ∃ left, left.length < rest.length ∧ Leaves l left more ∧
      run (.facing text rest e) = .ok value (.facing text left after)

theorem Leaves.dropWhile_eq {l : Level} {left : List Char} (h : Leaves l left more)
    (hc : Clear more) : left.dropWhile isBlank = more.dropWhile isBlank := by
  cases l with
  | factor => exact h.trans hc.symm
  | term => exact congrArg _ h
  | expression => exact congrArg _ h

theorem Ends.congr {operator? : Char → Option (Float → Float → Float)} {other : List Char}
    (h : Ends operator? rest) (he : other.dropWhile isBlank = rest.dropWhile isBlank) :
    Ends operator? other := by
  rw [Ends, he]
  exact h

theorem Follows.congr {l : Level} {other : List Char} (h : Follows l rest)
    (he : other.dropWhile isBlank = rest.dropWhile isBlank) : Follows l other := by
  cases l with
  | factor => trivial
  | term => exact Ends.congr h he
  | expression => exact ⟨h.1.congr he, h.2.congr he⟩

/-- A token that is none of the operators ends a chain. -/
theorem Ends.of_next {operator? : Char → Option (Float → Float → Float)} {t : Token}
    (h : Next rest t more) (ht : ∀ c ∈ t.text.head?, operator? c = none) : Ends operator? rest := by
  obtain ⟨d, tail, hd, -⟩ := t.exists_cons
  intro c hc
  rw [h.1, hd] at hc
  exact ht c (by rw [hd]; exact hc)

/-- Nothing goes on behind a closing parenthesis that an expression is followed by. -/
theorem follows_of_close (h : Next rest .closeParen more) : Follows .expression rest := by
  constructor <;> refine Ends.of_next h fun c hc => ?_ <;> obtain rfl := Option.some.inj hc <;> rfl

theorem multiplicative?_eq_none_of_additive? {c : Char} {apply : Float → Float → Float}
    (h : additive? c = some apply) : multiplicative? c = none := by
  simp only [additive?] at h
  split at h <;> first | rfl | simp at h

/-- An operand in a chain is followed by an operator of its own level or by what ends the chain. -/
theorem Follows.of_tail {l : Level} {tail : Tail l} (h : Follows l more)
    (ht : Reads tail.tokens rest more) : Follows l rest := by
  cases tail with
  | nil => exact h.congr ht.dropWhile_eq
  | cons operator next others =>
    obtain ⟨mid, hnext, -⟩ := reads_cons.mp ht
    cases l with
    | factor => trivial
    | term =>
      refine Ends.of_next hnext fun c hc => ?_
      obtain rfl : operator.char = c := by simpa [Operator.token, Token.text] using hc
      exact multiplicative?_eq_none_of_additive? operator.operator?_char
    | expression => cases operator

/-- The chain applies the operators of every tail that the text is read as. -/
def ChainComplete (evaluate : Evaluator) (l : Level) (bound : Nat) (operand : Parse Float)
    (rounds : Nat) : Prop :=
  ∀ (tail : Tail l) (text rest more : List Char) (e after : Environment) (value final : Float),
    tail.WellFormed → Reads tail.tokens rest more → Clear more → Follows l more →
    Ends l.operator? more → rest.length ≤ text.length → rest.length < bound →
    rest.length < rounds → tail.eval evaluate value e = some (final, after) →
    chain l.operator? operand rounds value (.facing text rest e) =
      .ok final (.facing text more after)

section Chain
variable {l : Level} {operand : Parse Float} {bound rounds : Nat}
  (ho : Complete evaluate l bound operand)
include ho

/-- A tree of the level and a tail behind it. -/
theorem linked_complete (hchain : ChainComplete evaluate l bound operand rounds)
    (start : Float → Float) {first : Tree l} {others : Tail l} {x final : Float}
    {between : Environment} (hw : first.WellFormed ∧ others.WellFormed)
    (hread : Reads (first.tokens ++ others.tokens) rest more) (hclear : Clear more)
    (hfollow : Follows l more) (hend : Ends l.operator? more) (hr : rest.length ≤ text.length)
    (hbound : rest.length < bound) (hrounds : rest.length ≤ rounds)
    (hx : first.eval evaluate e = some (x, between))
    (hrest : others.eval evaluate (start x) between = some (final, after)) :
    linked l.operator? operand rounds start (.facing text rest e) =
      .ok final (.facing text more after) := by
  obtain ⟨mid, hmid, hfirst, hothers⟩ := hread.exists_clear hclear
  obtain ⟨left, hleft, hleaves, hrun⟩ := ho first text rest mid e between x hw.1 hfirst hmid
    (hfollow.of_tail hothers) hr hbound hx
  have hsame := hleaves.dropWhile_eq hmid
  rw [linked, bind_ok hrun]
  exact hchain others text left more between after _ final hw.2 (hothers.congr hclear hsame) hclear
    hfollow hend (by omega) (by omega) (by omega) hrest

theorem chain_complete : ∀ rounds, ChainComplete evaluate l bound operand rounds := by
  intro rounds
  induction rounds with
  | zero => intro tail text rest more e after value final _ _ _ _ _ _ _ h; omega
  | succ rounds ih =>
    intro tail text rest more e after value final hw hread hclear hfollow hend hr hbound hrounds heval
    cases tail with
    | nil =>
      have hrest : rest.dropWhile isBlank = more := hread.dropWhile_eq.trans hclear
      obtain ⟨rfl, rfl⟩ : value = final ∧ e = after := by simpa [Tail.eval] using heval
      rw [chain_end hr (hend.congr (hrest.trans hclear.symm)), hrest]
    | cons operator next others =>
      obtain ⟨mid, hnext, hmid⟩ := reads_cons.mp hread
      simp only [Tail.eval, Option.bind_eq_bind, Option.bind_eq_some_iff, Prod.exists] at heval
      obtain ⟨x, between, hx, hrest⟩ := heval
      have hlt := hnext.length_lt
      rw [chain_next hr hnext operator.operator?_char]
      exact linked_complete ho ih _ hw hmid hclear hfollow hend (by omega) (by omega) (by omega) hx hrest

end Chain

section Levels
variable {inner : Parse Float} {bound : Nat} (hi : Complete evaluate .factor bound inner)
include hi

theorem term_complete : Complete evaluate .term bound (termOf inner bound) := by
  intro t text rest more e after value hw hread hclear hfollow hr hbound heval
  cases t with
  | term first others =>
    have hlt := Tree.length_lt hread
    simp only [Tree.eval, Option.bind_eq_bind, Option.bind_eq_some_iff, Prod.exists] at heval
    obtain ⟨x, between, hx, hrest⟩ := heval
    refine ⟨more, hlt, rfl, ?_⟩
    rw [termOf_eq]
    exact linked_complete hi (chain_complete hi bound) id hw hread hclear trivial hfollow hr hbound
      hbound.le hx hrest

theorem expression_complete : Complete evaluate .expression bound (expressionOf inner bound) := by
  intro t text rest more e after value hw hread hclear hfollow hr hbound heval
  cases t with
  | expression first others =>
    have hlt := Tree.length_lt hread
    have ht := term_complete hi
    simp only [Tree.eval, Option.bind_eq_bind, Option.bind_eq_some_iff, Prod.exists] at heval
    obtain ⟨x, between, hx, hrest⟩ := heval
    refine ⟨more, hlt, rfl, ?_⟩
    rw [expressionOf_eq]
    exact linked_complete ht (chain_complete ht bound) id hw hread hclear hfollow.1 hfollow.2 hr hbound
      hbound.le hx hrest

end Levels

/-- No operator is a word character or a parenthesis, and only the signs start an operand. -/
theorem operator?_eq_none_of_startsOperand {l : Level} {t : Token} (h : t.startsOperand = true)
    (hs : startsWithSign [t] = false) : ∀ c ∈ t.text.head?, l.operator? c = none := by
  intro c hc
  by_contra hne
  obtain ⟨apply, hc'⟩ := Option.ne_none_iff_exists'.mp hne
  have hmark := isMark_of_operator? hc'
  have hword := isWord_eq_false_of_isMark hmark
  cases t with
  | mark d hd =>
    obtain rfl : d = c := by simpa [Token.text] using hc
    have hnumber : Cursor.isNumberStart d = false := by
      by_contra hstart
      have hblank := isBlank_eq_false_of_isMark hmark
      simp only [Cursor.isNumberStart, Bool.not_eq_false, Bool.or_eq_true, beq_iff_eq] at hstart
      rcases hstart with hdigit | rfl
      · simp [Text.isWord_of_isDigit hdigit] at hword
      · simp [isMark] at hmark
    have hname : Text.isNameStart d = false := by
      by_contra hstart
      simp [Text.isWord_of_isNameStart (by simpa using hstart)] at hword
    simp only [startsWithSign, Bool.or_eq_false_iff, beq_eq_false_iff_ne] at hs
    obtain rfl : d = '(' := by
      simpa [Token.startsOperand, Cursor.isOperandStart, hs, hnumber, hname] using h
    cases l <;> exact absurd hc' (by simp [Level.operator?, multiplicative?, additive?])
  | name n =>
    obtain ⟨d, more, hd, hstart⟩ := n.exists_cons
    obtain rfl : d = c := by simpa [Token.text, hd] using hc
    simp [Text.isWord_of_isNameStart hstart] at hword
  | number n =>
    obtain ⟨d, more, hd, hstart⟩ := n.exists_cons
    obtain rfl : d = c := by simpa [Token.text, hd] using hc
    simp only [Cursor.isNumberStart, Bool.or_eq_true, beq_iff_eq] at hstart
    rcases hstart with hdigit | rfl
    · simp [Text.isWord_of_isDigit hdigit] at hword
    · simp [isMark] at hmark

/-- Arguments are followed by the closing parenthesis, or by the first token of one of them. -/
theorem Arguments.exists_next {arguments : Arguments}
    (h : Reads (arguments.tokens ++ [.closeParen]) rest more) :
    ∃ t tail, Next rest t tail ∧ startsWithSign [t] = startsWithSign arguments.tokens ∧
      (t = .closeParen ∨ t.startsOperand = true) := by
  cases arguments with
  | nil =>
    obtain ⟨tail, hnext, -⟩ := reads_cons.mp h
    exact ⟨_, tail, hnext, rfl, .inl rfl⟩
  | cons first comma others =>
    obtain ⟨t, tokens, ht, hoperand⟩ := first.exists_token
    simp only [Arguments.tokens, ht, List.cons_append] at h ⊢
    obtain ⟨tail, hnext, -⟩ := reads_cons.mp h
    exact ⟨t, tail, hnext, by cases t <;> rfl, .inr hoperand⟩

/-- No argument goes on with what stands behind it: that is a comma, the closing parenthesis or the
next argument, which then starts with no sign. -/
theorem follows_of_arguments {arguments : Arguments} {comma : Bool}
    (hw : comma = false → startsWithSign arguments.tokens = false)
    (h : Reads ((if comma then [.comma] else []) ++ (arguments.tokens ++ [.closeParen])) rest more) :
    Follows .expression rest := by
  have hfirst : ∃ t tail, Next rest t tail ∧ ∀ l : Level, ∀ c ∈ t.text.head?, l.operator? c = none := by
    cases comma with
    | true =>
      obtain ⟨tail, hnext, -⟩ := reads_cons.mp h
      refine ⟨_, tail, hnext, fun l c hc => ?_⟩
      obtain rfl := Option.some.inj hc
      cases l <;> rfl
    | false =>
      obtain ⟨t, tail, hnext, hsign, rfl | hoperand⟩ := Arguments.exists_next h
      · refine ⟨_, tail, hnext, fun l c hc => ?_⟩
        obtain rfl := Option.some.inj hc
        cases l <;> rfl
      · exact ⟨t, tail, hnext,
          fun l => operator?_eq_none_of_startsOperand hoperand (hsign.trans (hw rfl))⟩
  obtain ⟨t, tail, hnext, hnone⟩ := hfirst
  exact ⟨Ends.of_next hnext (hnone .factor), Ends.of_next hnext (hnone .term)⟩

/-- No comma stands in front of arguments that have been read. -/
theorem head?_ne_comma {arguments : Arguments} (hc : Clear rest)
    (h : Reads (arguments.tokens ++ [.closeParen]) rest more) : rest.head? ≠ some ',' := by
  obtain ⟨t, tail, hnext, -, hfirst⟩ := Arguments.exists_next h
  have hstart := hnext.any_isOperandStart
  intro hcomma
  rw [hc, hcomma] at hstart
  rcases hfirst with rfl | hoperand
  · have hd := hc.symm.trans hnext.1
    simp [hd, Token.closeParen, Token.text] at hcomma
  · rw [hoperand] at hstart
    exact absurd hstart (by decide)

theorem argumentList_complete {run : Parse Float} {bound : Nat}
    (hx : Complete evaluate .expression bound run) :
    ∀ (rounds : Nat) (arguments : Arguments) (rest : List Char) (e : Environment)
      (values : List Float),
      arguments.WellFormed → Reads (arguments.tokens ++ [.closeParen]) rest more → Clear more →
      rest.length ≤ text.length → rest.length < bound → rest.length < rounds →
      arguments.eval evaluate e = some (values, after) →
      ∃ left, left.length < rest.length ∧ left.dropWhile isBlank = more ∧
        argumentList run rounds (.facing text rest e) = .ok values (.facing text left after) := by
  intro rounds
  induction rounds with
  | zero => intro arguments rest e values _ _ _ _ _ h; omega
  | succ rounds ih =>
    intro arguments rest e values hw hread hclear hr hbound hrounds heval
    have hdrop := rest.length_dropWhile_le isBlank
    cases arguments with
    | nil =>
      obtain ⟨left, hnext, hleft⟩ := reads_cons.mp hread
      obtain ⟨rfl, rfl⟩ : [] = values ∧ e = after := by simpa [Arguments.eval] using heval
      exact ⟨left, hnext.length_lt, hleft.dropWhile_eq.trans hclear, argumentList_close hr hnext⟩
    | cons first comma others =>
      obtain ⟨hfirst, hsign, hothers⟩ := hw
      simp only [Arguments.tokens, List.append_assoc] at hread
      obtain ⟨mid, hmid, hargument, hmore⟩ := hread.exists_clear hclear
      have hfollow := follows_of_arguments hsign hmore
      simp only [Arguments.eval, Option.bind_eq_bind, Option.bind_eq_some_iff, Prod.exists] at heval
      obtain ⟨x, between, hx', xs, done, hxs, hdone⟩ := heval
      obtain ⟨rfl, rfl⟩ : x :: xs = values ∧ done = after := by simpa using hdone
      have hstart := Tree.any_isOperandStart hargument
      obtain ⟨start, hlt, hstop, hrun⟩ := hx first text (rest.dropWhile isBlank) mid e between x hfirst
        (hargument.congr hmid (dropWhile_dropWhile rest)) hmid hfollow (by omega) (by omega) hx'
      obtain rfl : mid = start := hstop.symm
      -- a comma stands directly behind the argument, whose blanks have been skipped
      obtain ⟨next, hnext, hskip, hnexts⟩ : ∃ next, next.length ≤ mid.length ∧
          (skipComma : Parse Unit) (.facing text mid between) = .ok () (.facing text next between) ∧
          Reads (others.tokens ++ [.closeParen]) next more := by
        cases comma with
        | true =>
          obtain ⟨next, hcomma, hnexts⟩ := reads_cons.mp hmore
          obtain rfl : mid = ',' :: next := hmid.symm.trans hcomma.1
          exact ⟨next, by simp, skipComma_next (by omega), hnexts⟩
        | false => exact ⟨mid, le_rfl, skipComma_miss (head?_ne_comma hmid hmore), hmore⟩
      obtain ⟨left, hleft, hblank, hlist⟩ := ih others next between xs hothers hnexts hclear
        (by omega) (by omega) (by omega) hxs
      refine ⟨left, by omega, hblank, ?_⟩
      rw [argumentList_next hr hstart, bind_ok hrun, bind_ok hskip, bind_ok hlist]
      rfl

theorem isFunction_of_called {name : String} {meaning : Meaning} {values : List Float}
    {result : Float × Environment} (h : called evaluate name meaning values e = some result) :
    isFunction meaning = true := by
  match meaning with
  | .custom _ => rfl
  | .builtin _ => rfl
  | .variable _ => simp [called] at h
  | .constant _ => simp [called] at h
  | .unknown => simp [called] at h

/-- Once the arguments of a call have been read, the call has the value that its tree has. -/
theorem resolve_called {arguments : Parse (List Float)} {name : String} {start : Nat}
    {values : List Float} {between : Environment} {left : List Char} {value : Float}
    (ha : arguments (.facing text rest e) = .ok values (.facing text left between))
    (hc : called evaluate name (resolved e.bindings name) values between = some (value, after)) :
    resolve evaluate arguments name start (.facing text rest e) =
      .ok value (.facing text left after) := by
  rw [resolved_eq_meaning] at hc
  have hf : isFunction ((State.facing text rest e).environment.bindings.meaning name) = true :=
    isFunction_of_called hc
  rw [resolve_function hf, bind_ok ha]
  exact applied_eq_ok.mpr ⟨hc, rfl⟩

/-- A factor that is no group starts with no parenthesis. -/
theorem head?_ne_open {t : Tree .factor} (hg : t.isGroup = false) (h : Reads t.tokens rest more) :
    ∀ c ∈ (rest.dropWhile isBlank).head?, c ≠ '(' := by
  have hfirst : ∃ first tokens, t.tokens = first :: tokens ∧ first.text.head? ≠ some '(' := by
    have hname : ∀ n : Name, n.text.head? ≠ some '(' := by
      intro n hn
      obtain ⟨d, tail, hd, hstart⟩ := n.exists_cons
      obtain rfl : d = '(' := by simpa [hd] using hn
      exact absurd hstart (by decide)
    cases t with
    | signed negative inner => exact ⟨_, _, rfl, by cases negative <;> decide⟩
    | group inner => simp [Tree.isGroup] at hg
    | value n => exact ⟨_, _, rfl, hname n⟩
    | call n arguments => exact ⟨_, _, rfl, hname n⟩
    | bare n argument => exact ⟨_, _, rfl, hname n⟩
    | literal n nearest h =>
      refine ⟨_, _, rfl, fun hn => ?_⟩
      obtain ⟨d, tail, hd, hstart⟩ := n.exists_cons
      obtain rfl : d = '(' := by simpa [Token.text, hd] using hn
      exact absurd hstart (by decide)
  obtain ⟨first, tokens, ht, hne⟩ := hfirst
  obtain ⟨d, tail, hd, -⟩ := first.exists_cons
  rw [ht] at h
  obtain ⟨mid, hnext, -⟩ := reads_cons.mp h
  rintro c hc rfl
  rw [hnext.1, hd] at hc
  rw [hd] at hne
  exact hne hc

theorem factor_complete : ∀ bound, Complete evaluate .factor bound (factor evaluate bound) := by
  intro bound
  induction bound with
  | zero => intro t text rest more e after value _ _ _ _ _ h; omega
  | succ bound ih =>
    intro t text rest more e after value hw hread hclear _ hr hbound heval
    rw [factor_succ]
    cases t with
    | signed negative inner =>
      obtain ⟨mid, hsign, hinner⟩ := reads_cons.mp hread
      have hlt := hsign.length_lt
      simp only [Tree.eval, Option.bind_eq_bind, Option.bind_eq_some_iff, Prod.exists] at heval
      obtain ⟨x, between, hx, hvalue⟩ := heval
      obtain ⟨rfl, rfl⟩ : (if negative then -x else x) = value ∧ between = after := by
        simpa using hvalue
      obtain ⟨left, hleft, hleaves, hrun⟩ := ih inner text mid more e between x hw hinner hclear
        trivial (by omega) (by omega) hx
      refine ⟨left, by omega, hleaves, ?_⟩
      rw [factorOf_sign hr hsign]
      cases negative with
      | false => exact hrun
      | true => exact bind_ok hrun
    | group inner =>
      obtain ⟨mid, hopen, hmid⟩ := reads_cons.mp hread
      obtain ⟨stop, hstop, hinner, hclose⟩ := hmid.exists_clear hclear
      obtain ⟨left, hnext, hleft⟩ := reads_cons.mp hclose
      have hlt := hopen.length_lt
      have hlt' := hnext.length_lt
      obtain ⟨start, hstart, hleaves, hrun⟩ := expression_complete ih inner text mid stop e after
        value hw hinner hstop (follows_of_close hnext) (by omega) (by omega) heval
      obtain rfl : start = stop := hleaves
      refine ⟨left, by omega, hleft.dropWhile_eq.trans hclear, ?_⟩
      rw [factorOf_group hr hopen, bind_ok hrun, bind_ok (close_next (by omega) hnext)]
      rfl
    | value name =>
      obtain ⟨left, hname, hleft⟩ := reads_cons.mp hread
      simp only [Tree.eval, Option.bind_eq_bind, Option.bind_eq_some_iff] at heval
      obtain ⟨x, hx, hvalue⟩ := heval
      obtain ⟨rfl, rfl⟩ : x = value ∧ e = after := by simpa using hvalue
      refine ⟨left, hname.length_lt, hleft.dropWhile_eq.trans hclear, ?_⟩
      rw [factorOf_name hr hname]
      exact resolve_held (resolved_eq_meaning .. ▸ hx)
    | literal number nearest h =>
      obtain ⟨left, hnumber, hleft⟩ := reads_cons.mp hread
      obtain ⟨rfl, rfl⟩ : signed false nearest = value ∧ e = after := by
        simpa [Tree.eval] using heval
      rw [← toFloat_eq_of_rounds h]
      exact ⟨left, hnumber.length_lt, hleft.dropWhile_eq.trans hclear, factorOf_number hr hnumber⟩
    | call name arguments =>
      obtain ⟨mid, hname, hmid⟩ := reads_cons.mp hread
      obtain ⟨start, hopen, hlist⟩ := reads_cons.mp hmid
      have hlt := hname.length_lt
      have hlt' := hopen.length_lt
      simp only [Tree.eval, Option.bind_eq_bind, Option.bind_eq_some_iff, Prod.exists] at heval
      obtain ⟨values, between, hvalues, hcall⟩ := heval
      obtain ⟨left, hleft, hblank, hrun⟩ := argumentList_complete (expression_complete ih) bound
        arguments start e values hw hlist hclear (by omega : start.length ≤ text.length) (by omega)
        (by omega) hvalues
      refine ⟨left, by omega, hblank, ?_⟩
      rw [factorOf_name hr hname]
      refine resolve_called ?_ hcall
      cases bound with
      | zero => omega
      | succ rounds => rw [argumentsOf_list (by omega) hopen, hrun]
    | bare name argument =>
      obtain ⟨mid, hname, hargument⟩ := reads_cons.mp hread
      have hlt := hname.length_lt
      simp only [Tree.eval, Option.bind_eq_bind, Option.bind_eq_some_iff, Prod.exists] at heval
      obtain ⟨x, between, hx, hcall⟩ := heval
      obtain ⟨left, hleft, hleaves, hrun⟩ := ih argument text mid more e between x hw.1 hargument
        hclear trivial (by omega) (by omega) hx
      refine ⟨left, by omega, hleaves, ?_⟩
      rw [factorOf_name hr hname]
      refine resolve_called ?_ hcall
      rw [argumentsOf_bare (by omega) (head?_ne_open hw.2 hargument), bind_ok hrun]
      rfl

theorem evaluateText_of_reads {t : Tree .expression} {value : Float} (hw : t.WellFormed)
    (hread : Reads t.tokens text []) (heval : t.eval evaluate e = some (value, after)) :
    evaluateText evaluate text e = (.ok value, after) := by
  have hclear : Clear [] := rfl
  have hfollow : Follows .expression [] := by constructor <;> simp [Ends]
  have hbound : text.length < boundFor text := Nat.lt_succ_self _
  obtain ⟨left, -, hleaves, hrun⟩ := expression_complete (factor_complete (boundFor text)) t text text
    [] e after value hw hread hclear hfollow le_rfl hbound heval
  obtain rfl : left = [] := hleaves
  rw [evaluateText_eq, whole_end hrun]
  rfl

/-- Completeness: a tree that has a value is evaluated to it, however it is written out. Blanks may
stand anywhere between its tokens, and must stand only between two words. -/
theorem evaluateText_of_spaced {t : Tree .expression} {value : Float} (hw : t.WellFormed)
    (hspaced : Spaced t.tokens text) (heval : t.eval evaluate e = some (value, after)) :
    evaluateText evaluate text e = (.ok value, after) :=
  evaluateText_of_reads hw hspaced.reads heval

/-- Arguments with no comma between them, one comma too many, and a call with no parentheses. -/
theorem evaluateText_sums :
    evaluateText (fun _ e => (.ok 0.0, e)) ['f', '(', '1', ' ', '2', ',', ')', '-', 'f', ' ', '3']
        ⟨Bindings.empty.setFunction "f" ⟨Callback.sum, none⟩, []⟩ =
      (.ok ((0.0 + Numeral.toFloat ⟨['1'], none, none⟩ + Numeral.toFloat ⟨['2'], none, none⟩) -
          (0.0 + Numeral.toFloat ⟨['3'], none, none⟩)),
        ⟨Bindings.empty.setFunction "f" ⟨Callback.sum, none⟩,
          [⟨"f", ⟨Callback.sum, none⟩,
            [Numeral.toFloat ⟨['1'], none, none⟩, Numeral.toFloat ⟨['2'], none, none⟩]⟩,
          ⟨"f", ⟨Callback.sum, none⟩, [Numeral.toFloat ⟨['3'], none, none⟩]⟩]⟩) := by
  let f : Name := ⟨['f'], by decide, by simp⟩
  let digit (c : Char) (hc : c.isDigit = true) : Tree .factor := .ofLiteral (.ofDigit c hc)
  let single (first : Tree .factor) : Tree .expression := .expression (.term first .nil) .nil
  let list : Arguments := .cons (single (digit '1' rfl)) false (.cons (single (digit '2' rfl)) true .nil)
  let t : Tree .expression := .expression (.term (.call f list) .nil)
    (.cons .minus (.term (.bare f (digit '3' rfl)) .nil) .nil)
  have hw : t.WellFormed := by
    simp [t, list, single, digit, Tree.ofLiteral, Tree.WellFormed, Tail.WellFormed, Arguments.WellFormed,
      Tree.isGroup, startsWithSign, Arguments.tokens, Tree.tokens, Tail.tokens]
  have hs : Spaced t.tokens ['f', '(', '1', ' ', '2', ',', ')', '-', 'f', ' ', '3'] := by
    refine .token ?_ (.mark (.token ?_ (.blank rfl (.token ?_ (.mark (.mark (.mark (.token ?_
      (.blank rfl (.token ?_ .nil))))))))))
    · rintro - _ ⟨⟩ ⟨⟩
    · exact fun _ _ _ _ => ⟨' ', rfl, rfl⟩
    · rintro - _ ⟨⟩ ⟨⟩
    · exact fun _ _ _ _ => ⟨' ', rfl, rfl⟩
    · rintro - _ ⟨⟩
  exact evaluateText_of_spaced hw hs rfl

end Reckon.Expression
