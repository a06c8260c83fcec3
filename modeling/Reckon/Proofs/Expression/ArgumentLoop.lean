import Reckon.Proofs.Expression.Lockstep
import Reckon.Proofs.Expression.Termination

/-!
# The loop over arguments looks ahead exactly

A list of arguments goes on as long as an operand can start. Where none can, a factor fails right
there, and where one can, a factor fails further on if at all. Behind an expression the cursor is
past the blanks and in front of no operator, so a comma stands under it or not at all. What can
neither start an argument, nor separate it, nor close the list is reported where it stands.
-/
namespace Reckon
open Grammar Number
open Text (isBlank)

/-- Where calls can lead from an environment: every function that was bound on the way may be called
later on. -/
inductive Environment.Reached (evaluate : Evaluator) (e : Environment) : Environment → Prop
  | start : Reached evaluate e e
  | call {looked between : Environment} {name : String} {function : CustomFunction}
      {arguments : List Float} (hlooked : Reached evaluate e looked)
      (hbetween : Reached evaluate e between)
      (hfunction : looked.bindings.functions.get? name = some function)
      (hadmits : admits (function.arity.map Int.ofNat) arguments.length = true) :
      Reached evaluate e (function.call evaluate name arguments between).2

/-- No callback ends in a fault, whatever calls are made before it. -/
def Environment.Faultless (evaluate : Evaluator) (e : Environment) : Prop :=
  ∀ (looked between : Environment) (name : String) (function : CustomFunction)
    (arguments : List Float), Reached evaluate e looked → Reached evaluate e between →
    looked.bindings.functions.get? name = some function →
    admits (function.arity.map Int.ofNat) arguments.length = true →
    ∀ fault, ((function.callback arguments).perform evaluate
      (between.record ⟨name, function, arguments⟩)).1 ≠ .error (.fault fault)

variable {evaluate : Evaluator} {e looked between : Environment}

/-- Functions that answer with numbers raise no faults. -/
theorem Bindings.Total.faultless {b : Bindings} (h : b.Total evaluate) (he : e.bindings = b) :
    e.Faultless evaluate := by
  have hbindings : ∀ e', e.Reached evaluate e' → e'.bindings = b := by
    intro e' hreached
    induction hreached with
    | start => exact he
    | @call looked between name function arguments _ _ hfunction hadmits ihlooked ihbetween =>
      obtain ⟨answer, more, -, hperform⟩ := h name function (ihlooked ▸ hfunction) arguments hadmits
        (between.calls ++ [⟨name, function, arguments⟩])
      simp only [CustomFunction.call, Environment.record, ihbetween, hperform]
  intro looked between name function arguments hlooked hbetween hfunction hadmits fault
  obtain ⟨_, more, ⟨value, rfl⟩, hperform⟩ := h name function (hbindings looked hlooked ▸ hfunction)
    arguments hadmits (between.calls ++ [⟨name, function, arguments⟩])
  simp [Environment.record, hbindings between hbetween, hperform]

/-- What a call fails with has no position, and calls lead on from where it ends. -/
theorem Callee.call_faultless (h : e.Faultless evaluate) (hlooked : e.Reached evaluate looked)
    (hbetween : e.Reached evaluate between) {name : String} {callee : Callee}
    (hcallee : (looked.bindings.meaning name).callee? = some callee) (values : List Float) :
    (∀ move, (callee.call evaluate name values between).1.mapError (Failure.mapPosition move) =
        (callee.call evaluate name values between).1) ∧
      e.Reached evaluate (callee.call evaluate name values between).2 := by
  have hadmits := callee.takes_eq_admits values
  cases htakes : callee.takes values with
  | false =>
    rw [Callee.call_refused htakes]
    exact ⟨fun _ => rfl, hbetween⟩
  | true =>
    rw [Callee.call_of_takes htakes]
    rw [htakes] at hadmits
    replace hadmits := hadmits.symm
    cases callee with
    | builtin function =>
      refine ⟨fun move => ?_, hbetween⟩
      cases hvalue : function.apply values <;>
        simp [Callee.run, hvalue, Except.mapError, Failure.mapPosition]
    | custom function =>
      have hfunction := Bindings.get?_of_meaning (Meaning.eq_custom_of_callee? hcallee)
      have hfault := h looked between name function values hlooked hbetween hfunction hadmits
      refine ⟨fun move => ?_, .call hlooked hbetween hfunction hadmits⟩
      simp only [Callee.run]
      rcases hanswer : ((function.callback values).perform evaluate
        (between.record ⟨name, function, values⟩)).1 with (fault | breakdown) | value
      · exact absurd hanswer (hfault fault)
      · simp [Except.mapError, Failure.inCall, Failure.mapPosition, Fault.mapPosition]
      · rfl

namespace Cursor

/-- What stands under the cursor is no blank and no operator, if anything stands there. -/
def AtStop (c : Cursor) : Prop :=
  c.atEnd = true ∨ ∃ ch, c.current = some ch ∧ isBlank ch = false ∧
    ch ∉ ['+', '-', '*', '/', '%', '^']

variable {c : Cursor}

@[simp] theorem current_skipBlanks (c : Cursor) :
    c.skipBlanks.current = (c.rest.dropWhile isBlank).head? := by
  rw [current, rest_skipBlanks]

theorem AtStop.clear (h : c.AtStop) : Clear c.rest := by
  obtain hend | ⟨ch, hcurrent, hblank, -⟩ := h
  · rw [List.isEmpty_iff.mp hend]
    rfl
  · refine dropWhile_of_stop fun d hd => ?_
    obtain rfl : ch = d := Option.some.inj (hcurrent.symm.trans hd)
    exact hblank

theorem ch_eq_comma_iff : c.ch = ',' ↔ c.current = some ',' := by
  cases hrest : c.rest with
  | nil => simp [ch, current, hrest]
  | cons d tail => simp [ch, current, hrest]

/-- A comma directly under the cursor stands behind all blanks. -/
theorem current_skipBlanks_comma (h : c.ch = ',') : c.skipBlanks.current = some ',' := by
  obtain ⟨tail, hrest⟩ := List.head?_eq_some_iff.mp (ch_eq_comma_iff.mp h)
  rw [current_skipBlanks, hrest]
  rfl

/-- Where no blank stands under the cursor, no comma is hidden behind blanks. -/
theorem AtStop.ch_eq_comma_iff (h : c.AtStop) :
    c.ch = ',' ↔ c.skipBlanks.current = some ',' := by
  rw [current_skipBlanks, h.clear, Cursor.ch_eq_comma_iff, current]

end Cursor

namespace Expression

variable {text rest more : List Char} {s s' : State} {bound : Nat}

theorem State.exists_facing (h : s.cursor.InText) :
    ∃ (text rest : List Char) (e : Environment), rest <:+ text ∧ s = .facing text rest e :=
  ⟨_, _, _, h.suffix, State.eq_facing h.eq_facing⟩

/-- A run from a place on, in step with itself: positions before that place would be moved to it. -/
def Lockstep.further (h : e.Faultless evaluate) (text : List Char) (start : Nat) : Lockstep where
  evaluate := evaluate
  other := evaluate
  text := text
  otherText := text
  move := max start
  Aligned rest rest' := rest' = rest ∧ rest <:+ text ∧ start ≤ text.length - rest.length
  Related first second := second = first ∧ e.Reached evaluate first
  Settled _ _ := False
  length_le := by
    rintro _ rest ⟨rfl, hsuffix, -⟩
    exact ⟨hsuffix.length_le, hsuffix.length_le⟩
  blanks := by
    rintro _ rest ⟨rfl, hsuffix, hstart⟩
    have hle := rest.length_dropWhile_le isBlank
    exact ⟨rfl, (List.dropWhile_suffix _).trans hsuffix, by omega⟩
  head? := by
    rintro _ rest ⟨rfl, -⟩
    rfl
  position := by
    rintro _ rest ⟨rfl, -, hstart⟩ - -
    exact (max_eq_right hstart).symm
  next := by
    rintro _ rest more t ⟨rfl, hsuffix, hstart⟩ hnext
    have hlt := hnext.length_lt
    exact .inl ⟨more, hnext, rfl, hnext.suffix.trans hsuffix, by omega⟩
  names := by
    rintro _ rest more n _ looked - - ⟨rfl, hlooked⟩
    refine .same fun callee hcallee values _ between => ?_
    rintro ⟨rfl, hbetween⟩
    obtain ⟨hresult, hreached⟩ := Callee.call_faultless h hlooked hbetween hcallee values
    exact ⟨(hresult _).symm, rfl, hreached⟩
  settled_group := False.elim
  settled_list := False.elim

/-- The place of a fault that both runs end in is not moved. -/
theorem Pairing.Agree.move_eq {x : Pairing} {α : Type} {first second : EStateM.Result Halt State α}
    {found : Option Char} {place : Nat} (h : x.Agree first second) (hsame : second = first)
    (hfirst : first = .error (.failed (.fault (.unexpected found place))) s) :
    x.move place = place := by
  cases h with
  | ok a _ _ => cases hfirst
  | error failure _ =>
    cases hfirst
    simp only [EStateM.Result.error.injEq, Halt.failed.injEq, Failure.mapPosition,
      Fault.mapPosition, Failure.fault.injEq, Fault.unexpected.injEq, true_and] at hsame
    exact hsame.1

/-- A run from a place on finds no character before it unexpected. -/
theorem unexpected_le {h : e.Faultless evaluate} {start place : Nat} {found : Option Char}
    {α : Type} {result : EStateM.Result Halt State α}
    (hagree : (Lockstep.further h text start).Agree result result)
    (hresult : result = .error (.failed (.fault (.unexpected found place))) s) :
    start ≤ place := by
  have hmove : max start place = place := hagree.move_eq rfl hresult
  omega

/-- A call goes on in step with itself where its arguments do. -/
theorem call_further {h : e.Faultless evaluate} {start : Nat} {arguments : Parse (List Float)}
    {name : String} {callee : Callee}
    (hm : (Lockstep.further h text start).Mirrors bound bound arguments arguments)
    (haligned : (Lockstep.further h text start).Aligned rest rest) (hbound : rest.length < bound)
    (hlooked : e.Reached evaluate looked)
    (hcallee : (looked.bindings.meaning name).callee? = some callee) :
    (Lockstep.further h text start).Agree
      ((arguments >>= applied evaluate name (looked.bindings.meaning name))
        (.facing text rest looked))
      ((arguments >>= applied evaluate name (looked.bindings.meaning name))
        (.facing text rest looked)) := by
  refine (hm rest rest looked looked haligned hbound hbound ⟨rfl, hlooked⟩).bind ?_
  rintro values left left' between _ - - hleft ⟨rfl, hbetween⟩
  obtain ⟨hresult, hlater⟩ := Callee.call_faultless h hlooked hbetween hcallee values
  rw [applied_eq_call hcallee, applied_eq_call hcallee]
  exact Lockstep.lift_agree ⟨(hresult _).symm, rfl, hlater⟩ hleft

/-- Where an operand can start, a factor finds no character unexpected but one further on. -/
theorem factor_unexpected_lt (h : e.Faultless evaluate) (hsuffix : rest <:+ text)
    (hbound : rest.length < bound) (hreached : e.Reached evaluate between)
    (hstarts : (rest.dropWhile isBlank).head?.any Cursor.isOperandStart = true)
    {found : Option Char} {place : Nat}
    (hrun : factor evaluate bound (.facing text rest between) =
      .error (.failed (.fault (.unexpected found place))) s) :
    text.length - (rest.dropWhile isBlank).length < place := by
  obtain ⟨bound, rfl⟩ : ∃ n, bound = n + 1 := Nat.exists_eq_succ_of_ne_zero (by omega)
  have hr := hsuffix.length_le
  have hdrop := rest.length_dropWhile_le isBlank
  have hs : Sound evaluate .factor (factor evaluate bound) := factor_sound bound
  -- behind the first token the run is in step with itself, so no fault lies before that place
  have hmirrors : ∀ start, (Lockstep.further h text start).Mirrors bound bound
      (factor evaluate bound) (factor evaluate bound) :=
    fun start => (Lockstep.further h text start).factor_mirrors bound bound
  have hbehind : ∀ {t : Token} {more : List Char}, Next rest t more →
      (Lockstep.further h text (text.length - more.length)).Aligned more more :=
    fun hnext => ⟨rfl, hnext.suffix.trans hsuffix, le_rfl⟩
  rw [factor_succ] at hrun
  cases Cursor.lead_of_isOperandStart hstarts with
  | sign negative more hsign =>
    have hlt := hsign.length_lt
    have hless := (next_dropWhile.mpr hsign).length_lt
    rw [factorOf_sign hr hsign] at hrun
    have hinner := hmirrors _ more more between between (hbehind hsign) (by omega) (by omega)
      ⟨rfl, hreached⟩
    have hle : text.length - more.length ≤ place := by
      cases negative with
      | false => exact unexpected_le hinner hrun
      | true => exact unexpected_le (hinner.map (- ·)) hrun
    omega
  | group more hopen =>
    have hlt := hopen.length_lt
    have hless := (next_dropWhile.mpr hopen).length_lt
    rw [factorOf_group hr hopen] at hrun
    have hinner := (Lockstep.expression_mirrors (hmirrors _) hs hs more more between between
      (hbehind hopen) (by omega) (by omega) ⟨rfl, hreached⟩).bind
        fun value left left' after after' _ _ hleft hafter =>
          (Lockstep.close_agree hleft hafter).map fun _ => value
    have hle := unexpected_le hinner hrun
    omega
  | number n more hnumber =>
    rw [factorOf_number hr hnumber] at hrun
    cases hrun
  | name n more hname =>
    have hlt := hname.length_lt
    have hless := (next_dropWhile.mpr hname).length_lt
    have hmeaning : (State.facing text more between).environment.bindings.meaning n.string =
      between.bindings.meaning n.string := rfl
    rw [factorOf_name hr hname] at hrun
    obtain ⟨-, value, hheld⟩ | ⟨callee, hcallee, hfunction⟩ | hunknown :=
      meaning_callee_cases (between.bindings.meaning n.string)
    · rw [resolve_held (hmeaning.symm ▸ hheld)] at hrun
      cases hrun
    · rw [resolve_function (hmeaning.symm ▸ hfunction), hmeaning] at hrun
      have hcall := call_further (Lockstep.argumentsOf_mirrors (hmirrors _)) (hbehind hname)
        (by omega) hreached hcallee
      have hle := unexpected_le hcall hrun
      omega
    · rw [resolve_unknown (hmeaning.trans hunknown)] at hrun
      cases hrun

/-- No operand can start where a factor finds the first character behind the blanks unexpected,
and only there. -/
theorem startsOperand_eq_false_iff (h : e.Faultless evaluate) (hsuffix : rest <:+ text)
    (hbound : rest.length < bound) :
    (Cursor.facing text rest).startsOperand.1 = false ↔
      ∃ found s', factor evaluate bound (.facing text rest e) =
        .error (.failed (.fault (.unexpected found (Cursor.facing text rest).skipBlanks.pos))) s' := by
  obtain ⟨rounds, rfl⟩ : ∃ n, bound = n + 1 := Nat.exists_eq_succ_of_ne_zero (by omega)
  have hr := hsuffix.length_le
  rw [Cursor.startsOperand_facing hr, Cursor.skipBlanks_facing hr]
  constructor
  · intro hfalse
    exact ⟨_, _, factorOf_fail hr hfalse⟩
  · rintro ⟨found, s', hrun⟩
    by_contra htrue
    have hstarts : (rest.dropWhile isBlank).head?.any Cursor.isOperandStart = true := by
      simpa using htrue
    exact lt_irrefl _ (factor_unexpected_lt h hsuffix hbound .start hstarts hrun)

/-- An expression ends behind the blanks, and in front of no operator. -/
theorem expression_atStop {value : Float} (hs : s.cursor.InText)
    (h : expression evaluate bound s = .ok value s') : s'.cursor.AtStop := by
  rw [State.eq_facing hs.eq_facing] at h
  obtain ⟨-, more, after, rfl, -, -, ⟨hclear, hmultiplicative, hadditive⟩, -⟩ :=
    expression_sound (factor_sound bound) _ _ _ _ _ hs.suffix.length_le h
  cases more with
  | nil => exact .inl rfl
  | cons ch tail =>
    have hhead : ch ∈ ((ch :: tail).dropWhile isBlank).head? := by
      rw [hclear]
      rfl
    refine .inr ⟨ch, rfl, head?_dropWhile_eq_false ch hhead, fun hoperator => ?_⟩
    have hmul := hmultiplicative ch hhead
    have hadd := hadditive ch hhead
    simp only [List.mem_cons, List.not_mem_nil, or_false] at hoperator
    rcases hoperator with rfl | rfl | rfl | rfl | rfl | rfl <;>
      simp [multiplicative?, additive?] at hmul hadd

/-- The points of a list in parentheses between its arguments. The flag tells that an argument has
just been completed; else the list is at its start or behind a separator. -/
inductive ListPoint (evaluate : Evaluator) (bound : Nat) (s₀ : State) : Bool → State → Prop
  | start {s : State} (h : (onCursor (Cursor.consumeIf ['(']) : Parse Bool) s₀ = .ok true s) :
      ListPoint evaluate bound s₀ false s
  | argument {completed : Bool} {s between s' : State} {value : Float}
      (h : ListPoint evaluate bound s₀ completed s)
      (hstarts : (onCursor Cursor.startsOperand : Parse Bool) s = .ok true between)
      (hvalue : expression evaluate bound between = .ok value s') :
      ListPoint evaluate bound s₀ true s'
  | separator {s : State} (h : ListPoint evaluate bound s₀ true s) (hcomma : s.cursor.ch = ',') :
      ListPoint evaluate bound s₀ false ⟨s.cursor.forward 1, s.environment⟩

/-- What the loop still has to do at a point. -/
def listFrom (run : Parse Float) (rounds : Nat) : Bool → Parse (List Float)
  | false => argumentList run rounds
  | true => do skipComma; argumentList run rounds

section Loop
variable {run : Parse Float} {rounds : Nat} {completed : Bool} {s₀ : State}

/-- Where no separator follows, the loop goes on with the next argument or ends. -/
theorem listFrom_eq (h : completed = true → s.cursor.skipBlanks.current ≠ some ',') :
    listFrom run rounds completed s = argumentList run rounds s := by
  cases completed with
  | false => rfl
  | true =>
    have hcomma : s.cursor.ch ≠ ',' := fun hcomma => h rfl (Cursor.current_skipBlanks_comma hcomma)
    have hskip : (skipComma : Parse Unit) s = .ok () s := by
      rw [skipComma_eq, if_neg hcomma]
    exact bind_ok hskip

/-- At a point of the list the loop has rounds left, and a failure of the rest of the loop is the
failure of the whole list. -/
structure Resumes (evaluate : Evaluator) (bound : Nat) (s₀ : State) (completed : Bool) (s : State) :
    Prop where
  inText : s.cursor.InText
  length_lt : s.cursor.rest.length < bound
  atStop : completed = true → s.cursor.AtStop
  listFrom_error : ∃ rounds, s.cursor.rest.length < rounds ∧ ∀ halt s',
    listFrom (expression evaluate bound) rounds completed s = .error halt s' →
      arguments evaluate bound s₀ = .error halt s'

theorem Resumes.start (hs : s₀.cursor.InText) (hbound : s₀.cursor.rest.length < bound)
    (h : (onCursor (Cursor.consumeIf ['(']) : Parse Bool) s₀ = .ok true s) :
    Resumes evaluate bound s₀ false s := by
  obtain ⟨text, rest, e, hsuffix, rfl⟩ := State.exists_facing hs
  replace hbound : rest.length < bound := hbound
  obtain ⟨more, hopen⟩ | hmiss := Cursor.next_or_ne (c := '(') rfl rest
  · have hlt := hopen.length_lt
    rw [onCursor_facing (Cursor.consumeIf_next hsuffix.length_le hopen)] at h
    cases h
    obtain ⟨rounds, rfl⟩ : ∃ n, bound = n + 1 := Nat.exists_eq_succ_of_ne_zero (by omega)
    have hlist : arguments evaluate (rounds + 1) (.facing text rest e) =
        argumentList (expression evaluate (rounds + 1)) (rounds + 1) (.facing text more e) :=
      argumentsOf_list hsuffix.length_le hopen
    exact ⟨Cursor.inText_facing (hopen.suffix.trans hsuffix), hlt.trans hbound, by simp, rounds + 1,
      hlt.trans hbound, fun halt s' hrest => hlist.trans hrest⟩
  · rw [onCursor_facing (Cursor.consumeIf_miss hsuffix.length_le hmiss)] at h
    cases h

theorem Resumes.argument {value : Float} (h : Resumes evaluate bound s₀ completed s)
    {first : State} (hstarts : (onCursor Cursor.startsOperand : Parse Bool) s = .ok true first)
    (hvalue : expression evaluate bound first = .ok value s') :
    Resumes evaluate bound s₀ true s' := by
  obtain ⟨hs, hbound, -, rounds, hlt, herror⟩ := h
  have hsteady := expressionOf_steady (factor_steady evaluate bound) bound
  have hfirst := (steady_onCursor Cursor.advances_startsOperand).ahead hs hstarts
  have hs' := (hsteady.ahead hfirst.inText hvalue).inText
  have hle := hfirst.length_le hs
  have hless := (expressionOf_consuming (factor_steady evaluate bound)
    (factor_consuming evaluate bound) bound first value s' hfirst.inText hvalue).length_lt
  obtain ⟨rounds, rfl⟩ : ∃ n, rounds = n + 1 := Nat.exists_eq_succ_of_ne_zero (by omega)
  refine ⟨hs', by omega, fun _ => expression_atStop hfirst.inText hvalue, rounds,
    by omega, fun halt last hrest => herror halt last ?_⟩
  have hcomma : s.cursor.skipBlanks.current ≠ some ',' := by
    intro hcomma
    have htrue : s.cursor.skipBlanks.current.any Cursor.isOperandStart = true :=
      (EStateM.Result.ok.inj hstarts).1
    rw [hcomma] at htrue
    exact absurd htrue (by decide)
  rw [listFrom_eq fun _ => hcomma, argumentList, bind_ok hstarts, if_pos rfl, bind_ok hvalue,
    ← bind_assoc]
  exact bind_error hrest

theorem Resumes.separator (h : Resumes evaluate bound s₀ true s) (hcomma : s.cursor.ch = ',') :
    Resumes evaluate bound s₀ false ⟨s.cursor.forward 1, s.environment⟩ := by
  obtain ⟨hs, hbound, -, rounds, hlt, herror⟩ := h
  have hahead := Cursor.ahead_comma hs
  rw [if_pos hcomma] at hahead
  have hle : (s.cursor.forward 1).rest.length ≤ s.cursor.rest.length := hahead.length_le hs
  have hskip : (skipComma : Parse Unit) s = .ok () ⟨s.cursor.forward 1, s.environment⟩ := by
    rw [skipComma_eq, if_pos hcomma]
  exact ⟨hahead.inText, hle.trans_lt hbound, by simp, rounds, hle.trans_lt hlt,
    fun halt s' hrest => herror halt s' ((bind_ok hskip).trans hrest)⟩

/-- The loop comes by every point of the list. -/
theorem ListPoint.resumes (hs : s₀.cursor.InText) (hbound : s₀.cursor.rest.length < bound)
    (h : ListPoint evaluate bound s₀ completed s) : Resumes evaluate bound s₀ completed s := by
  induction h with
  | start hopen => exact .start hs hbound hopen
  | argument _ hstarts hvalue ih => exact ih.argument hstarts hvalue
  | separator _ hcomma ih => exact ih.separator hcomma

/-- The loop ends where neither an argument nor a separator follows, and what does not close the
list there is the fault of the list. -/
theorem Resumes.unbalanced (h : Resumes evaluate bound s₀ completed s)
    (hstarts : s.cursor.startsOperand.1 = false) (hclose : s.cursor.skipBlanks.current ≠ some ')')
    (hcomma : completed = true → s.cursor.skipBlanks.current ≠ some ',') :
    arguments evaluate bound s₀ =
      .error (.failed (.fault (.unbalanced s.cursor.skipBlanks.current s.cursor.skipBlanks.pos)))
        ⟨s.cursor.skipBlanks, s.environment⟩ := by
  obtain ⟨hs, -, -, rounds, hlt, herror⟩ := h
  obtain ⟨rounds, rfl⟩ : ∃ n, rounds = n + 1 := Nat.exists_eq_succ_of_ne_zero (by omega)
  refine herror _ _ ((listFrom_eq hcomma).trans ?_)
  obtain ⟨text, rest, e, hsuffix, rfl⟩ := State.exists_facing hs
  have hr := hsuffix.length_le
  have hskip : (State.facing text rest e).cursor.skipBlanks =
    .facing text (rest.dropWhile isBlank) := Cursor.skipBlanks_facing hr
  rw [Cursor.current_skipBlanks] at hclose
  have hmiss : ∀ c ∈ (rest.dropWhile isBlank).head?, c ≠ ')' := by
    rintro c hc rfl
    exact hclose hc
  have hend : (rest.dropWhile isBlank).head?.any Cursor.isOperandStart = false :=
    (congrArg Prod.fst (Cursor.startsOperand_facing hr)).symm.trans hstarts
  have hfail := close_fail (e := e) ((rest.length_dropWhile_le isBlank).trans hr)
    (by rwa [dropWhile_dropWhile])
  rw [dropWhile_dropWhile] at hfail
  rw [argumentList_end hr hend, bind_error hfail, hskip]
  rfl

end Loop

/-- From every place in a text, no operand can start exactly where a factor finds the character
behind the blanks unexpected, as long as no callback raises a fault. An expression that succeeds
ends at the end of the text, or on a character that is neither a blank nor an operator. So behind an
argument a comma stands under the cursor whenever one follows the blanks, and at every point of a
list between its arguments, what can neither start an argument, nor separate it from the one before,
nor close the list is reported as unbalanced where it stands. -/
theorem lookahead_exact (evaluate : Evaluator) (text : List Char) (start : Nat)
    (h : start ≤ text.length) (e : Environment) (bound : Nat) (hbound : text.length < bound) :
    let s : State := ⟨(Cursor.ofText text).moveTo start, e⟩
    (e.Faultless evaluate →
      (s.cursor.startsOperand.1 = false ↔ ∃ found s', factor evaluate bound s =
        .error (.failed (.fault (.unexpected found s.cursor.skipBlanks.pos))) s')) ∧
    (∀ value s', expression evaluate bound s = .ok value s' → s'.cursor.AtStop) ∧
    ∀ completed point, ListPoint evaluate bound s completed point →
      (completed = true →
        (point.cursor.ch = ',' ↔ point.cursor.skipBlanks.current = some ',')) ∧
      ∀ found, found = point.cursor.skipBlanks.current →
        point.cursor.startsOperand.1 = false → found ≠ some ')' →
        (completed = true → found ≠ some ',') →
        arguments evaluate bound s =
          .error (.failed (.fault (.unbalanced found point.cursor.skipBlanks.pos)))
            ⟨point.cursor.skipBlanks, point.environment⟩ := by
  intro s
  have hs : s.cursor.InText := ⟨Cursor.sound_moveTo _ _, h⟩
  have hless : s.cursor.rest.length < bound := hs.suffix.length_le.trans_lt hbound
  refine ⟨fun hfaultless => ?_, fun value s' => expression_atStop hs,
    fun completed point hpoint => ?_⟩
  · have hiff := startsOperand_eq_false_iff hfaultless hs.suffix hless
    have hstate : State.facing s.cursor.text s.cursor.rest e = s :=
      (State.eq_facing hs.eq_facing).symm
    rwa [← hs.eq_facing, hstate] at hiff
  · have hresumes := hpoint.resumes hs hless
    refine ⟨fun hcompleted => (hresumes.atStop hcompleted).ch_eq_comma_iff, ?_⟩
    rintro found rfl hstarts hclose hcomma
    exact hresumes.unbalanced hstarts hclose hcomma

/-- Arguments of a sum: behind the first one stands what neither goes on with the list nor closes
it, and no factor can start there. -/
theorem lookahead_exact_sum :
    (∃ found s', factor (evaluateWithin .exact 0) 6
      ⟨(Cursor.ofText ['(', '1', ' ', '$', ')']).moveTo 2,
        ⟨Bindings.empty.setFunction "f" ⟨Callback.sum, none⟩, []⟩⟩ =
        .error (.failed (.fault (.unexpected found 3))) s') ∧
    (∀ value s', expression (evaluateWithin .exact 0) 6
      ⟨(Cursor.ofText ['(', '1', ' ', '$', ')']).moveTo 1,
        ⟨Bindings.empty.setFunction "f" ⟨Callback.sum, none⟩, []⟩⟩ = .ok value s' →
        s'.cursor.AtStop) ∧
    ∃ s', arguments (evaluateWithin .exact 0) 6
      ⟨(Cursor.ofText ['(', '1', ' ', '$', ')']).moveTo 0,
        ⟨Bindings.empty.setFunction "f" ⟨Callback.sum, none⟩, []⟩⟩ =
        .error (.failed (.fault (.unbalanced (some '$') 3))) s' := by
  have htotal : (Bindings.empty.setFunction "f" ⟨Callback.sum, none⟩).Total
      (evaluateWithin .exact 0) := by
    intro name function hf values _ calls
    obtain rfl := Bindings.eq_of_get?_setFunction hf
    exact ⟨_, calls, ⟨_, rfl⟩, rfl⟩
  obtain ⟨hfactor, -⟩ := lookahead_exact (evaluateWithin .exact 0) ['(', '1', ' ', '$', ')'] 2
    (by decide) ⟨Bindings.empty.setFunction "f" ⟨Callback.sum, none⟩, []⟩ 6 (by decide)
  obtain ⟨-, hexpression, -⟩ := lookahead_exact (evaluateWithin .exact 0) ['(', '1', ' ', '$', ')'] 1
    (by decide) ⟨Bindings.empty.setFunction "f" ⟨Callback.sum, none⟩, []⟩ 6 (by decide)
  obtain ⟨-, -, hpoints⟩ := lookahead_exact (evaluateWithin .exact 0) ['(', '1', ' ', '$', ')'] 0
    (by decide) ⟨Bindings.empty.setFunction "f" ⟨Callback.sum, none⟩, []⟩ 6 (by decide)
  refine ⟨(hfactor (htotal.faultless rfl)).mp rfl, hexpression, ?_⟩
  obtain ⟨-, hunbalanced⟩ := hpoints true _ (.argument (.start rfl) rfl rfl)
  exact ⟨_, hunbalanced (some '$') rfl rfl (by decide) (by decide)⟩

end Expression

end Reckon
