import Reckon.Proofs.Expression.Lockstep
import Reckon.Proofs.Grammar.Response

/-!
# Putting an expression in place of a variable

Two texts that have the same value by themselves can be exchanged for each other between
parentheses, whatever stands around these. The two evaluations go on in step: as long as both are
in front of the parenthesis or behind it, they find the same tokens, and neither looks into the
exchanged part with anything but its own evaluation. So even a failure is the same, except that
positions behind the exchanged part move with it.
-/
namespace Reckon

/-- Where a position is found after a part of the text, of `old` characters from `start` on, has been
replaced by another one of `new` characters. -/
def moved (start old new position : Nat) : Nat :=
  if position < start + old then position else position - old + new

namespace Expression
open Grammar Number
open Text (isBlank)

/-- A text that by itself has the value, whenever it is evaluated under the bindings. -/
def Fills (evaluate : Evaluator) (b : Bindings) (value : Float) (text : List Char) : Prop :=
  ∃ t : Tree .expression, t.WellFormed ∧ Reads t.tokens text [] ∧
    ∀ e : Environment, e.bindings = b →
      ∃ after : Environment, after.bindings = b ∧ t.eval evaluate e = some (value, after)

/-- A text with a part of it in parentheses. -/
def plug (pre part post : List Char) : List Char := pre ++ '(' :: (part ++ ')' :: post)

theorem length_part_le (pre part post : List Char) :
    (part ++ ')' :: post).length ≤ (plug pre part post).length := by
  simp only [plug, List.length_append, List.length_cons]
  omega

/-- The tokens of a part are read in front of the closing parenthesis, too. -/
theorem Fills.reads {evaluate : Evaluator} {b : Bindings} {value : Float} {part : List Char}
    (h : Fills evaluate b value part) (post : List Char) :
    ∃ t : Tree .expression, t.WellFormed ∧ Reads t.tokens (part ++ ')' :: post) (')' :: post) ∧
      ∀ e : Environment, e.bindings = b →
        ∃ after : Environment, after.bindings = b ∧ t.eval evaluate e = some (value, after) := by
  obtain ⟨t, hw, hread, heval⟩ := h
  have hb : Barrier (')' :: post) := fun c hc => by
    obtain rfl := Option.some.inj hc
    decide
  rw [← List.append_nil part] at hread
  exact ⟨t, hw, hread.cut ⟨[], [], ')' :: post, rfl, rfl, hb⟩, heval⟩

/-- Two texts that differ in a part between parentheses, which has the same value in both. -/
structure Exchange where
  evaluate : Evaluator
  bindings : Bindings
  answer : String → List Float → Except Failure Float
  responds : bindings.Respond evaluate fun name arguments found => found = answer name arguments
  /-- No callback raises a fault of its own, which would have a position in another text. -/
  faultless : ∀ name arguments fault, answer name arguments ≠ .error (.fault fault)
  pre : List Char
  post : List Char
  new : List Char
  old : List Char
  value : Float
  newFills : Fills evaluate bindings value new
  oldFills : Fills evaluate bindings value old

namespace Exchange

variable {x : Exchange} {rest rest' more : List Char} {e : Environment}

def newText (x : Exchange) : List Char := plug x.pre x.new x.post

def oldText (x : Exchange) : List Char := plug x.pre x.old x.post

def move (x : Exchange) : Nat → Nat := moved (x.pre.length + 1) x.old.length x.new.length

/-- Rests of the two texts that are both in front of the exchanged part, or both behind it. -/
inductive Aligned (x : Exchange) : List Char → List Char → Prop
  | before (front : List Char) (h : front.length ≤ x.pre.length) :
      x.Aligned (plug front x.old x.post) (plug front x.new x.post)
  | behind (rest : List Char) (h : rest.length ≤ x.post.length) : x.Aligned rest rest

/-- Rests of the two texts that are both behind the parenthesis of the exchanged part. -/
def Opened (x : Exchange) (rest rest' : List Char) : Prop :=
  rest = x.old ++ ')' :: x.post ∧ rest' = x.new ++ ')' :: x.post

theorem plug_dropWhile (front part post : List Char) :
    (plug front part post).dropWhile isBlank = plug (front.dropWhile isBlank) part post := by
  rw [plug, plug, List.dropWhile_append]
  split
  · next h =>
    rw [List.isEmpty_iff.mp h]
    rfl
  · rfl

theorem Aligned.head? (h : x.Aligned rest rest') : rest.head? = rest'.head? := by
  cases h with
  | before front _ => cases front <;> rfl
  | behind rest _ => rfl

theorem Aligned.dropWhile (h : x.Aligned rest rest') :
    x.Aligned (rest.dropWhile isBlank) (rest'.dropWhile isBlank) := by
  cases h with
  | before front h =>
    rw [plug_dropWhile, plug_dropWhile]
    exact .before _ ((front.length_dropWhile_le isBlank).trans h)
  | behind rest h => exact .behind _ ((rest.length_dropWhile_le isBlank).trans h)

theorem Aligned.length_le (h : x.Aligned rest rest') :
    rest.length ≤ x.oldText.length ∧ rest'.length ≤ x.newText.length := by
  cases h with
  | before front h => simp [newText, oldText, plug, h]
  | behind rest h =>
    simp only [newText, oldText, plug, List.length_append, List.length_cons]
    omega

theorem Aligned.position (h : x.Aligned rest rest') :
    x.newText.length - rest'.length = x.move (x.oldText.length - rest.length) := by
  cases h with
  | before front h =>
    have hnew : x.newText.length - (plug front x.new x.post).length = x.pre.length - front.length := by
      simp only [newText, plug, List.length_append, List.length_cons]
      omega
    have hold : x.oldText.length - (plug front x.old x.post).length = x.pre.length - front.length := by
      simp only [oldText, plug, List.length_append, List.length_cons]
      omega
    rw [hnew, hold, move, moved, if_pos (by omega)]
  | behind rest h =>
    simp only [newText, oldText, plug, List.length_append, List.length_cons, move, moved]
    rw [if_neg (by omega)]
    omega

/-- Both rests go on with the same token, and stay aligned unless it opens the exchanged part. -/
theorem Aligned.next {t : Token} (h : x.Aligned rest rest') (hn : Next rest t more) :
    (∃ more', Next rest' t more' ∧ x.Aligned more more') ∨
      t = .openParen ∧ ∃ more', Next rest' .openParen more' ∧ x.Opened more more' := by
  have hlt := hn.length_lt
  cases h with
  | behind rest h => exact .inl ⟨more, hn, .behind more (by omega)⟩
  | before front h =>
    by_cases hf : front.dropWhile isBlank = []
    · have hnew := plug_dropWhile front x.new x.post
      have hold := plug_dropWhile front x.old x.post
      rw [hf] at hnew hold
      have hopen : '(' :: (x.old ++ ')' :: x.post) = t.text ++ more := hold.symm.trans hn.1
      have ht : t = .openParen := by
        cases t with
        | mark c hm =>
          obtain rfl : '(' = c := (List.cons.inj hopen).1
          rfl
        | name n =>
          obtain ⟨c, tail, hc, hstart⟩ := n.exists_cons
          rw [show Token.text (.name n) = n.text from rfl, hc] at hopen
          obtain rfl : '(' = c := (List.cons.inj hopen).1
          exact absurd hstart (by decide)
        | number n =>
          obtain ⟨c, tail, hc, hstart⟩ := n.exists_cons
          rw [show Token.text (.number n) = n.numeral.text from rfl, hc] at hopen
          obtain rfl : '(' = c := (List.cons.inj hopen).1
          exact absurd hstart (by decide)
      subst ht
      exact .inr ⟨rfl, _, ⟨hnew, trivial⟩, (List.cons.inj hopen).2.symm, rfl⟩
    · have hb : ∀ tail, Barrier ('(' :: tail) := fun tail c hc => by
        obtain rfl := Option.some.inj hc
        decide
      obtain ⟨front', rfl, hnext⟩ := Next.within (hb _) hf hn
      simp only [plug, List.length_append, List.length_cons] at hlt
      exact .inl ⟨_, hnext _ (hb _), .before front' (by omega)⟩

section Part
variable {evaluate : Evaluator} {b : Bindings} {value : Float} {part : List Char}
  {inner : Parse Float} {bound : Nat} (text post : List Char) (hp : Fills evaluate b value part)
  (hc : Complete evaluate .factor bound inner)
  (hr : (part ++ ')' :: post).length ≤ text.length)
  (hbound : (part ++ ')' :: post).length < bound) (he : e.bindings = b)
include hp hc hr hbound he

/-- The part as a group. -/
theorem group_of_fills :
    ∃ after : Environment, after.bindings = b ∧
      (do let value ← expressionOf inner bound; close; return value : Parse Float)
        (.facing text (part ++ ')' :: post) e) = .ok value (.facing text post after) := by
  obtain ⟨t, hw, hread, heval⟩ := hp.reads post
  obtain ⟨after, hafter, hv⟩ := heval e he
  have hclose : Next (')' :: post) .closeParen post := ⟨rfl, trivial⟩
  obtain ⟨left, -, hleaves, hrun⟩ := expression_complete hc t text _ _ e after value hw hread rfl
    (follows_of_close hclose) hr hbound hv
  obtain rfl : left = ')' :: post := hleaves
  refine ⟨after, hafter, ?_⟩
  simp only [List.length_append] at hr
  rw [bind_ok hrun, bind_ok (close_next (by omega) hclose)]
  rfl

/-- The part as a list of one argument. -/
theorem argumentList_of_fills :
    ∃ after : Environment, after.bindings = b ∧
      argumentList (expressionOf inner bound) bound (.facing text (part ++ ')' :: post) e) =
        .ok [value] (.facing text post after) := by
  obtain ⟨t, hw, hread, heval⟩ := hp.reads post
  obtain ⟨after, hafter, hv⟩ := heval e he
  have hclose : Next (')' :: post) .closeParen post := ⟨rfl, trivial⟩
  have hlt := Tree.length_lt hread
  have hdrop := (part ++ ')' :: post).length_dropWhile_le isBlank
  obtain ⟨left, -, hleaves, hrun⟩ := expression_complete hc t text
    ((part ++ ')' :: post).dropWhile isBlank) _ e after value hw
    (hread.congr rfl (dropWhile_dropWhile _)) rfl (follows_of_close hclose) (by omega) (by omega) hv
  obtain rfl : left = ')' :: post := hleaves
  have hstart := Tree.any_isOperandStart hread
  obtain ⟨rounds, rfl⟩ : ∃ n, bound = n + 1 + 1 := ⟨bound - 2, by
    simp only [List.length_append, List.length_cons] at hlt hbound
    omega⟩
  have hpost : (')' :: post).length ≤ text.length := hlt.le.trans hr
  refine ⟨after, hafter, ?_⟩
  rw [argumentList_next hr hstart, bind_ok hrun, bind_ok (skipComma_miss (by simp)),
    bind_ok (argumentList_close hpost hclose)]
  rfl

end Part

/-- Evaluations of the old and the new text. Each evaluates its own part, and to the same value. -/
def lockstep (x : Exchange) : Lockstep where
  evaluate := x.evaluate
  other := x.evaluate
  text := x.oldText
  otherText := x.newText
  move := x.move
  Aligned := x.Aligned
  Related e e' := e.bindings = x.bindings ∧ e'.bindings = x.bindings
  Settled := x.Opened
  length_le := Aligned.length_le
  blanks := Aligned.dropWhile
  head? := fun h => h.dropWhile.head?
  position := fun h _ _ => h.position
  next := Aligned.next
  names := by
    rintro rest rest' more n e e' - - ⟨he, he'⟩
    rw [he, he']
    refine .same ?_
    rintro callee hcallee values e₁ e₂ ⟨he₁, he₂⟩
    obtain ⟨result, hplain, hcall⟩ := x.responds.callee x.faultless hcallee values
    obtain ⟨after, hafter, hresult⟩ := hcall e₁ he₁
    obtain ⟨after', hafter', hresult'⟩ := hcall e₂ he₂
    rw [Pairing.Alike, hresult, hresult']
    exact ⟨(hplain _).symm, hafter, hafter'⟩
  settled_group := by
    rintro _ _ bound bound' e e' ⟨rfl, rfl⟩ hb hb' ⟨he, he'⟩
    obtain ⟨after, hafter, hgroup⟩ := group_of_fills x.oldText x.post x.oldFills
      (factor_complete bound) (length_part_le ..) hb he
    obtain ⟨after', hafter', hgroup'⟩ := group_of_fills x.newText x.post x.newFills
      (factor_complete bound') (length_part_le ..) hb' he'
    rw [hgroup, hgroup']
    exact .ok x.value (.behind x.post le_rfl) ⟨hafter, hafter'⟩
  settled_list := by
    rintro _ _ bound bound' e e' ⟨rfl, rfl⟩ hb hb' ⟨he, he'⟩
    obtain ⟨after, hafter, hlist⟩ := argumentList_of_fills x.oldText x.post x.oldFills
      (factor_complete bound) (length_part_le ..) hb he
    obtain ⟨after', hafter', hlist'⟩ := argumentList_of_fills x.newText x.post x.newFills
      (factor_complete bound') (length_part_le ..) hb' he'
    rw [hlist, hlist']
    exact .ok [x.value] (.behind x.post le_rfl) ⟨hafter, hafter'⟩

end Exchange

end Expression

namespace Calculator
open Expression Grammar Number

variable {c : Calculator} {answer : String → List Float → Except Failure Float} {value : Float}

/-- A text that has the value at full precision has it in every part of every other text. -/
theorem fills_of_evaluate (hpure : c.bindings.Pure answer) {text : String}
    (h : (⟨c.bindings, .exact⟩ : Calculator).evaluate text = .ok value) :
    Fills (nested c.precision) c.bindings value text.toList := by
  have hne : text ≠ "" := by
    rintro rfl
    simp [Calculator.evaluate, Calculator.run, nestingLimit, evaluateWithin, evaluateWith] at h
  rw [Calculator.evaluate_eq hne] at h
  rcases hresult : evaluateText (nested .exact) text.toList ⟨c.bindings, []⟩ with ⟨_ | found, after⟩
  · simp [hresult, Except.bind] at h
  · obtain rfl : found = value := by
      simpa [hresult, Except.bind, Precision.round, Except.mapError] using h
    obtain ⟨t, hw, hread, heval⟩ := exists_tree_of_evaluateText hresult
    refine ⟨t, hw, hread, fun e he => ?_⟩
    exact t.eval_pure (hpure .exact) (hpure c.precision) rfl heval he

/-- A variable has its value as a text, too. -/
theorem fills_variable {name : String}
    (hname : IsName name.toList) (h : c.bindings.numbers.get? name = some value) :
    Fills (nested c.precision) c.bindings value name.toList := by
  let n : Name := ⟨name.toList, hname⟩
  have hn : n.string = name := String.ofList_toList
  refine ⟨.expression (.term (.value n) .nil) .nil, ⟨⟨trivial, trivial⟩, trivial⟩, ?_, ?_⟩
  · have hread := Spaced.reads (.token (t := .name n) (by simp) .nil)
    rwa [List.append_nil] at hread
  · intro e he
    refine ⟨e, he, ?_⟩
    have hm : held (resolved e.bindings n.string) = some value := by
      rw [he, hn, resolved, h]
      rfl
    simp [Tree.eval, Tail.eval, hm]

/-- Substitution: a text in parentheses can be put in place of a variable that has its value, and
the other way round. What stands around the parentheses may be anything, and a fault behind them
only moves with the text. -/
theorem evaluate_substituted (hpure : c.bindings.Pure answer)
    (hfaultless : ∀ name arguments fault, answer name arguments ≠ .error (.fault fault))
    {text name : String} (htext : (⟨c.bindings, .exact⟩ : Calculator).evaluate text = .ok value)
    (hname : IsName name.toList) (hvalue : c.bindings.numbers.get? name = some value)
    (pre post : String) :
    c.evaluate (pre ++ "(" ++ text ++ ")" ++ post) =
      (c.evaluate (pre ++ "(" ++ name ++ ")" ++ post)).mapError
        (Failure.mapPosition (moved (pre.length + 1) name.length text.length)) := by
  let x : Exchange :=
    ⟨nested c.precision, c.bindings, answer, hpure c.precision, hfaultless, pre.toList, post.toList,
      text.toList, name.toList, value, fills_of_evaluate hpure htext, fills_variable hname hvalue⟩
  have hplug : ∀ part : String, (pre ++ "(" ++ part ++ ")" ++ post).toList =
      plug pre.toList part.toList post.toList := by
    intro part
    simp [plug]
  have hne : ∀ part : String, pre ++ "(" ++ part ++ ")" ++ post ≠ "" := by
    intro part h
    have hlist := hplug part
    rw [h] at hlist
    simp [plug] at hlist
  have hmove : x.move = moved (pre.length + 1) name.length text.length := by
    simp [x, Exchange.move, String.length_toList]
  have halike := x.lockstep.evaluateWith_alike ⟨c.bindings, []⟩ ⟨c.bindings, []⟩ c.precision
    (hne name) (hne text) (hplug name) (hplug text) (.before pre.toList le_rfl) ⟨rfl, rfl⟩
  rw [← hmove]
  exact halike.1

/-- A sum in an argument list, with a parenthesis too many behind it. -/
theorem evaluate_substituted_sum :
    (⟨(Bindings.empty.setFunction "f" ⟨Callback.sum, none⟩).setVariable "x"
        (Numeral.toFloat ⟨['1'], none, none⟩ + Numeral.toFloat ⟨['2'], none, none⟩),
      .places 2⟩ : Calculator).evaluate ("f" ++ "(" ++ "1+2" ++ ")" ++ ")") =
      ((⟨(Bindings.empty.setFunction "f" ⟨Callback.sum, none⟩).setVariable "x"
        (Numeral.toFloat ⟨['1'], none, none⟩ + Numeral.toFloat ⟨['2'], none, none⟩),
      .places 2⟩ : Calculator).evaluate ("f" ++ "(" ++ "x" ++ ")" ++ ")")).mapError
        (Failure.mapPosition (moved ("f".length + 1) "x".length "1+2".length)) := by
  have hpure : Bindings.Pure
      ((Bindings.empty.setFunction "f" ⟨Callback.sum, none⟩).setVariable "x"
        (Numeral.toFloat ⟨['1'], none, none⟩ + Numeral.toFloat ⟨['2'], none, none⟩))
      fun _ arguments => .ok (arguments.foldl (· + ·) 0.0) := by
    intro precision name function hf arguments _ calls
    obtain rfl := Bindings.eq_of_get?_setFunction hf
    exact ⟨_, calls, rfl, rfl⟩
  refine evaluate_substituted hpure (by simp) ?_ ?_ rfl "f" ")"
  · let digit (c : Char) (hc : c.isDigit = true) : Tree .factor := .ofLiteral (.ofDigit c hc)
    let t : Tree .expression := .expression (.term (digit '1' rfl) .nil)
      (.cons .plus (.term (digit '2' rfl) .nil) .nil)
    have hw : t.WellFormed := by
      simp [t, digit, Tree.ofLiteral, Tree.WellFormed, Tail.WellFormed]
    have hs : Spaced t.tokens ['1', '+', '2'] := by
      refine .token ?_ (.mark (.token ?_ .nil))
      · rintro - _ ⟨⟩ ⟨⟩
      · rintro - _ ⟨⟩
    rw [evaluate_eq (by decide), show "1+2".toList = ['1', '+', '2'] by decide,
      evaluateText_of_reads hw hs.reads rfl]
    rfl
  · have hx : "x".toList = ['x'] := by decide
    rw [hx]
    exact ⟨by decide, by simp⟩

end Calculator

end Reckon
