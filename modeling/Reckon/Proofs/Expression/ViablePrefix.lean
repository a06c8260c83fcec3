import Reckon.Proofs.Expression.Soundness
import Reckon.Proofs.Grammar.Response

/-!
# Syntax errors stand at the first wrong character

Whatever stands in front of a syntax error can still be completed: behind it, closing parentheses
are enough, or a zero for an operand that is missing and then closing parentheses. On the completed
text the evaluator does up to the error what it did before, since its lexemes end there at the
latest; then it takes the zero, and closes what was open. What is called only now may still refuse
the number of its arguments, or break down in its arithmetic.
-/
namespace Reckon

/-- The fault says that the wrong character, or none, was found at the position. -/
inductive Fault.SyntaxAt (position : Nat) : Fault → Prop
  | unbalanced (found : Option Char) : SyntaxAt position (.unbalanced found position)
  | unexpected (found : Option Char) : SyntaxAt position (.unexpected found position)

/-- The failure says nothing about the form of a text or the names in it. -/
inductive Failure.InCall : Failure → Prop
  | argumentCount (function : String) (expected : Option Int) (actual : Int) :
      InCall (.fault (.argumentCount function expected actual))
  | arithmetic {name : String} {function : Builtin} (known : Builtin.builtin? name = some function)
      {arguments : List Float} {cause : Breakdown} (h : function.apply arguments = .error cause) :
      InCall (.breakdown cause)

namespace Expression
open Grammar Number
open Text (isBlank)

variable {text rest more left : List Char} {e after : Environment} {evaluate : Evaluator}
  {b : Bindings}

def closing (k : Nat) : List Char := List.replicate k ')'

theorem closing_succ (k : Nat) : closing (k + 1) = ')' :: closing k := rfl

/-- What a text is completed with: closing parentheses, perhaps behind a zero. -/
inductive Completion : List Char → Prop
  | closing (k : Nat) : Completion (closing k)
  | zero (k : Nat) : Completion (' ' :: '0' :: closing k)

theorem append_closing (c : List Char) (n k : Nat) :
    c ++ closing n ++ closing k = c ++ closing (k + n) := by
  rw [List.append_assoc, closing, closing, List.replicate_append_replicate, Nat.add_comm, closing]

theorem Completion.append {c : List Char} (h : Completion c) (k : Nat) :
    Completion (c ++ Expression.closing k) := by
  cases h with
  | closing n =>
    rw [Expression.closing, Expression.closing, List.replicate_append_replicate]
    exact .closing (n + k)
  | zero n =>
    rw [List.cons_append, List.cons_append, Expression.closing, Expression.closing,
      List.replicate_append_replicate]
    exact .zero (n + k)

theorem closing_head? {k : Nat} : ∀ d ∈ (closing k).head?, d = ')' := by
  intro d hd
  cases k with
  | zero => simp [closing] at hd
  | succ k => exact (Option.some.inj hd).symm

theorem clear_closing (k : Nat) : Clear (closing k) :=
  dropWhile_of_stop fun d hd => by
    rw [closing_head? d hd]
    decide

theorem Completion.barrier {c : List Char} (h : Completion c) : Barrier c := by
  intro d hd
  cases h with
  | closing k =>
    rw [closing_head? d hd]
    decide
  | zero k =>
    obtain rfl := Option.some.inj hd
    decide

theorem Completion.head?_dropWhile {c : List Char} (h : Completion c) :
    ∀ d ∈ (c.dropWhile isBlank).head?, d = '0' ∨ d = ')' := by
  intro d hd
  cases h with
  | closing k =>
    rw [clear_closing k] at hd
    exact .inr (closing_head? d hd)
  | zero k => exact .inl (Option.some.inj hd).symm

theorem ends_closing {l : Level} (k : Nat) : Ends l.operator? (closing k) := by
  intro d hd
  rw [clear_closing k] at hd
  obtain rfl := closing_head? d hd
  cases l <;> rfl

section Front
variable {front back c : List Char}

/-- A text and its completion go on with the same character, or with what completes it. -/
theorem head?_completed (hc : Completion c) :
    ∀ d ∈ ((front ++ c).dropWhile isBlank).head?,
      d ∈ ((front ++ back).dropWhile isBlank).head? ∨ d = '0' ∨ d = ')' := by
  intro d hd
  rw [List.dropWhile_append] at hd ⊢
  split at hd
  · exact .inr (hc.head?_dropWhile d hd)
  · next h =>
    rw [if_neg h]
    cases hf : front.dropWhile isBlank with
    | nil => simp [hf] at h
    | cons a tail =>
      rw [hf] at hd
      exact .inl hd

theorem ends_completed {l : Level} (hc : Completion c) (h : Ends l.operator? (front ++ back)) :
    Ends l.operator? (front ++ c) := by
  intro d hd
  obtain hd | rfl | rfl := head?_completed hc d hd
  · exact h d hd
  · cases l <;> rfl
  · cases l <;> rfl

theorem follows_completed {l : Level} (hc : Completion c) (h : Follows l (front ++ back)) :
    Follows l (front ++ c) := by
  cases l with
  | factor => trivial
  | term => exact ends_completed (l := .factor) hc h
  | expression =>
    exact ⟨ends_completed (l := .factor) hc h.1, ends_completed (l := .term) hc h.2⟩

end Front

/-- The run stops in front of `left`, or fails in a call. -/
inductive Passes (b : Bindings) (text left : List Char) {α : Type} :
    EStateM.Result Halt State α → Prop
  | ok (a : α) {e : Environment} (he : e.bindings = b) : Passes b text left (.ok a (.facing text left e))
  | error {failure : Failure} (h : failure.InCall) (s : State) :
      Passes b text left (.error (.failed failure) s)

theorem Passes.bind {α β : Type} {p : Parse α} {f : α → Parse β} {s : State}
    (h : Passes b text left (p s))
    (hf : ∀ (a : α) (e : Environment), e.bindings = b → Passes b text more (f a (.facing text left e))) :
    Passes b text more ((p >>= f) s) := by
  generalize hp : p s = result at h
  cases h with
  | ok a he =>
    rw [bind_ok hp]
    exact hf a _ he
  | error h s =>
    rw [bind_error hp]
    exact .error h s

/-- Completed in this way, the text in front of the position passes: whatever closing parentheses
stand behind the completion are left. -/
structure Completes (b : Bindings) (text rest : List Char) (position : Nat) (e : Environment)
    {α : Type} (runs : Nat → Nat → Parse α) (front c : List Char) : Prop where
  place : ∃ back, rest = front ++ back ∧ position + back.length = text.length
  completion : Completion c
  passes : ∀ (other start : List Char) (k bound rounds : Nat),
    start.dropWhile isBlank = (front ++ (c ++ closing k)).dropWhile isBlank →
    start.length ≤ other.length → start.length < bound → start.length < rounds →
    Passes b other (closing k) (runs bound rounds (.facing other start e))

/-- Something stands in front of the position, or a zero does behind it. -/
def Opened (front c : List Char) : Prop := front.dropWhile isBlank ≠ [] ∨ c.head? = some ' '

/-- Wherever the run fails with a syntax error, what it has read can be completed. -/
def Viable (b : Bindings) {α : Type} (bound : Nat) (run : Parse α) (runs : Nat → Parse α) : Prop :=
  ∀ (text rest : List Char) (e : Environment) (fault : Fault) (position : Nat) (final : State),
    e.bindings = b → rest.length ≤ text.length → rest.length < bound →
    run (.facing text rest e) = .error (.failed (.fault fault)) final → fault.SyntaxAt position →
    ∃ front c, Completes b text rest position e (fun bound _ => runs bound) front c ∧ Opened front c

/-- A run of a level, and runs for other bounds that read the same trees. -/
structure Reader (evaluate : Evaluator) (b : Bindings) (l : Level) (bound : Nat) (run : Parse Float)
    (runs : Nat → Parse Float) : Prop where
  sound : Sound evaluate l run
  complete : ∀ bound, Complete evaluate l bound (runs bound)
  viable : Viable b bound run runs

/-- What a successful run has read is read in every text that goes on differently behind a barrier. -/
theorem Reader.transfer {l : Level} {bound : Nat} {run : Parse Float} {runs : Nat → Parse Float}
    (h : Reader evaluate b l bound run runs)
    (hb : b.Total evaluate)
    (he : e.bindings = b) (hr : rest.length ≤ text.length)
    {value : Float} {final : State} (hrun : run (.facing text rest e) = .ok value final) :
    ∃ (front more : List Char) (after : Environment), rest = front ++ more ∧
      final = .facing text more after ∧ after.bindings = b ∧ front.dropWhile isBlank ≠ [] ∧
      Stops l more ∧
      ∀ (other start tail : List Char) (bound : Nat), Cut more tail → Follows l tail →
        start.dropWhile isBlank = (front ++ tail).dropWhile isBlank →
        start.length ≤ other.length → start.length < bound →
        ∃ left, left.length < start.length ∧ Leaves l left (tail.dropWhile isBlank) ∧
          runs bound (.facing other start e) = .ok value (.facing other left after) := by
  obtain ⟨t, more, after, hfinal, hw, hread, hstop, heval⟩ := h.sound text rest e value final hr hrun
  obtain ⟨front, rfl⟩ := hread.exists_append
  refine ⟨front, more, after, rfl, hfinal, t.eval_bindings hb he heval, ?_, hstop, ?_⟩
  · obtain ⟨first, tokens, ht, -⟩ := t.exists_token
    rw [ht] at hread
    exact hread.dropWhile_ne_nil
  · intro other start tail bound hcut hfollow hstart hle hlt
    have htail := (hread.cut hcut).append (reads_dropWhile tail)
    rw [List.append_nil] at htail
    exact h.complete bound t other start _ e after value hw
      (htail.congr (clear_dropWhile tail) hstart) (clear_dropWhile tail)
      (hfollow.congr (dropWhile_dropWhile tail)) hle hlt heval

theorem Stops.follows {l : Level} (h : Stops l rest) : Follows l rest := by
  cases l with
  | factor => trivial
  | term => exact h.2
  | expression => exact h.2

theorem append_dropWhile_ne_nil {front : List Char} (h : front.dropWhile isBlank ≠ [])
    (tail : List Char) : (front ++ tail).dropWhile isBlank ≠ [] := by
  rw [List.dropWhile_append, if_neg (by simpa using h)]
  simp [h]

/-- The closing parentheses are part of what the run starts with. -/
theorem length_closing_le {start front : List Char} {k : Nat}
    (h : start.dropWhile isBlank = (front ++ closing k).dropWhile isBlank) :
    (closing k).length ≤ start.length := by
  have hle := start.length_dropWhile_le isBlank
  rw [List.dropWhile_append] at h
  split at h
  · rw [h, clear_closing k] at hle
    exact hle
  · rw [h, List.length_append] at hle
    omega

/-- A completion behind a token, of a run that starts with the token. -/
theorem Completes.skip {α β : Type} {runs : Nat → Nat → Parse α} {runs' : Nat → Nat → Parse β}
    {t : Token} {position : Nat} {front c : List Char} (hn : Next rest t more)
    (h : Completes b text more position e runs front c)
    (hstep : ∀ (other start tail : List Char) (k bound rounds : Nat), start.length ≤ other.length →
      start.length < bound → start.length < rounds → Next start t tail →
      (∀ bound rounds, tail.length < bound → tail.length < rounds →
        Passes b other (closing k) (runs bound rounds (.facing other tail e))) →
      Passes b other (closing k) (runs' bound rounds (.facing other start e))) :
    ∃ front c, Completes b text rest position e runs' front c ∧ Opened front c := by
  obtain ⟨⟨back, rfl, hplace⟩, hc, hpasses⟩ := h
  obtain ⟨skipped, rfl, hne, hnext⟩ := hn.cut
  refine ⟨skipped ++ front, c, ⟨⟨back, by simp, hplace⟩, hc, ?_⟩,
    .inl (append_dropWhile_ne_nil hne front)⟩
  intro other start k bound rounds hstart hle hbound hrounds
  have hfirst : Next start t (front ++ (c ++ closing k)) := by
    refine Next.congr (hnext _ ⟨front, back, _, rfl, rfl, (hc.append k).barrier⟩) ?_
    rw [hstart, List.append_assoc]
  have hlt := hfirst.length_lt
  refine hstep other start _ k bound rounds hle hbound hrounds hfirst ?_
  intro bound rounds hbound hrounds
  exact hpasses other _ k bound rounds rfl (by omega) hbound hrounds

/-- Where a chain fails with a syntax error, what it has read can be completed. -/
def ChainViable (b : Bindings) (l : Level) (bound : Nat) (operand : Parse Float)
    (operands : Nat → Parse Float) (rounds : Nat) : Prop :=
  ∀ (text rest : List Char) (e : Environment) (value : Float) (fault : Fault) (position : Nat)
    (final : State), e.bindings = b → rest.length ≤ text.length → rest.length < bound →
    chain l.operator? operand rounds value (.facing text rest e) =
      .error (.failed (.fault fault)) final → fault.SyntaxAt position →
    ∃ front c, Completes b text rest position e
      (fun bound rounds => chain l.operator? (operands bound) rounds value) front c ∧ Opened front c

section Link
variable {l : Level} {bound rounds position : Nat} {operand : Parse Float}
  {operands : Nat → Parse Float} {fault : Fault} {final : State} (hb : b.Total evaluate)
  (ho : Reader evaluate b l bound operand operands)
include hb ho

/-- An operand and the chain behind it. -/
theorem linked_viable (hchain : ChainViable b l bound operand operands rounds) (start : Float → Float)
    (he : e.bindings = b) (hr : rest.length ≤ text.length) (hbound : rest.length < bound)
    (h : linked l.operator? operand rounds start (.facing text rest e) =
      .error (.failed (.fault fault)) final) (hp : fault.SyntaxAt position) :
    ∃ front c, Completes b text rest position e
      (fun bound rounds => linked l.operator? (operands bound) rounds start) front c ∧
      Opened front c := by
  obtain hfirst | ⟨x, s, hx, hrest⟩ := bind_eq_error.mp h
  · obtain ⟨front, c, hcompletes, hopened⟩ :=
      ho.viable text rest e fault position final he hr hbound hfirst hp
    refine ⟨front, c, ⟨hcompletes.place, hcompletes.completion, ?_⟩, hopened⟩
    intro other from' k bound rounds hstart hle hlt hlt'
    obtain ⟨n, rfl⟩ : ∃ n, rounds = n + 1 := Nat.exists_eq_succ_of_ne_zero (by omega)
    have hpasses := hcompletes.passes other from' k bound (n + 1) hstart hle hlt hlt'
    rw [← List.append_assoc] at hstart
    have hclosing := length_closing_le hstart
    refine hpasses.bind fun x e he => ?_
    rw [chain_end (by omega) (ends_closing k), clear_closing k]
    exact .ok _ he
  · obtain ⟨front, more, after, rfl, rfl, hafter, hne, hstop, htransfer⟩ :=
      ho.transfer hb he hr hx
    simp only [List.length_append] at hr hbound
    obtain ⟨front', c, ⟨⟨back, rfl, hplace⟩, hc, hpasses⟩, -⟩ := hchain text more after _ fault position
      final hafter (by omega) (by omega) hrest hp
    refine ⟨front ++ front', c, ⟨⟨back, by simp, hplace⟩, hc, ?_⟩,
      .inl (append_dropWhile_ne_nil hne front')⟩
    intro other from' k bound rounds hstart hle hlt hlt'
    have hd : Completion (c ++ closing k) := hc.append k
    rw [List.append_assoc] at hstart
    obtain ⟨left, hless, hleaves, hrun⟩ := htransfer other from' _ bound
      ⟨front', back, _, rfl, rfl, hd.barrier⟩ (follows_completed hd hstop.follows) hstart hle hlt
    have hsame := hleaves.dropWhile_eq (clear_dropWhile _)
    rw [linked, bind_ok hrun]
    exact hpasses other left k bound rounds (hsame.trans (dropWhile_dropWhile _)) (by omega)
      (by omega) (by omega)

theorem chain_viable : ∀ rounds, ChainViable b l bound operand operands rounds := by
  intro rounds
  induction rounds with
  | zero => intro text rest e value fault position final _ _ _ h; cases h
  | succ rounds ih =>
    intro text rest e value fault position final he hr hbound h hp
    obtain ⟨operator, mid, hnext⟩ | hend := operator_or_ends l rest
    · have hlt := hnext.length_lt
      rw [chain_next hr hnext operator.operator?_char] at h
      obtain ⟨front, c, hcompletes, -⟩ := linked_viable hb ho ih (operator.apply value) he (by omega)
        (by omega) h hp
      refine hcompletes.skip hnext ?_
      intro other start tail k bound rounds hle hlt hlt' hfirst hpasses
      have hless := hfirst.length_lt
      obtain ⟨n, rfl⟩ : ∃ n, rounds = n + 1 := Nat.exists_eq_succ_of_ne_zero (by omega)
      rw [chain_next hle hfirst operator.operator?_char]
      exact hpasses bound n (by omega) (by omega)
    · rw [chain_end hr hend] at h
      cases h

end Link

theorem term_reader {inner : Parse Float} {inners : Nat → Parse Float} {bound : Nat}
    (hb : b.Total evaluate) (hi : Reader evaluate b .factor bound inner inners) :
    Reader evaluate b .term bound (termOf inner bound) fun bound => termOf (inners bound) bound where
  sound := term_sound hi.sound
  complete := fun bound => term_complete (hi.complete bound)
  viable := by
    intro text rest e fault position final he hr hbound h hp
    obtain ⟨front, c, ⟨hplace, hc, hpasses⟩, hopened⟩ :=
      linked_viable hb hi (chain_viable hb hi bound) id he hr hbound h hp
    refine ⟨front, c, ⟨hplace, hc, ?_⟩, hopened⟩
    exact fun other start k bound _ hstart hle hlt _ =>
      hpasses other start k bound bound hstart hle hlt hlt

theorem expression_reader {inner : Parse Float} {inners : Nat → Parse Float} {bound : Nat}
    (hb : b.Total evaluate) (hi : Reader evaluate b .factor bound inner inners) :
    Reader evaluate b .expression bound (expressionOf inner bound)
      fun bound => expressionOf (inners bound) bound where
  sound := expression_sound hi.sound
  complete := fun bound => expression_complete (hi.complete bound)
  viable := by
    intro text rest e fault position final he hr hbound h hp
    have ht := term_reader hb hi
    obtain ⟨front, c, ⟨hplace, hc, hpasses⟩, hopened⟩ :=
      linked_viable hb ht (chain_viable hb ht bound) id he hr hbound h hp
    refine ⟨front, c, ⟨hplace, hc, ?_⟩, hopened⟩
    exact fun other start k bound _ hstart hle hlt _ =>
      hpasses other start k bound bound hstart hle hlt hlt

theorem head?_append_of_ne_nil {front : List Char} (h : front.dropWhile isBlank ≠ [])
    (tail : List Char) :
    ((front ++ tail).dropWhile isBlank).head? = (front.dropWhile isBlank).head? := by
  rw [List.dropWhile_append, if_neg (by simpa using h)]
  cases hf : front.dropWhile isBlank with
  | nil => exact absurd hf h
  | cons c front => rfl

/-- What an argument is completed to starts an operand, too: it starts as before, or with a zero. -/
theorem Opened.any_isOperandStart {front back c : List Char} (h : Opened front c)
    (hstart : ((front ++ back).dropWhile isBlank).head?.any Cursor.isOperandStart = true)
    (hc : Completion c) (tail : List Char) :
    ((front ++ (c ++ tail)).dropWhile isBlank).head?.any Cursor.isOperandStart = true := by
  by_cases hf : front.dropWhile isBlank = []
  · obtain hne | hblank := h
    · exact absurd hf hne
    · rw [List.dropWhile_append, hf]
      cases hc with
      | closing k => exact absurd (closing_head? ' ' hblank) (by decide)
      | zero k => rfl
  · rw [head?_append_of_ne_nil hf] at hstart ⊢
    exact hstart

/-- Behind an argument a comma is skipped, or none stands there; and so it is in a text that is
completed behind it. -/
theorem skipComma_completed (hclear : Clear rest) (hfollow : Follows .expression rest)
    (hr : rest.length ≤ text.length) :
    ∃ comma next, rest = comma ++ next ∧
      (∀ e, (skipComma : Parse Unit) (.facing text rest e) = .ok () (.facing text next e)) ∧
      ∀ front back d, next = front ++ back → Completion d →
        Follows .expression (comma ++ (front ++ d)) ∧
        ∀ other : List Char, ((comma ++ (front ++ d)).dropWhile isBlank).length ≤ other.length →
          ∃ left, left.length ≤ ((comma ++ (front ++ d)).dropWhile isBlank).length ∧
            left.dropWhile isBlank = (front ++ d).dropWhile isBlank ∧
            ∀ e, (skipComma : Parse Unit) (.facing other ((comma ++ (front ++ d)).dropWhile isBlank) e) =
              .ok () (.facing other left e) := by
  by_cases hcomma : rest.head? = some ','
  · obtain ⟨next, rfl⟩ := List.head?_eq_some_iff.mp hcomma
    refine ⟨[','], next, rfl, fun e => skipComma_next hr, ?_⟩
    intro front back d _ _
    have hdrop : ([','] ++ (front ++ d)).dropWhile isBlank = ',' :: (front ++ d) := rfl
    have hnext : Next ([','] ++ (front ++ d)) .comma (front ++ d) := ⟨hdrop, trivial⟩
    refine ⟨⟨Ends.of_next hnext ?_, Ends.of_next hnext ?_⟩, fun other hle => ?_⟩
    · intro c hc
      obtain rfl := Option.some.inj hc
      rfl
    · intro c hc
      obtain rfl := Option.some.inj hc
      rfl
    · rw [hdrop] at hle ⊢
      exact ⟨front ++ d, by simp, rfl, fun e => skipComma_next hle⟩
  · refine ⟨[], rest, rfl, fun e => skipComma_miss hcomma, ?_⟩
    rintro front back d rfl hd
    have hnext : Follows .expression (front ++ d) := follows_completed hd hfollow
    refine ⟨hnext, fun other hle => ⟨_, le_rfl, dropWhile_dropWhile _, ?_⟩⟩
    refine fun e => skipComma_miss fun hhead => ?_
    obtain hback | h | h := head?_completed hd ',' hhead
    · rw [hclear] at hback
      exact hcomma hback
    · exact absurd h (by decide)
    · exact absurd h (by decide)

/-- Blanks in front of a text that is completed. -/
theorem takeWhile_append_dropWhile_eq (rest tail : List Char) :
    (rest.takeWhile isBlank ++ tail).dropWhile isBlank = tail.dropWhile isBlank := by
  rw [List.dropWhile_append_of_pos fun c hc => List.mem_takeWhile_imp hc]

section ArgumentList
variable {bound position : Nat} {run : Parse Float} {runs : Nat → Parse Float} {front c : List Char}

/-- A list whose closing parenthesis is missing. -/
theorem completes_close (he : e.bindings = b) (hr : rest.length ≤ text.length) :
    Completes b text rest (text.length - (rest.dropWhile isBlank).length) e
      (fun bound rounds => argumentList (runs bound) rounds) (rest.takeWhile isBlank) (closing 1) := by
  have hdrop := rest.length_dropWhile_le isBlank
  refine ⟨⟨rest.dropWhile isBlank, List.takeWhile_append_dropWhile.symm, by omega⟩, .closing 1, ?_⟩
  intro other start k bound rounds hstart hle _ hlt
  obtain ⟨n, rfl⟩ : ∃ n, rounds = n + 1 := Nat.exists_eq_succ_of_ne_zero (by omega)
  have hnext : Next start .closeParen (closing k) :=
    ⟨hstart.trans (takeWhile_append_dropWhile_eq _ _), trivial⟩
  rw [argumentList_close hle hnext]
  exact .ok [] he

/-- An argument that is completed, and the list closed behind it. -/
theorem completes_first (hopened : Opened front c)
    (hstart : (rest.dropWhile isBlank).head?.any Cursor.isOperandStart = true)
    (h : Completes b text (rest.dropWhile isBlank) position e (fun bound _ => runs bound) front c) :
    Completes b text rest position e (fun bound rounds => argumentList (runs bound) rounds)
      (rest.takeWhile isBlank ++ front) (c ++ closing 1) := by
  obtain ⟨⟨back, hback, hplace⟩, hc, hpasses⟩ := h
  refine ⟨⟨back, ?_, hplace⟩, hc.append 1, ?_⟩
  · rw [List.append_assoc, ← hback, List.takeWhile_append_dropWhile]
  · intro other start k bound rounds hfrom hle hlt hlt'
    obtain ⟨n, rfl⟩ : ∃ n, rounds = n + 1 := Nat.exists_eq_succ_of_ne_zero (by omega)
    have hless := start.length_dropWhile_le isBlank
    rw [List.append_assoc, takeWhile_append_dropWhile_eq, append_closing] at hfrom
    have hclosing : k + 1 ≤ start.length := by
      rw [← List.append_assoc] at hfrom
      simpa [closing] using length_closing_le hfrom
    have hoperand : (start.dropWhile isBlank).head?.any Cursor.isOperandStart = true := by
      rw [hfrom]
      rw [← dropWhile_dropWhile, hback] at hstart
      exact hopened.any_isOperandStart hstart hc _
    have hpass := hpasses other (start.dropWhile isBlank) (k + 1) bound (n + 1)
      ((dropWhile_dropWhile _).trans hfrom) (by omega) (by omega) (by omega)
    rw [argumentList_next hle hoperand]
    refine hpass.bind fun x e he => ?_
    obtain ⟨m, rfl⟩ : ∃ m, n = m + 1 := Nat.exists_eq_succ_of_ne_zero (by omega)
    have hnext : Next (closing (k + 1)) .closeParen (closing k) := ⟨clear_closing (k + 1), trivial⟩
    have hle' : (closing (k + 1)).length ≤ other.length := by
      simp only [closing, List.length_replicate]
      omega
    rw [bind_ok (skipComma_miss (by simp [closing_succ])), bind_ok (argumentList_close hle' hnext)]
    exact .ok [x] he

variable (hb : b.Total evaluate) (hx : Reader evaluate b .expression bound run runs)
include hb hx

theorem argumentList_viable :
    ∀ (rounds : Nat) (rest : List Char) (e : Environment) (fault : Fault) (position : Nat)
      (final : State), e.bindings = b → rest.length ≤ text.length → rest.length < bound →
      argumentList run rounds (.facing text rest e) = .error (.failed (.fault fault)) final →
      fault.SyntaxAt position →
      ∃ front c, Completes b text rest position e
        (fun bound rounds => argumentList (runs bound) rounds) front c := by
  intro rounds
  induction rounds with
  | zero => intro rest e fault position final _ _ _ h; cases h
  | succ rounds ih =>
    intro rest e fault position final he hr hbound h hp
    have hdrop := rest.length_dropWhile_le isBlank
    cases hstart : (rest.dropWhile isBlank).head?.any Cursor.isOperandStart with
    | false =>
      obtain ⟨left, hnext⟩ | hmiss := Cursor.next_or_ne (c := ')') rfl rest
      · rw [argumentList_close hr hnext] at h
        cases h
      · rw [argumentList_end hr hstart, bind_error (close_fail (by omega) (by simpa using hmiss)),
          dropWhile_dropWhile] at h
        cases h
        cases hp
        exact ⟨_, _, completes_close he hr⟩
    | true =>
      rw [argumentList_next hr hstart] at h
      obtain hfirst | ⟨x, s, hrun, hrest⟩ := bind_eq_error.mp h
      · obtain ⟨front, c, hcompletes, hopened⟩ :=
          hx.viable text _ e fault position final he (by omega) (by omega) hfirst hp
        exact ⟨_, _, completes_first hopened hstart hcompletes⟩
      · -- the argument is read again, and a later one is completed
        obtain ⟨front, mid, between, hfront, rfl, hbetween, hne, ⟨hclear, hfollow⟩, htransfer⟩ :=
          hx.transfer hb he (by omega) hrun
        have hlen := congrArg List.length hfront
        rw [List.length_append] at hlen
        obtain ⟨comma, next, rfl, hskip, hcompleted⟩ :=
          skipComma_completed hclear hfollow (by omega : _ ≤ text.length)
        simp only [List.length_append] at hlen
        rw [bind_ok (hskip between)] at hrest
        obtain hlist | ⟨xs, s, -, hdone⟩ := bind_eq_error.mp hrest
        · obtain ⟨front', c, ⟨⟨back, rfl, hplace⟩, hc, hpasses⟩⟩ :=
            ih next between fault position final hbetween (by omega) (by omega) hlist hp
          refine ⟨rest.takeWhile isBlank ++ (front ++ (comma ++ front')), c,
            ⟨⟨back, ?_, hplace⟩, hc, ?_⟩⟩
          · simp only [List.append_assoc]
            rw [← hfront, List.takeWhile_append_dropWhile]
          · intro other start k bound rounds hfrom hle hlt hlt'
            obtain ⟨n, rfl⟩ : ∃ n, rounds = n + 1 := Nat.exists_eq_succ_of_ne_zero (by omega)
            have hd : Completion (c ++ closing k) := hc.append k
            have hless := start.length_dropWhile_le isBlank
            rw [List.append_assoc, takeWhile_append_dropWhile_eq, List.append_assoc,
              List.append_assoc] at hfrom
            obtain ⟨hfollow', hskip'⟩ := hcompleted front' back _ rfl hd
            obtain ⟨left, hleft, hleaves, hrun'⟩ := htransfer other (start.dropWhile isBlank) _ bound
              ⟨comma ++ front', back, _, by simp, by simp, hd.barrier⟩ hfollow'
              ((dropWhile_dropWhile _).trans hfrom) (by omega) (by omega)
            obtain rfl : left = (comma ++ (front' ++ (c ++ closing k))).dropWhile isBlank := hleaves
            obtain ⟨last, hlast, hsame, hskipped⟩ := hskip' other (by omega)
            have hoperand : (start.dropWhile isBlank).head?.any Cursor.isOperandStart = true := by
              rw [hfrom, head?_append_of_ne_nil hne]
              rwa [← dropWhile_dropWhile, hfront, head?_append_of_ne_nil hne] at hstart
            rw [argumentList_next hle hoperand, bind_ok hrun', bind_ok (hskipped between)]
            refine (hpasses other last k bound n hsame (by omega) (by omega) (by omega)).bind ?_
            intro xs e he
            exact .ok (x :: xs) he
        · cases hdone

end ArgumentList

section Arguments
variable {bound position : Nat} {inner : Parse Float} {inners : Nat → Parse Float} {fault : Fault}
  {final : State}

theorem argumentsOf_viable (hb : b.Total evaluate)
    (hi : Reader evaluate b .factor bound inner inners) (he : e.bindings = b)
    (hr : rest.length ≤ text.length) (hbound : rest.length < bound)
    (h : argumentsOf inner bound (.facing text rest e) = .error (.failed (.fault fault)) final)
    (hp : fault.SyntaxAt position) :
    ∃ front c, Completes b text rest position e
      (fun bound _ => argumentsOf (inners bound) bound) front c ∧ Opened front c := by
  obtain ⟨more, hopen⟩ | hbare := Cursor.next_or_ne (c := '(') rfl rest
  · have hlt := hopen.length_lt
    obtain ⟨n, rfl⟩ : ∃ n, bound = n + 1 := Nat.exists_eq_succ_of_ne_zero (by omega)
    rw [argumentsOf_list hr hopen] at h
    obtain ⟨front, c, hcompletes⟩ := argumentList_viable hb (expression_reader hb hi) (n + 1) more e
      fault position final he (by omega) (by omega) h hp
    refine hcompletes.skip hopen ?_
    intro other start tail k bound rounds hle hlt _ hfirst hpasses
    have hless := hfirst.length_lt
    obtain ⟨m, rfl⟩ : ∃ m, bound = m + 1 := Nat.exists_eq_succ_of_ne_zero (by omega)
    rw [argumentsOf_list hle hfirst]
    exact hpasses (m + 1) (m + 1) (by omega) (by omega)
  · rw [argumentsOf_bare hr hbare] at h
    obtain hfirst | ⟨x, s, -, hdone⟩ := bind_eq_error.mp h
    · obtain ⟨front, c, ⟨⟨back, rfl, hplace⟩, hc, hpasses⟩, hopened⟩ :=
        hi.viable text _ e fault position final he hr hbound hfirst hp
      refine ⟨front, c, ⟨⟨back, rfl, hplace⟩, hc, ?_⟩, hopened⟩
      intro other start k bound rounds hstart hle hlt hlt'
      have hmiss : ∀ d ∈ (start.dropWhile isBlank).head?, d ≠ '(' := by
        intro d hd
        rw [hstart] at hd
        obtain hback | rfl | rfl := head?_completed (hc.append k) d hd
        · exact hbare d hback
        · decide
        · decide
      rw [argumentsOf_bare hle hmiss]
      refine (hpasses other start k bound rounds hstart hle hlt hlt').bind ?_
      intro x e he
      exact .ok [x] he
    · cases hdone

/-- Whatever is called now succeeds, or fails in the call. -/
theorem applied_passes (hb : b.Total evaluate) (he : e.bindings = b) {name : String}
    {values : List Float} (hf : isFunction (b.meaning name) = true) :
    Passes b text rest (applied evaluate name (b.meaning name) values (.facing text rest e)) := by
  rcases hmeaning : b.meaning name with _ | function | _ | function | _
  · simp [hmeaning, isFunction] at hf
  · cases ha : admits (function.arity.map Int.ofNat) values.length with
    | false =>
      rw [applied_refused (.inl ⟨_, rfl⟩) ha]
      exact .error (.argumentCount _ _ _) _
    | true =>
      obtain ⟨_, more, ⟨value, rfl⟩, hcall⟩ := hb.call he hmeaning ha
      rw [applied_custom ha]
      simp only [State.facing, hcall]
      exact .ok value rfl
  · simp [hmeaning, isFunction] at hf
  · cases ha : admits (function.arity.map Int.ofNat) values.length with
    | false =>
      rw [applied_refused (.inr ⟨_, rfl⟩) ha]
      exact .error (.argumentCount _ _ _) _
    | true =>
      rw [applied_builtin ha]
      cases happly : function.apply values with
      | ok value => exact .ok value he
      | error cause => exact .error (.arithmetic (Bindings.builtin?_of_meaning hmeaning) happly) _
  · simp [hmeaning, isFunction] at hf

theorem Passes.not_syntaxAt {α : Type} {result : EStateM.Result Halt State α}
    (h : Passes b text rest result) (hr : result = .error (.failed (.fault fault)) final) :
    ¬ fault.SyntaxAt position := by
  subst hr
  intro hp
  cases h with
  | error h => cases h with
    | argumentCount => cases hp

/-- A call whose arguments are completed. -/
theorem call_viable (hb : b.Total evaluate) (hi : Reader evaluate b .factor bound inner inners)
    (he : e.bindings = b) (hr : rest.length ≤ text.length) (hbound : rest.length < bound)
    {name : String} (hf : isFunction (b.meaning name) = true)
    (h : (do let values ← argumentsOf inner bound; applied evaluate name (b.meaning name) values :
      Parse Float) (.facing text rest e) = .error (.failed (.fault fault)) final)
    (hp : fault.SyntaxAt position) :
    ∃ front c, Completes b text rest position e
      (fun bound _ => do
        let values ← argumentsOf (inners bound) bound
        applied evaluate name (b.meaning name) values) front c := by
  obtain hfirst | ⟨values, s, hvalues, happlied⟩ := bind_eq_error.mp h
  · obtain ⟨front, c, ⟨hplace, hc, hpasses⟩, -⟩ := argumentsOf_viable hb hi he hr hbound hfirst hp
    refine ⟨front, c, hplace, hc, ?_⟩
    intro other start k bound rounds hstart hle hlt hlt'
    refine (hpasses other start k bound rounds hstart hle hlt hlt').bind fun values e he => ?_
    exact applied_passes hb he hf
  · obtain ⟨more, after, rfl, hread⟩ := argumentsOf_sound hi.sound hr hvalues
    have hafter : after.bindings = b := by
      obtain ⟨arguments, -, -, heval⟩ | ⟨argument, x, -, -, -, -, heval⟩ := hread
      · exact arguments.eval_bindings hb he heval
      · exact argument.eval_bindings hb he heval
    exact absurd hp ((applied_passes hb hafter hf).not_syntaxAt happlied)

end Arguments

/-- A group whose expression is completed, or whose closing parenthesis is missing. -/
theorem group_viable {bound position : Nat} {run : Parse Float} {runs : Nat → Parse Float}
    {fault : Fault} {final : State} (hb : b.Total evaluate)
    (hx : Reader evaluate b .expression bound run runs) (he : e.bindings = b)
    (hr : rest.length ≤ text.length) (hbound : rest.length < bound)
    (h : (do let value ← run; close; return value : Parse Float) (.facing text rest e) =
      .error (.failed (.fault fault)) final) (hp : fault.SyntaxAt position) :
    ∃ front c, Completes b text rest position e
      (fun bound _ => do let value ← runs bound; close; return value) front c := by
  have hclose : ∀ k, Next (closing (k + 1)) .closeParen (closing k) := fun k =>
    ⟨clear_closing (k + 1), trivial⟩
  obtain hfirst | ⟨x, s, hx', hrest⟩ := bind_eq_error.mp h
  · obtain ⟨front, c, ⟨hplace, hc, hpasses⟩, -⟩ :=
      hx.viable text rest e fault position final he hr hbound hfirst hp
    refine ⟨front, c ++ closing 1, hplace, hc.append 1, ?_⟩
    intro other start k bound rounds hstart hle hlt hlt'
    rw [append_closing] at hstart
    have hpass := hpasses other start (k + 1) bound rounds hstart hle hlt hlt'
    rw [← List.append_assoc] at hstart
    have hclosing := (length_closing_le hstart).trans hle
    refine hpass.bind fun x e he => ?_
    rw [bind_ok (close_next hclosing (hclose k))]
    exact .ok x he
  · obtain ⟨front, stop, after, rfl, rfl, hafter, hne, ⟨hclear, -⟩, htransfer⟩ :=
      hx.transfer hb he hr hx'
    simp only [List.length_append] at hr
    obtain hfail | ⟨_, s, -, hdone⟩ := bind_eq_error.mp hrest
    · obtain ⟨left, hnext⟩ | hmiss := Cursor.next_or_ne (c := ')') rfl stop
      · rw [close_next (by omega) hnext] at hfail
        cases hfail
      · rw [close_fail (by omega) hmiss, hclear] at hfail
        cases hfail
        cases hp
        refine ⟨front, closing 1, ⟨stop, rfl, by omega⟩, .closing 1, ?_⟩
        intro other start k bound rounds hstart hle hlt hlt'
        have htail : closing 1 ++ closing k = closing (k + 1) := append_closing [] 1 k
        rw [htail] at hstart
        obtain ⟨left, hleft, hleaves, hrun⟩ := htransfer other start (closing (k + 1)) bound
          ⟨[], stop, _, rfl, rfl, (Completion.closing (k + 1)).barrier⟩ (follows_of_close (hclose k))
          hstart hle hlt
        obtain rfl : left = closing (k + 1) := hleaves.trans (clear_closing (k + 1))
        rw [bind_ok hrun, bind_ok (close_next (by omega) (hclose k))]
        exact .ok x hafter
    · cases hdone

theorem endsNumeral_closing (k : Nat) : EndsNumeral (closing k) := by
  intro c hc
  obtain rfl := closing_head? c hc
  decide

/-- Where an operand is missing, a zero takes its place. -/
theorem completes_zero (he : e.bindings = b) (hr : rest.length ≤ text.length) :
    Completes b text rest (text.length - (rest.dropWhile isBlank).length) e
      (fun bound _ => factor evaluate bound) (rest.takeWhile isBlank) (' ' :: '0' :: closing 0) := by
  have hdrop := rest.length_dropWhile_le isBlank
  refine ⟨⟨rest.dropWhile isBlank, List.takeWhile_append_dropWhile.symm, by omega⟩, .zero 0, ?_⟩
  intro other start k bound rounds hstart hle hlt _
  obtain ⟨n, rfl⟩ : ∃ n, bound = n + 1 := Nat.exists_eq_succ_of_ne_zero (by omega)
  have hnext : Next start (.number (.ofDigit '0' rfl)) (closing k) :=
    ⟨hstart.trans (takeWhile_append_dropWhile_eq _ _), Literal.stands _ (endsNumeral_closing k)⟩
  rw [factor_succ, factorOf_number hle hnext]
  exact .ok _ he

theorem factor_reader (hb : b.Total evaluate) :
    ∀ bound, Reader evaluate b .factor bound (factor evaluate bound) (factor evaluate) := by
  intro bound
  refine ⟨factor_sound bound, factor_complete, ?_⟩
  induction bound with
  | zero => intro text rest e fault position final _ _ h; omega
  | succ bound ih =>
    intro text rest e fault position final he hr hbound h hp
    have hi : Reader evaluate b .factor bound (factor evaluate bound) (factor evaluate) :=
      ⟨factor_sound bound, factor_complete, ih⟩
    rw [factor_succ] at h
    cases hstart : (rest.dropWhile isBlank).head?.any Cursor.isOperandStart with
    | false =>
      rw [factorOf_fail hr hstart] at h
      cases h
      cases hp
      exact ⟨_, _, completes_zero he hr, .inr rfl⟩
    | true =>
      cases Cursor.lead_of_isOperandStart hstart with
      | sign negative mid hsign =>
        have hlt := hsign.length_lt
        rw [factorOf_sign hr hsign] at h
        have hinner : factor evaluate bound (.facing text mid e) =
            .error (.failed (.fault fault)) final := by
          cases negative with
          | false => exact h
          | true =>
            obtain hfirst | ⟨x, s, -, hdone⟩ := bind_eq_error.mp h
            · exact hfirst
            · cases hdone
        obtain ⟨front, c, hcompletes, -⟩ := ih text mid e fault position final he (by omega) (by omega)
          hinner hp
        refine hcompletes.skip hsign ?_
        intro other start tail k bound rounds hle hlt hlt' hfirst hpasses
        have hless := hfirst.length_lt
        obtain ⟨n, rfl⟩ : ∃ n, bound = n + 1 := Nat.exists_eq_succ_of_ne_zero (by omega)
        have hpass := hpasses n rounds (by omega) (by omega)
        rw [factor_succ, factorOf_sign hle hfirst]
        cases negative with
        | false => exact hpass
        | true => exact hpass.bind fun x e he => .ok (-x) he
      | group mid hopen =>
        have hlt := hopen.length_lt
        rw [factorOf_group hr hopen] at h
        obtain ⟨front, c, hcompletes⟩ := group_viable hb (expression_reader hb hi) he (by omega)
          (by omega) h hp
        refine hcompletes.skip hopen ?_
        intro other start tail k bound rounds hle hlt hlt' hfirst hpasses
        have hless := hfirst.length_lt
        obtain ⟨n, rfl⟩ : ∃ n, bound = n + 1 := Nat.exists_eq_succ_of_ne_zero (by omega)
        rw [factor_succ, factorOf_group hle hfirst]
        exact hpasses n rounds (by omega) (by omega)
      | number n mid hnumber =>
        rw [factorOf_number hr hnumber] at h
        cases h
      | name n mid hname =>
        have hlt := hname.length_lt
        have hbindings : (State.facing text mid e).environment.bindings = b := he
        rw [factorOf_name hr hname] at h
        obtain ⟨value, hheld⟩ | hf | hunknown := meaning_cases (b.meaning n.string)
        · rw [resolve_held (hbindings.symm ▸ hheld)] at h
          cases h
        · rw [resolve_function (hbindings.symm ▸ hf), hbindings] at h
          obtain ⟨front, c, hcompletes⟩ := call_viable hb hi he (by omega) (by omega) hf h hp
          refine hcompletes.skip hname ?_
          intro other start tail k bound rounds hle hlt hlt' hfirst hpasses
          have hless := hfirst.length_lt
          obtain ⟨m, rfl⟩ : ∃ m, bound = m + 1 := Nat.exists_eq_succ_of_ne_zero (by omega)
          have hother : (State.facing other tail e).environment.bindings = b := he
          rw [factor_succ, factorOf_name hle hfirst, resolve_function (hother.symm ▸ hf), hother]
          exact hpasses m rounds (by omega) (by omega)
        · rw [resolve_unknown (hbindings.symm ▸ hunknown)] at h
          cases h
          cases hp

/-- The evaluation gives a value, or fails in a call. -/
inductive Settled : Except Failure Float → Prop
  | value (x : Float) : Settled (.ok x)
  | inCall {failure : Failure} (h : failure.InCall) : Settled (.error failure)

/-- A text that an expression passes without a rest is settled. -/
theorem settled_of_passes
    (h : Passes b text [] (expression evaluate (boundFor text) (.facing text text e))) :
    Settled (evaluateText evaluate text e).1 := by
  have hwhole : Passes b text [] (whole evaluate (boundFor text) (.facing text text e)) :=
    h.bind fun value e he => .ok value he
  rw [evaluateText_eq]
  generalize whole evaluate (boundFor text) (.facing text text e) = result at hwhole
  cases hwhole with
  | ok value he => exact .value value
  | error h s => exact .inCall h

theorem evaluateText_completed (hb : b.Total evaluate) (he : e.bindings = b) {fault : Fault}
    {position : Nat} (h : (evaluateText evaluate text e).1 = .error (.fault fault))
    (hp : fault.SyntaxAt position) :
    ∃ c, Completion c ∧ text.take position ++ c ≠ [] ∧
      Settled (evaluateText evaluate (text.take position ++ c) e).1 := by
  have hbound : ∀ other : List Char, other.length < boundFor other := fun other => Nat.lt_succ_self _
  have hx := expression_reader hb (factor_reader hb (boundFor text))
  obtain ⟨final, hfail⟩ : ∃ final, whole evaluate (boundFor text) (.facing text text e) =
      .error (.failed (.fault fault)) final := by
    rw [evaluateText_eq] at h
    rcases hw : whole evaluate (boundFor text) (.facing text text e) with ⟨x, s⟩ | ⟨halt, s⟩
    · simp [hw, outcomeOf] at h
    · cases halt with
      | failed failure =>
        obtain rfl : failure = .fault fault := by
          simpa [hw, outcomeOf, Halt.failure] using h
        exact ⟨s, rfl⟩
      | exhausted => simp [hw, outcomeOf, Halt.failure] at h
  obtain hfirst | ⟨x, s, hrun, -⟩ := bind_eq_error.mp hfail
  · obtain ⟨front, c, ⟨⟨back, hback, hplace⟩, hc, hpasses⟩, hopened⟩ :=
      hx.viable text text e fault position final he le_rfl (hbound text) hfirst hp
    have htake : text.take position = front := by
      have hlen := congrArg List.length hback
      rw [List.length_append] at hlen
      rw [hback, List.take_left' (by omega)]
    have hsame : (front ++ c).dropWhile isBlank = (front ++ (c ++ closing 0)).dropWhile isBlank := by
      rw [closing, List.replicate_zero, List.append_nil]
    refine ⟨c, hc, ?_, ?_⟩
    · intro hempty
      obtain ⟨hf, rfl⟩ := List.append_eq_nil_iff.mp hempty
      rw [← htake, hf] at hopened
      obtain h | h := hopened
      · exact h rfl
      · cases h
    · rw [htake]
      exact settled_of_passes (hpasses _ _ 0 _ _ hsame le_rfl (hbound _) (hbound _))
  · obtain ⟨front, more, after, hfront, rfl, hafter, hne, ⟨hclear, -⟩, htransfer⟩ :=
      hx.transfer hb he le_rfl hrun
    cases more with
    | nil =>
      rw [whole_end hrun] at hfail
      cases hfail
    | cons d more =>
      -- the text goes on behind its expression, which is a text of its own
      rw [whole_fail hrun] at hfail
      cases hfail
      cases hp
      have htake : text.take (text.length - (d :: more).length) = front := by
        rw [hfront, List.length_append, Nat.add_sub_cancel, List.take_left]
      have hcut : Cut (d :: more) [] := ⟨[], d :: more, [], rfl, rfl, by simp [Barrier]⟩
      obtain ⟨left, -, hleaves, hrun'⟩ := htransfer front front [] (boundFor front) hcut
        (by constructor <;> simp [Ends]) (by rw [List.append_nil]) le_rfl (hbound front)
      obtain rfl : left = [] := hleaves
      refine ⟨[], .closing 0, ?_, ?_⟩
      · intro hempty
        rw [List.append_nil, htake] at hempty
        exact hne (by rw [hempty]; rfl)
      · have hpasses : Passes b front [] (expression evaluate (boundFor front)
            (.facing front front e)) := by
          rw [expression, hrun']
          exact .ok x hafter
        rw [List.append_nil, htake]
        exact settled_of_passes hpasses

end Expression

namespace Calculator
open Expression

variable {b : Bindings} {fault : Fault} {position : Nat}

theorem evaluate_exact {expression : String} (h : expression ≠ "") :
    (⟨b, .exact⟩ : Calculator).evaluate expression =
      (evaluateText (nested .exact) expression.toList ⟨b, []⟩).1 := by
  rw [evaluate_eq h]
  cases (evaluateText (nested .exact) expression.toList ⟨b, []⟩).1 <;> rfl

/-- Syntax errors are reported at the first character that makes the text wrong: what stands in
front of it is completed by closing parentheses, or by a zero and closing parentheses. -/
theorem evaluate_completed (hb : b.Total (nested .exact)) {text : String}
    (h : (⟨b, .exact⟩ : Calculator).evaluate text = .error (.fault fault))
    (hp : fault.SyntaxAt position) :
    ∃ k,
      Settled ((⟨b, .exact⟩ : Calculator).evaluate
        (String.ofList (text.toList.take position ++ List.replicate k ')'))) ∨
      Settled ((⟨b, .exact⟩ : Calculator).evaluate
        (String.ofList (text.toList.take position ++ ' ' :: '0' :: List.replicate k ')'))) := by
  have hne : text ≠ "" := by
    rintro rfl
    have hempty : (⟨b, .exact⟩ : Calculator).evaluate "" = .error (.fault .emptyInput) := by
      simp [Calculator.evaluate, Calculator.run, nestingLimit, evaluateWithin, evaluateWith]
    rw [hempty] at h
    cases h
    cases hp
  rw [evaluate_exact hne] at h
  obtain ⟨c, hc, hnonempty, hsettled⟩ := evaluateText_completed hb rfl h hp
  have hcompleted : Settled ((⟨b, .exact⟩ : Calculator).evaluate
      (String.ofList (text.toList.take position ++ c))) := by
    rw [evaluate_exact fun hempty => hnonempty (by simpa using congrArg String.toList hempty)]
    simpa using hsettled
  cases hc with
  | closing k => exact ⟨k, .inl hcompleted⟩
  | zero k => exact ⟨k, .inr hcompleted⟩

/-- A list of arguments that is not closed. -/
theorem evaluate_completed_call :
    ∃ k,
      Settled ((⟨Bindings.empty.setFunction "f" ⟨Callback.sum, none⟩, .exact⟩ : Calculator).evaluate
        (String.ofList ("f(2@".toList.take 3 ++ List.replicate k ')'))) ∨
      Settled ((⟨Bindings.empty.setFunction "f" ⟨Callback.sum, none⟩, .exact⟩ : Calculator).evaluate
        (String.ofList ("f(2@".toList.take 3 ++ ' ' :: '0' :: List.replicate k ')'))) := by
  have hfails : (⟨Bindings.empty.setFunction "f" ⟨Callback.sum, none⟩, .exact⟩ : Calculator).evaluate
      "f(2@" = .error (.fault (.unbalanced (some '@') 3)) := by
    have hcheck : (match (⟨Bindings.empty.setFunction "f" ⟨Callback.sum, none⟩, .exact⟩ :
        Calculator).evaluate "f(2@" with
      | .error (.fault rejection) => decide (rejection = .unbalanced (some '@') 3)
      | _ => false) = true := by
      decide +kernel
    split at hcheck
    next rejection h => rw [h, of_decide_eq_true hcheck]
    next => cases hcheck
  refine evaluate_completed ?_ hfails (.unbalanced _)
  intro name function hf arguments _ calls
  obtain rfl := Bindings.eq_of_get?_setFunction hf
  exact ⟨_, calls, ⟨_, rfl⟩, rfl⟩

end Calculator

end Reckon
