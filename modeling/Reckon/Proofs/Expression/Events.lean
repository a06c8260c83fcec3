import Reckon.Proofs.Expression.Plan

/-!
# The events of a run

The events of a plan tell when names are looked up and what is called. In a run over a text they
come in the order of the text: a name is looked up as soon as it has been scanned, and a function
that is found waits for the names and calls of its arguments, which come before its own call. Each
of these relations holds of the events of two parts if it holds of both.
-/
namespace Reckon.Expression
open Grammar

variable {evaluate : Evaluator} {e : Environment} {c d : Cursor}

/-- Every name is looked up at once when it has been scanned, under the bindings as they are then. -/
inductive Prompt (evaluate : Evaluator) : Environment → List Event → Prop
  | nil (e : Environment) : Prompt evaluate e []
  | looked {e : Environment} {name : String} {start : Nat} {later : List Event}
      (h : Prompt evaluate e later) :
      Prompt evaluate e
        (.scanned name start :: .looked name start (e.bindings.meaning name) :: later)
  | called {e : Environment} {name : String} {callee : Callee} {arguments : List Float}
      {place : Nat} {later : List Event}
      (h : Prompt evaluate (callee.run evaluate name arguments e).2 later) :
      Prompt evaluate e (.called name callee arguments place :: later)

theorem Prompt.append {before later : List Event} (h : Prompt evaluate e before)
    (h' : Prompt evaluate (afterEvents evaluate e before) later) :
    Prompt evaluate e (before ++ later) := by
  induction h with
  | nil e => exact h'
  | looked h ih => exact .looked (ih h')
  | called h ih => exact .called (ih h')

/-- A name that is scanned is looked up next, and found to be what the bindings have for it after
exactly the calls before it. No name is looked up otherwise. -/
def Timely (evaluate : Evaluator) (e : Environment) (events : List Event) : Prop :=
  (∀ (before later : List Event) (name : String) (start : Nat),
    events = before ++ .scanned name start :: later →
    ∃ rest, later =
      .looked name start (resolved (afterEvents evaluate e before).bindings name) :: rest) ∧
  ∀ (before later : List Event) (name : String) (start : Nat) (meaning : Meaning),
    events = before ++ .looked name start meaning :: later →
    ∃ earlier, before = earlier ++ [.scanned name start]

section Timely
variable {events : List Event}

theorem timely_nil : Timely evaluate e [] :=
  ⟨fun _ _ _ _ hsplit => by simp at hsplit, fun _ _ _ _ _ hsplit => by simp at hsplit⟩

theorem Timely.looked (h : Timely evaluate e events) (name : String) (start : Nat) :
    Timely evaluate e
      (.scanned name start :: .looked name start (e.bindings.meaning name) :: events) := by
  refine ⟨fun before later other place hsplit => ?_,
    fun before later other place meaning hsplit => ?_⟩
  · match before with
    | [] =>
      obtain ⟨hfirst, rfl⟩ := List.cons.inj hsplit
      cases hfirst
      exact ⟨events, by rw [resolved_eq_meaning]; rfl⟩
    | [event] => cases (List.cons.inj (List.cons.inj hsplit).2).1
    | event :: next :: before =>
      obtain ⟨rfl, hrest⟩ := List.cons.inj hsplit
      obtain ⟨rfl, htail⟩ := List.cons.inj hrest
      exact h.1 before later other place htail
  · match before with
    | [] => cases (List.cons.inj hsplit).1
    | [event] =>
      obtain ⟨rfl, hrest⟩ := List.cons.inj hsplit
      cases (List.cons.inj hrest).1
      exact ⟨[], rfl⟩
    | event :: next :: before =>
      obtain ⟨rfl, hrest⟩ := List.cons.inj hsplit
      obtain ⟨rfl, htail⟩ := List.cons.inj hrest
      obtain ⟨earlier, rfl⟩ := h.2 before later other place meaning htail
      exact ⟨_ :: _ :: earlier, rfl⟩

theorem Timely.called {name : String} {callee : Callee} {arguments : List Float}
    (h : Timely evaluate (callee.run evaluate name arguments e).2 events) (place : Nat) :
    Timely evaluate e (.called name callee arguments place :: events) := by
  refine ⟨fun before later other start hsplit => ?_,
    fun before later other start meaning hsplit => ?_⟩
  · cases before with
    | nil => cases (List.cons.inj hsplit).1
    | cons event before =>
      obtain ⟨rfl, hrest⟩ := List.cons.inj hsplit
      exact h.1 before later other start hrest
  · cases before with
    | nil => cases (List.cons.inj hsplit).1
    | cons event before =>
      obtain ⟨rfl, hrest⟩ := List.cons.inj hsplit
      obtain ⟨earlier, rfl⟩ := h.2 before later other start meaning hrest
      exact ⟨_ :: earlier, rfl⟩

theorem Prompt.timely (h : Prompt evaluate e events) : Timely evaluate e events := by
  induction h with
  | nil e => exact timely_nil
  | looked h ih => exact ih.looked _ _
  | called h ih => exact ih.called _

end Timely

/-- Events in which every function that was looked up has been called, on the values of what was
read in between. -/
inductive Balanced : List Event → Prop
  | nil : Balanced []
  | value {name : String} {start : Nat} {meaning : Meaning} {x : Float} {later : List Event}
      (h : held meaning = some x) (hs : Balanced later) :
      Balanced (.scanned name start :: .looked name start meaning :: later)
  | call {name : String} {start place : Nat} {meaning : Meaning} {callee : Callee}
      {arguments : List Float} {inner later : List Event} (h : meaning.callee? = some callee)
      (hi : Balanced inner) (hs : Balanced later) :
      Balanced (.scanned name start :: .looked name start meaning ::
        (inner ++ .called name callee arguments place :: later))

theorem Balanced.append {before later : List Event} (h : Balanced before) (h' : Balanced later) :
    Balanced (before ++ later) := by
  induction h with
  | nil => exact h'
  | value h _ ih => exact .value h ih
  | call h hi _ _ ih =>
    rw [List.cons_append, List.cons_append, List.append_assoc]
    exact .call h hi ih

/-- A stop that neither a name nor a call has caused. -/
inductive Plain : Stop → Prop
  | unbalanced (found : Option Char) (position : Nat) :
      Plain (.rejected (.unbalanced found position))
  | unexpected (found : Option Char) (position : Nat) :
      Plain (.rejected (.unexpected found position))
  | exhausted : Plain .exhausted

/-- The events of a run that ends in this way: the functions that still wait for their arguments
are those around the place where it ends. -/
inductive Broken (evaluate : Evaluator) : Ending → List Event → Prop
  | stopped {reason : Stop} {events : List Event} (h : Balanced events) (hr : Plain reason) :
      Broken evaluate (.stopped reason) events
  | unknown {name : String} {start : Nat} {before : List Event} (h : Balanced before) :
      Broken evaluate (.stopped (.rejected (.unknownName name start)))
        (before ++ [.scanned name start, .looked name start .unknown])
  | refused {name : String} {start : Nat} {meaning : Meaning} {callee : Callee}
      {arguments : List Float} {before inner : List Event} (h : Balanced before)
      (hm : meaning.callee? = some callee) (hi : Balanced inner)
      (ha : callee.takes arguments = false) :
      Broken evaluate (.stopped (.rejected (callee.refusal name arguments)))
        (before ++ .scanned name start :: .looked name start meaning :: inner)
  | waiting {name : String} {start : Nat} {meaning : Meaning} {callee : Callee} {ending : Ending}
      {before inner : List Event} (h : Balanced before) (hm : meaning.callee? = some callee)
      (hi : Broken evaluate ending inner) :
      Broken evaluate ending (before ++ .scanned name start :: .looked name start meaning :: inner)
  | call {name : String} {start place : Nat} {meaning : Meaning} {callee : Callee}
      {arguments : List Float} {failure : Failure} {before inner : List Event} {e : Environment}
      (h : Balanced before) (hm : meaning.callee? = some callee) (hi : Balanced inner)
      (hc : (callee.run evaluate name arguments e).1 = .error failure) :
      Broken evaluate (.failed failure)
        (before ++ .scanned name start :: .looked name start meaning ::
          (inner ++ [.called name callee arguments place]))

theorem Broken.append {ending : Ending} {before later : List Event} (h : Balanced before)
    (h' : Broken evaluate ending later) : Broken evaluate ending (before ++ later) := by
  cases h' with
  | stopped hs hr => exact .stopped (h.append hs) hr
  | unknown hs =>
    rw [← List.append_assoc]
    exact .unknown (h.append hs)
  | refused hs hm hi ha =>
    rw [← List.append_assoc]
    exact .refused (h.append hs) hm hi ha
  | waiting hs hm hi =>
    rw [← List.append_assoc]
    exact .waiting (h.append hs) hm hi
  | call hs hm hi hc =>
    rw [← List.append_assoc]
    exact .call (h.append hs) hm hi hc

/-- The function that waits for its arguments at the end of some events is the one that its name
stood for when it was looked up. Everything looked up since has been called. -/
def Waiting (callee : Callee) (name : String) (start : Nat) (events : List Event) : Prop :=
  ∃ (earlier inner : List Event) (meaning : Meaning),
    events = earlier ++ .looked name start meaning :: inner ∧
      meaning.callee? = some callee ∧ Balanced inner

/-- If the number of arguments is refused, it is so for the arity of the function that waits. -/
theorem Broken.waiting_of_refused {name : String} {expected : Option Int} {actual : Int}
    {events : List Event}
    (h : Broken evaluate (.stopped (.rejected (.argumentCount name expected actual))) events) :
    ∃ callee start arguments, Waiting callee name start events ∧
      callee.takes arguments = false ∧
      callee.refusal name arguments = .argumentCount name expected actual := by
  generalize hending : Ending.stopped (.rejected (.argumentCount name expected actual)) = ending at h
  induction h with
  | stopped _ hr => cases hr <;> cases hending
  | unknown _ => cases hending
  | call _ _ _ _ => cases hending
  | @refused other start meaning callee arguments before inner _ hm hi ha =>
    have hsame : callee.refusal other arguments = .argumentCount name expected actual := by
      injection hending with hstop
      injection hstop with hrejected
      exact hrejected.symm
    obtain rfl : other = name := (Rejection.argumentCount.inj hsame).1
    exact ⟨callee, start, arguments, ⟨before ++ [.scanned other start], inner, meaning, by simp, hm, hi⟩,
      ha, hsame⟩
  | @waiting other place meaning _ _ before inner _ _ _ ih =>
    obtain ⟨callee, start, arguments, ⟨earlier, last, found, rfl, hm, hi⟩, ha, hsame⟩ := ih hending
    exact ⟨callee, start, arguments,
      ⟨before ++ .scanned other place :: .looked other place meaning :: earlier, last, found,
        by simp, hm, hi⟩, ha, hsame⟩

/-- What stops a run without a call is a rejection, or the bound on the depth. -/
theorem Broken.stop_cases {reason : Stop} {events : List Event}
    (h : Broken evaluate (.stopped reason) events) :
    (∃ rejection, reason = .rejected rejection) ∨ reason = .exhausted := by
  generalize hending : Ending.stopped reason = ending at h
  induction h with
  | stopped _ hr =>
    obtain rfl := Ending.stopped.inj hending
    cases hr with
    | exhausted => exact .inr rfl
    | _ => exact .inl ⟨_, rfl⟩
  | unknown _ => exact .inl ⟨_, Ending.stopped.inj hending⟩
  | refused _ _ _ _ => exact .inl ⟨_, Ending.stopped.inj hending⟩
  | waiting _ _ _ ih => exact ih hending
  | call _ _ _ _ => cases hending

/-- A run that a call has failed in ends with that call. -/
theorem Broken.exists_call {failure : Failure} {events : List Event}
    (h : Broken evaluate (.failed failure) events) :
    ∃ (before : List Event) (name : String) (callee : Callee) (arguments : List Float)
      (place : Nat) (between : Environment),
      events = before ++ [.called name callee arguments place] ∧
        (callee.run evaluate name arguments between).1 = .error failure := by
  generalize hending : Ending.failed failure = ending at h
  induction h with
  | stopped _ _ => cases hending
  | unknown _ => cases hending
  | refused _ _ _ _ => cases hending
  | @waiting name start meaning _ _ before inner _ _ _ ih =>
    obtain ⟨front, other, callee, arguments, place, between, rfl, hc⟩ := ih hending
    exact ⟨before ++ .scanned name start :: .looked name start meaning :: front, other, callee,
      arguments, place, between, by simp, hc⟩
  | @call name start place meaning callee arguments failure' before inner between _ _ _ hc =>
    obtain rfl := Ending.failed.inj hending
    exact ⟨before ++ .scanned name start :: .looked name start meaning :: inner, name, callee,
      arguments, place, between, by simp, hc⟩

/-- Between two places the text is the arguments of a call: a list in parentheses, or a factor that
is no group. -/
def ArgumentsAt (text : List Char) (first last : Nat) : Prop :=
  (∃ arguments : Arguments, arguments.WellFormed ∧
    Reads (.openParen :: (arguments.tokens ++ [.closeParen])) (text.drop first) (text.drop last)) ∨
  ∃ argument : Tree .factor, argument.WellFormed ∧ argument.isGroup = false ∧
    Reads argument.tokens (text.drop first) (text.drop last)

/-- Every call runs, right behind the arguments that follow its name, the function that the name
stood for when it was looked up in front of them, and it has an arity for that. -/
def Answered (text : List Char) (events : List Event) : Prop :=
  ∀ (before later : List Event) (name : String) (callee : Callee) (arguments : List Float)
    (place : Nat), events = before ++ .called name callee arguments place :: later →
    callee.takes arguments = true ∧ ∃ start, Waiting callee name start before ∧
      ArgumentsAt text (start + name.length) place

section Answered
variable {text : List Char}

theorem answered_nil : Answered text [] := by
  intro before later name callee arguments place h
  simp at h

theorem Answered.append {before later : List Event} (h : Answered text before)
    (h' : Answered text later) : Answered text (before ++ later) := by
  intro front back name callee arguments place hsplit
  rcases List.append_eq_append_iff.mp hsplit with ⟨mid, rfl, hlater⟩ | ⟨mid, rfl, hback⟩
  · obtain ⟨htakes, start, ⟨earlier, inner, meaning, rfl, hm, hi⟩, hread⟩ := h' _ _ _ _ _ _ hlater
    exact ⟨htakes, start,
      ⟨before ++ earlier, inner, meaning, (List.append_assoc ..).symm, hm, hi⟩, hread⟩
  · cases mid with
    | nil =>
      obtain ⟨-, start, ⟨earlier, inner, meaning, hnil, -⟩, -⟩ := h' [] _ _ _ _ _ hback.symm
      simp at hnil
    | cons event mid =>
      obtain ⟨rfl, -⟩ := List.cons.inj hback
      exact h _ _ _ _ _ _ rfl

theorem answered_looked {name : String} {start : Nat} {meaning : Meaning} :
    Answered text [.scanned name start, .looked name start meaning] := by
  intro before later other callee arguments place h
  match before with
  | [] => cases (List.cons.inj h).1
  | [event] => cases (List.cons.inj (List.cons.inj h).2).1
  | event :: next :: before => simp at h

/-- A call at the end of the events of its arguments. -/
theorem answered_call {name : String} {start place : Nat} {meaning : Meaning} {callee : Callee}
    {arguments : List Float} {inner : List Event} (hm : meaning.callee? = some callee)
    (hi : Balanced inner) (ha : Answered text inner) (htakes : callee.takes arguments = true)
    (hread : ArgumentsAt text (start + name.length) place) :
    Answered text (.scanned name start :: .looked name start meaning ::
      (inner ++ [.called name callee arguments place])) := by
  intro before later other callee' arguments' place' h
  rcases List.eq_nil_or_concat later with rfl | ⟨later, last, rfl⟩
  · have hsplit : .scanned name start :: .looked name start meaning :: inner = before ∧
        Event.called name callee arguments place = .called other callee' arguments' place' := by
      rw [← List.cons_append, ← List.cons_append] at h
      simpa using List.append_inj' h rfl
    obtain ⟨rfl, hlast⟩ := hsplit
    cases hlast
    exact ⟨htakes, start, ⟨[.scanned name start], inner, meaning, rfl, hm, hi⟩, hread⟩
  · have hfront : .scanned name start :: .looked name start meaning :: inner =
        before ++ .called other callee' arguments' place' :: later := by
      rw [← List.cons_append, ← List.cons_append, List.concat_eq_append, ← List.cons_append,
        ← List.append_assoc] at h
      exact (List.append_inj' h rfl).1
    exact (answered_looked.append ha) _ _ _ _ _ _ hfront

end Answered

/-- From one place to another the text is blanks, marks, numbers and the names that are scanned,
each one in its turn, and every call has its place among them. -/
inductive InOrder (text : List Char) : Nat → Nat → List Event → Prop
  | nil {first last : Nat} (h : Cursor.Nameless text first last) : InOrder text first last []
  | scanned {first start last : Nat} {name : String} {later : List Event}
      (h : Cursor.Nameless text first start) (hn : NameAt text start name)
      (hs : InOrder text (start + name.length) last later) :
      InOrder text first last (.scanned name start :: later)
  | looked {first last : Nat} {name : String} {start : Nat} {meaning : Meaning}
      {later : List Event} (hs : InOrder text first last later) :
      InOrder text first last (.looked name start meaning :: later)
  | called {first place last : Nat} {name : String} {callee : Callee} {arguments : List Float}
      {later : List Event} (h : Cursor.Nameless text first place)
      (hs : InOrder text place last later) :
      InOrder text first last (.called name callee arguments place :: later)

namespace InOrder

variable {text : List Char} {first middle last : Nat} {events : List Event}

theorem of_nameless (h : Cursor.Nameless text first middle) (h' : InOrder text middle last events) :
    InOrder text first last events := by
  induction h' with
  | nil h' => exact .nil (h.trans h')
  | scanned h' hn hs _ => exact .scanned (h.trans h') hn hs
  | looked _ ih => exact .looked (ih h)
  | called h' hs _ => exact .called (h.trans h') hs

theorem append {before later : List Event} (h : InOrder text first middle before)
    (h' : InOrder text middle last later) : InOrder text first last (before ++ later) := by
  induction h with
  | nil h => exact h'.of_nameless h
  | scanned h hn _ ih => exact .scanned h hn (ih h')
  | looked _ ih => exact .looked (ih h')
  | called h _ ih => exact .called h (ih h')

end InOrder

/-- How events go that start at a cursor, whatever they come to. -/
structure Course (evaluate : Evaluator) (c : Cursor) (e : Environment) (last : Nat)
    (events : List Event) : Prop where
  prompt : Prompt evaluate e events
  answered : Answered c.text events
  inOrder : InOrder c.text c.pos last events

namespace Course

variable {last : Nat} {before later : List Event}

theorem none (h : Cursor.Nameless c.text c.pos last) : Course evaluate c e last [] :=
  ⟨.nil e, answered_nil, .nil h⟩

theorem append (h : Course evaluate c e d.pos before) (htext : d.text = c.text)
    (h' : Course evaluate d (afterEvents evaluate e before) last later) :
    Course evaluate c e last (before ++ later) :=
  ⟨h.prompt.append h'.prompt, h.answered.append (htext ▸ h'.answered),
    h.inOrder.append (htext ▸ h'.inOrder)⟩

theorem of_nameless (htext : d.text = c.text) (hn : Cursor.Nameless c.text c.pos d.pos)
    (h : Course evaluate d e last later) : Course evaluate c e last later :=
  ⟨h.prompt, htext ▸ h.answered, .of_nameless hn (htext ▸ h.inOrder)⟩

end Course

end Reckon.Expression
