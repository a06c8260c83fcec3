import Reckon.Session

/-!
# Schedules

A session carries out steps on any number of calculators in any order. What one calculator answers
and the tables that it ends with are those of its own steps, carried out alone and in their order.
-/
namespace Reckon.Session

/-- What belongs to a name, in order. -/
def own {α : Type} (name : String) (items : List (String × α)) : List α :=
  items.filterMap fun item => if item.1 = name then some item.2 else none

/-- Carries out the steps of a schedule, each on the calculator that it names, with the answers
under the names of their calculators. -/
def steps (s : Session) : List (String × Step) → List (String × Answer) × Session
  | [] => ([], s)
  | (name, step) :: more =>
    let first := s.step name step
    let others := first.2.steps more
    ((name, first.1) :: others.1, others.2)

section Own

variable {α : Type} (name : String) (value : α) (items : List (String × α))

@[simp] theorem own_cons_self : own name ((name, value) :: items) = value :: own name items := by
  simp [own]

@[simp] theorem own_cons_of_ne {other : String} (h : other ≠ name) :
    own name ((other, value) :: items) = own name items := by
  simp [own, h]

end Own

variable (s : Session) {name other : String}

/-- A step on a calculator is its own step. -/
theorem calculator_step_self (step : Step) :
    (s.step name step).2.calculator name = ((s.calculator name).step step).2 := by
  simp [Session.step, calculator, Table.get?_put]

/-- A step on one calculator leaves the others as they are. -/
theorem calculator_step_of_ne (h : name ≠ other) (step : Step) :
    (s.step other step).2.calculator name = s.calculator name := by
  simp [Session.step, calculator, Table.get?_put, h]

/-- The answers to a calculator's own steps in a schedule, and the calculator after it. -/
theorem own_steps (name : String) (s : Session) (schedule : List (String × Step)) :
    let alone := (s.calculator name).steps (own name schedule)
    own name (s.steps schedule).1 = alone.1 ∧ (s.steps schedule).2.calculator name = alone.2 := by
  induction schedule generalizing s with
  | nil => exact ⟨rfl, rfl⟩
  | cons item more ih =>
    obtain ⟨other, step⟩ := item
    obtain ⟨answers, last⟩ := ih (s.step other step).2
    by_cases h : other = name
    · -- the calculator's own step, after which it is where its own run is
      subst h
      rw [calculator_step_self] at answers last
      simp only [steps, own_cons_self, Calculator.steps]
      exact ⟨by rw [answers]; rfl, last⟩
    · -- a step of another calculator, which answers under its own name
      rw [calculator_step_of_ne s (Ne.symm h)] at answers last
      simp only [steps, own_cons_of_ne _ _ _ h]
      exact ⟨answers, last⟩

end Reckon.Session
