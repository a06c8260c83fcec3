import Reckon.Proofs.Expression.Binding
import Reckon.Proofs.Grammar.Response
import Reckon.Proofs.Number.Places

/-!
# What leaves an evaluation besides faults

A breakdown in a callback is a fault of its call, so it never leaves an evaluation as a breakdown.
What does is the estimate in one of the counting functions, and the rounding of the result.
-/
namespace Reckon

namespace Builtin

/-- The names of the functions that estimate the size of a count. -/
def countingNames : List String := ["ncr", "binom", "npr"]

variable {b : Breakdown} {arguments : List Float}

theorem logFactorial_breakdown {e : Estimates} {n : Nat} (h : e.logFactorial n = .error b) :
    b = .estimateTooLarge := by
  simp only [Estimates.logFactorial] at h
  split at h
  · cases h
  · exact (Except.error.inj h).symm

theorem bind_eq_error {α β : Type} {x : Except Breakdown α} {f : α → Except Breakdown β}
    (h : (x >>= f) = .error b) : x = .error b ∨ ∃ a, f a = .error b := by
  cases x with
  | error breakdown =>
    have hsame : (Except.error breakdown : Except Breakdown β) = .error b := h
    cases hsame
    exact .inl rfl
  | ok a => exact .inr ⟨a, h⟩

theorem subsetsExceed_breakdown {e : Estimates} {n k : Nat} (h : e.subsetsExceed n k = .error b) :
    b = .estimateTooLarge := by
  obtain hall | ⟨all, h⟩ := bind_eq_error h
  · exact logFactorial_breakdown hall
  obtain hleft | ⟨left, h⟩ := bind_eq_error h
  · exact logFactorial_breakdown hleft
  obtain hchosen | ⟨chosen, h⟩ := bind_eq_error h
  · exact logFactorial_breakdown hchosen
  · cases h

theorem arrangementsExceed_breakdown {e : Estimates} {n k : Nat}
    (h : e.arrangementsExceed n k = .error b) : b = .estimateTooLarge := by
  obtain hall | ⟨all, h⟩ := bind_eq_error h
  · exact logFactorial_breakdown hall
  obtain hleft | ⟨left, h⟩ := bind_eq_error h
  · exact logFactorial_breakdown hleft
  · cases h

theorem counted_breakdown {exceeds : Nat → Nat → Except Breakdown Bool} {count : Nat → Nat → Nat}
    {n k : Nat} (h : counted exceeds count n k = .error b) : exceeds n k = .error b := by
  rw [counted] at h
  split at h
  · cases h
  · obtain hexceeds | ⟨answer, h⟩ := bind_eq_error h
    · exact hexceeds
    · cases answer <;> cases h

theorem onTruncated_breakdown {count : Nat → Nat → Except Breakdown Float} {x y : Float}
    (h : onTruncated count x y = .error b) : ∃ n k, count n k = .error b := by
  simp only [onTruncated] at h
  split at h
  · split at h
    · cases h
    · exact ⟨_, _, h⟩
  · cases h

/-- A function with a value for all arguments that its arity allows for. -/
def Sturdy (function : Builtin) : Prop :=
  ∀ arguments : List Float, admits (function.arity.map Int.ofNat) arguments.length = true →
    ∃ x, function.apply arguments = .ok x

theorem unary_sturdy (f : Float → Float) : Sturdy (unary f) := by
  intro arguments h
  cases arguments with
  | nil => simp [unary, admits] at h
  | cons x more => exact ⟨f x, rfl⟩

/-- Two arguments reach a binary function. -/
theorem binary_apply {f : Float → Float → Except Breakdown Float}
    (h : admits ((binary f).arity.map Int.ofNat) arguments.length = true) :
    ∃ x y, (binary f).apply arguments = f x y := by
  match arguments with
  | [] => simp [binary, admits] at h
  | [_] => simp [binary, admits] at h
  | x :: y :: _ => exact ⟨x, y, rfl⟩

theorem binary_sturdy (f : Float → Float → Float) : Sturdy (binary fun x y => .ok (f x y)) := by
  intro arguments h
  obtain ⟨x, y, happly⟩ := binary_apply h
  exact ⟨f x y, happly⟩

theorem variadic_sturdy (f : List Float → Float) : Sturdy (variadic fun xs => .ok (f xs)) :=
  fun arguments _ => ⟨f arguments, rfl⟩

theorem extremum_sturdy (operation : String) (precedes : Float → Float → Bool) :
    Sturdy (extremum operation precedes) := by
  intro arguments h
  cases arguments with
  | nil => simp [extremum, variadic, admits] at h
  | cons x more => exact ⟨_, rfl⟩

/-- A function that breaks down in its estimate alone. -/
def Estimating (function : Builtin) : Prop :=
  ∀ (arguments : List Float) (b : Breakdown),
    admits (function.arity.map Int.ofNat) arguments.length = true →
    function.apply arguments = .error b → b = .estimateTooLarge

theorem binomial_estimating (e : Estimates) : Estimating (binary (binomial e)) := by
  intro arguments b h hb
  obtain ⟨x, y, happly⟩ := binary_apply h
  obtain ⟨n, k, hcount⟩ := onTruncated_breakdown (happly.symm.trans hb)
  exact subsetsExceed_breakdown (counted_breakdown hcount)

theorem permutations_estimating (e : Estimates) : Estimating (binary (permutations e)) := by
  intro arguments b h hb
  obtain ⟨x, y, happly⟩ := binary_apply h
  obtain ⟨n, k, hcount⟩ := onTruncated_breakdown (happly.symm.trans hb)
  exact arrangementsExceed_breakdown (counted_breakdown hcount)

/-- All but the counting functions are sturdy. -/
theorem sturdy_or_estimating :
    ∀ entry ∈ catalogue, Sturdy entry.builtin ∨
      (Estimating entry.builtin ∧ ∀ name ∈ entry.names, name ∈ countingNames) := by
  simp only [catalogue, List.forall_mem_cons]
  and_intros
  all_goals first
    | exact .inl (unary_sturdy _)
    | exact .inl (binary_sturdy _)
    | exact .inl (variadic_sturdy _)
    | exact .inl (extremum_sturdy _ _)
    | exact .inr ⟨binomial_estimating .double, by decide⟩
    | exact .inr ⟨permutations_estimating .double, by decide⟩
    | exact List.forall_mem_nil _

/-- A builtin function breaks down only if it counts, and then in its estimate. -/
theorem breakdown_of_builtin? {name : String} {function : Builtin}
    (h : builtin? name = some function)
    (ha : admits (function.arity.map Int.ofNat) arguments.length = true)
    (hb : function.apply arguments = .error b) : b = .estimateTooLarge ∧ name ∈ countingNames := by
  obtain ⟨entry, hentry, rfl⟩ := Option.map_eq_some_iff.mp h
  have hname : name ∈ entry.names := by simpa using List.find?_some hentry
  have hmem := List.mem_of_find?_eq_some hentry
  rcases sturdy_or_estimating entry hmem with hsturdy | ⟨hestimate, hnames⟩
  · obtain ⟨x, hx⟩ := hsturdy arguments ha
    cases hx.symm.trans hb
  · exact ⟨hestimate arguments b ha hb, hnames name hname⟩

end Builtin

namespace Expression
open Grammar Builtin

variable {evaluate : Evaluator} {e : Environment} {b : Breakdown}

/-- A call of a callback that fails is a fault, whatever it fails with. -/
theorem mapError_inCall_ne (name : String) (result : Except Failure Float) :
    result.mapError (Failure.inCall name) ≠ .error (.breakdown b) := by
  rcases result with ⟨fault | breakdown⟩ | x <;> simp [Except.mapError, Failure.inCall]

/-- A call breaks down in a builtin function alone. -/
theorem breakdown_of_run {callee : Callee} {name : String} {arguments : List Float}
    (h : (callee.run evaluate name arguments e).1 = .error (.breakdown b)) :
    ∃ function, callee = .builtin function ∧ function.apply arguments = .error b := by
  cases callee with
  | custom function => exact absurd h (mapError_inCall_ne name _)
  | builtin function =>
    refine ⟨function, rfl, ?_⟩
    simp only [Callee.run] at h
    rcases happly : function.apply arguments with breakdown | x
    · simp only [happly, Except.mapError] at h
      cases h
      rfl
    · simp only [happly, Except.mapError] at h
      cases h

theorem InOrder.nameAt {text : List Char} {before later : List Event} {name : String} {start : Nat}
    {first last : Nat} (h : InOrder text first last (before ++ .scanned name start :: later)) :
    NameAt text start name := by
  induction before generalizing first with
  | nil =>
    cases h with
    | scanned _ hn _ => exact hn
  | cons event before ih =>
    cases h with
    | scanned _ _ hs => exact ih hs
    | looked hs => exact ih hs
    | called _ hs => exact ih hs

/-- A counting function that the text names, on arguments that its estimate breaks down for. -/
def EstimateBreaks (text : List Char) : Prop :=
  ∃ (name : String) (start : Nat) (function : Builtin) (arguments : List Float),
    NameAt text start name ∧ name ∈ countingNames ∧ builtin? name = some function ∧
      admits (function.arity.map Int.ofNat) arguments.length = true ∧
      function.apply arguments = .error .estimateTooLarge

theorem evaluateText_breakdown {expression : String} (h : expression ≠ "")
    (hb : (evaluateText evaluate expression.toList e).1 = .error (.breakdown b)) :
    b = .estimateTooLarge ∧ EstimateBreaks expression.toList := by
  rw [evaluateText_planOf h, Plan.outcome] at hb
  rcases hending : ((planOf expression).perform evaluate e).1 with (reason | failure) | x
  · obtain ⟨rejection, rfl⟩ := planOf_stopped h hending
    rw [hending] at hb
    cases hb
  · rw [hending] at hb
    obtain rfl : failure = .breakdown b := Except.error.inj hb
    obtain ⟨before, name, callee, arguments, place, between, hevents, hcall⟩ :=
      (planOf_broken h hending).exists_call
    obtain ⟨function, rfl, happly⟩ := breakdown_of_run hcall
    obtain ⟨last, hcourse, -⟩ := planOf_course h evaluate e
    rw [hevents] at hcourse
    -- the function was looked up right behind its name, and found in front of its arguments
    obtain ⟨htakes, start, ⟨earlier, inner, meaning, rfl, hm, -⟩, -⟩ :=
      hcourse.answered before [] name _ arguments place rfl
    obtain rfl := Meaning.eq_builtin_of_callee? hm
    rw [List.append_assoc, List.cons_append] at hcourse
    obtain ⟨first, rfl⟩ := hcourse.prompt.timely.2 _ _ _ _ _ rfl
    have horder := hcourse.inOrder
    have hlooked := hcourse.prompt.timely.1
    rw [List.append_assoc, List.singleton_append] at horder hlooked
    obtain ⟨rest, hrest⟩ := hlooked _ _ _ _ rfl
    obtain ⟨hsame, -⟩ := List.cons.inj hrest
    have hmeaning := (Event.looked.inj hsame).2.2
    rw [resolved_eq_meaning] at hmeaning
    have hfound := Bindings.builtin?_of_meaning hmeaning.symm
    have hadmits := (Callee.takes_eq_admits ..).symm.trans htakes
    obtain ⟨rfl, hname⟩ := breakdown_of_builtin? hfound hadmits happly
    exact ⟨rfl, name, start, function, arguments, horder.nameAt, hname, hfound, hadmits, happly⟩
  · rw [hending] at hb
    cases hb

end Expression

open Expression Number

variable {inner : Evaluator} {precision : Precision} {expression : String} {e : Environment}
  {b : Breakdown}

/-- Faults aside, an evaluation fails only where the estimate of a counting function is past the
doubles, or where a result is rounded in front of the point past the largest double, or with places
that are no integer. -/
theorem evaluateWith_breakdown
    (h : (evaluateWith inner precision expression e).1 = .error (.breakdown b)) :
    (b = .estimateTooLarge ∧ EstimateBreaks expression.toList) ∨
      (b = .roundedTooLarge ∧ ∃ places x, places < 0 ∧ precision = .places places ∧
        (evaluateText inner expression.toList e).1 = .ok x ∧ roundTo? places x = none) ∨
      ∃ kind, b = .placesNotInteger kind ∧ precision = .unusable kind := by
  rw [evaluateWith] at h
  split at h
  · cases h
  · next hempty =>
    rcases hvalue : (evaluateText inner expression.toList e).1 with failure | x
    · simp only [hvalue, Except.bind] at h
      obtain rfl := Except.error.inj h
      exact .inl (evaluateText_breakdown (by simpa using hempty) hvalue)
    · simp only [hvalue, Except.bind] at h
      right
      cases precision with
      | exact => cases h
      | unusable kind =>
        cases h
        exact .inr ⟨kind, rfl, rfl⟩
      | places count =>
        simp only [Precision.round] at h
        cases hround : roundTo? count x with
        | some rounded =>
          rw [hround] at h
          cases h
        | none =>
          rw [hround] at h
          cases h
          refine .inl ⟨rfl, count, x, ?_, rfl, rfl, hround⟩
          by_contra hneg
          have hsome := roundTo?_isSome (Int.not_lt.mp hneg) x
          simp [hround] at hsome

/-- The largest double, rounded to 308 places in front of the point. -/
theorem evaluateWith_breakdown_largest :
    ∃ x, (evaluateText (nested (.places (-308))) "1.7976931348623157e308".toList
        ⟨.empty, []⟩).1 = .ok x ∧
      roundTo? (-308) x = none := by
  have hfails : (evaluateWith (nested (.places (-308))) (.places (-308)) "1.7976931348623157e308"
      ⟨.empty, []⟩).1 = .error (.breakdown .roundedTooLarge) := by
    decide +kernel
  obtain ⟨hestimate, -⟩ | ⟨-, places, x, -, hplaces, hx, hround⟩ | ⟨kind, -, hunusable⟩ :=
    evaluateWith_breakdown hfails
  · cases hestimate
  · cases hplaces
    exact ⟨x, hx, hround⟩
  · cases hunusable

/-- A failure that leaves a calculator need not be a fault of the expression. -/
theorem not_fault_of_evaluate :
    ¬∀ (bindings : Bindings) (places : Int) (expression : String) (failure : Failure),
      (⟨bindings, .places places⟩ : Calculator).evaluate expression = .error failure →
      ∃ fault, failure = .fault fault := by
  intro h
  have hfails : (⟨.empty, .places (-308)⟩ : Calculator).evaluate "1.7976931348623157e308" =
      .error (.breakdown .roundedTooLarge) := by
    decide +kernel
  obtain ⟨fault, hfault⟩ := h _ _ _ _ hfails
  cases hfault

end Reckon
