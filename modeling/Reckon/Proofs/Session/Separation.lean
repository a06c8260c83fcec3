import Mathlib.Order.Nat
import Reckon.Proofs.Session.Memory

/-!
# Evaluators with tables of their own

In a sound memory all tables are different objects, and a function in a table works on the evaluator
that the table belongs to. Whatever is written to the tables of one evaluator then leaves the others
as they are, and so do new evaluators.
-/
namespace Reckon

namespace Table
variable {α β : Type}

/-- The table with all entries replaced. -/
def map (f : α → β) (t : Table α) : Table β := ⟨t.entries.map fun entry => (entry.1, f entry.2)⟩

variable (f : α → β) (t : Table α) (name : String)

theorem get?_map : (t.map f).get? name = (t.get? name).map f := by
  obtain ⟨entries⟩ := t
  simp only [get?, map]
  induction entries with
  | nil => rfl
  | cons entry entries ih =>
    obtain ⟨key, value⟩ := entry
    simp only [List.map_cons, List.lookup_cons]
    cases name == key with
    | true => rfl
    | false => exact ih

theorem map_erase : (t.erase name).map f = (t.map f).erase name := by
  simp only [map, erase, List.filter_map]
  rfl

theorem map_put (value : α) : (t.put name value).map f = (t.map f).put name (f value) := by
  have herase := congrArg Table.entries (map_erase f t name)
  simp only [put, map, List.map_cons] at herase ⊢
  rw [herase]

end Table

/-- The same meaning, with another function for a custom one. -/
def Meaning.map {φ ψ : Type} (f : φ → ψ) : Meaning φ → Meaning ψ
  | .variable value => .variable value
  | .custom function => .custom (f function)
  | .constant value => .constant value
  | .builtin function => .builtin function
  | .unknown => .unknown

theorem Bindings.meaning_map {φ ψ : Type} (f : φ → ψ) (numbers : Table Float) (functions : Table φ)
    (name : String) :
    (⟨numbers, functions.map f⟩ : Bindings ψ).meaning name =
      ((⟨numbers, functions⟩ : Bindings φ).meaning name).map f := by
  simp only [meaning, Table.get?_map]
  cases numbers.get? name with
  | some value => rfl
  | none =>
    cases functions.get? name with
    | some function => rfl
    | none =>
      simp only [Option.map_none, builtinMeaning]
      cases Builtin.constant? name with
      | some value => rfl
      | none => cases Builtin.builtin? name <;> rfl

/-- The first `count` addresses lead to different ones, all below `free`. -/
structure Apart (count : Address) (leads : Address → Address) (free : Address) : Prop where
  lt : ∀ a < count, leads a < free
  ne : ∀ a < count, ∀ b < count, a ≠ b → leads a ≠ leads b

/-- One more address leads to the first free one. -/
theorem Apart.extend {count free : Address} {leads : Address → Address}
    (h : Apart count leads free) :
    Apart (count + 1) (fun a => if a = count then free else leads a) (free + 1) := by
  have hlt {a : Address} (ha : a < count + 1) (hne : a ≠ count) : leads a < free :=
    h.lt a (lt_of_le_of_ne (Nat.lt_succ_iff.mp ha) hne)
  refine ⟨fun a ha => ?_, fun a ha b hb hne => ?_⟩
  · split
    · exact Nat.lt_succ_self free
    next hold => exact (hlt ha hold).trans (Nat.lt_succ_self free)
  · split <;> split
    next ha' hb' => exact absurd (ha'.trans hb'.symm) hne
    next hold => exact (hlt hb hold).ne'
    next hold _ => exact (hlt ha hold).ne
    next ha' hb' =>
      exact h.ne a (lt_of_le_of_ne (Nat.lt_succ_iff.mp ha) ha') b
        (lt_of_le_of_ne (Nat.lt_succ_iff.mp hb) hb') hne

namespace Memory

/-- The entries in the tables of an evaluator. -/
def bindings (m : Memory) (a : Address) : Bindings :=
  ⟨m.numbersOf a, (m.functionsOf a).map Closure.function⟩

/-- The calculator that holds what an evaluator refers to. -/
def calculator (m : Memory) (a : Address) : Calculator :=
  ⟨m.bindings a, (m.instances.cell a).precision⟩

/-- All evaluators have tables of their own, and functions that work on them alone. -/
structure Sound (m : Memory) : Prop where
  numbers : Apart m.instances.free (fun a => (m.instances.cell a).numbers) m.numbers.free
  functions : Apart m.instances.free (fun a => (m.instances.cell a).functions) m.functions.free
  owner : ∀ a < m.instances.free, ∀ name closure,
    (m.functionsOf a).get? name = some closure → closure.owner = a

/-- Nothing has been written between the two memories but the tables of one evaluator. -/
structure Only (a : Address) (m m' : Memory) : Prop where
  sound : m'.Sound
  instances : m'.instances = m.instances
  numbers : ∀ d, d ≠ (m.instances.cell a).numbers → m'.numbers.cell d = m.numbers.cell d
  functions : ∀ d, d ≠ (m.instances.cell a).functions → m'.functions.cell d = m.functions.cell d

variable {m m' m'' : Memory} {a b : Address}

theorem sound_empty : empty.Sound := by
  refine ⟨⟨?_, ?_⟩, ⟨?_, ?_⟩, ?_⟩ <;>
  · intro a ha
    exact absurd ha (Nat.not_lt_zero a)

theorem Only.refl (h : m.Sound) : m.Only a m := ⟨h, rfl, fun _ _ => rfl, fun _ _ => rfl⟩

theorem Only.trans (h : m.Only a m') (h' : m'.Only a m'') : m.Only a m'' := by
  obtain ⟨-, hinstances, hnumbers, hfunctions⟩ := h
  obtain ⟨hsound, hinstances', hnumbers', hfunctions'⟩ := h'
  rw [hinstances] at hnumbers' hfunctions'
  exact ⟨hsound, hinstances'.trans hinstances,
    fun d hd => (hnumbers' d hd).trans (hnumbers d hd),
    fun d hd => (hfunctions' d hd).trans (hfunctions d hd)⟩

/-- Another evaluator is as it was. -/
theorem Only.calculator_eq (h : m.Only a m') (hm : m.Sound) (ha : a < m.instances.free)
    (hb : b < m.instances.free) (hne : b ≠ a) : m'.calculator b = m.calculator b := by
  have hnumbers := h.numbers _ (hm.numbers.ne b hb a ha hne)
  have hfunctions := h.functions _ (hm.functions.ne b hb a ha hne)
  simp only [calculator, bindings, numbersOf, functionsOf, h.instances, hnumbers, hfunctions]

theorem only_setNumbers (hm : m.Sound) (a : Address) (t : Table Float) :
    m.Only a (m.setNumbers a t) :=
  ⟨⟨hm.numbers, hm.functions, hm.owner⟩, rfl, fun _ hd => if_neg hd, fun _ _ => rfl⟩

theorem functionsOf_setFunctions (t : Table Closure) :
    (m.setFunctions a t).functionsOf b =
      if (m.instances.cell b).functions = (m.instances.cell a).functions then t
      else m.functionsOf b := rfl

theorem only_setFunctions (hm : m.Sound) (ha : a < m.instances.free) {t : Table Closure}
    (ht : ∀ name closure, t.get? name = some closure → closure.owner = a) :
    m.Only a (m.setFunctions a t) := by
  refine ⟨⟨hm.numbers, hm.functions, ?_⟩, rfl, fun _ _ => rfl, fun _ hd => if_neg hd⟩
  intro b hb name closure hget
  rw [functionsOf_setFunctions] at hget
  by_cases hne : b = a
  · subst hne
    rw [if_pos rfl] at hget
    exact ht name closure hget
  · rw [if_neg (hm.functions.ne b hb a ha hne)] at hget
    exact hm.owner b hb name closure hget

theorem bindings_setNumbers (t : Table Float) :
    (m.setNumbers a t).bindings a = { m.bindings a with numbers := t } := by
  simp [bindings, numbersOf, functionsOf, setNumbers, Region.write]

theorem bindings_setFunctions (t : Table Closure) :
    (m.setFunctions a t).bindings a = { m.bindings a with functions := t.map Closure.function } := by
  simp [bindings, numbersOf, functionsOf, setFunctions, Region.write]

theorem only_edit (hm : m.Sound) (ha : a < m.instances.free) (change : Edit) :
    m.Only a (m.edit a change) := by
  cases change with
  | setVariable name value => exact only_setNumbers hm a _
  | removeVariable name => exact only_setNumbers hm a _
  | removeFunction name =>
    refine only_setFunctions hm ha fun other closure hget => ?_
    rw [Table.get?_erase] at hget
    split at hget
    · cases hget
    · exact hm.owner a ha other closure hget

theorem bindings_edit (change : Edit) :
    (m.edit a change).bindings a = (m.bindings a).apply change := by
  cases change with
  | setVariable name value => exact bindings_setNumbers _
  | removeVariable name => exact bindings_setNumbers _
  | removeFunction name =>
    rw [edit, bindings_setFunctions, Table.map_erase]
    rfl

theorem only_define (hm : m.Sound) (ha : a < m.instances.free) (name : String)
    (function : CustomFunction) : m.Only a (m.define a name ⟨a, function⟩) := by
  refine only_setFunctions hm ha fun other closure hget => ?_
  rw [Table.get?_put] at hget
  split at hget
  · rw [← Option.some.inj hget]
  · exact hm.owner a ha other closure hget

theorem bindings_define (name : String) (closure : Closure) :
    (m.define a name closure).bindings a = (m.bindings a).setFunction name closure.function := by
  rw [define, bindings_setFunctions, Table.map_put]
  rfl

/-- All evaluators but one are as they were. -/
structure Alters (a : Address) (m m' : Memory) : Prop where
  sound : m'.Sound
  free : m'.instances.free = m.instances.free
  others : ∀ b < m.instances.free, b ≠ a → m'.calculator b = m.calculator b

theorem Alters.refl (h : m.Sound) : m.Alters a m := ⟨h, rfl, fun _ _ _ => rfl⟩

theorem Alters.trans (h : m.Alters a m') (h' : m'.Alters a m'') : m.Alters a m'' :=
  ⟨h'.sound, h'.free.trans h.free, fun b hb hne =>
    (h'.others b (by rw [h.free]; exact hb) hne).trans (h.others b hb hne)⟩

theorem Only.alters (h : m.Only a m') (hm : m.Sound) (ha : a < m.instances.free) : m.Alters a m' :=
  ⟨h.sound, by rw [h.instances], fun _ hb => h.calculator_eq hm ha hb⟩

theorem Only.calculator_self (h : m.Only a m') :
    m'.calculator a = { m.calculator a with bindings := m'.bindings a } := by
  simp only [calculator, h.instances]

theorem alters_setPrecision (hm : m.Sound) (a : Address) (precision : Precision) :
    m.Alters a (m.setPrecision a precision) := by
  have hnumbers : (fun b => ((m.setPrecision a precision).instances.cell b).numbers) =
      fun b => (m.instances.cell b).numbers := by
    funext b
    by_cases hb : b = a <;> simp [setPrecision, Region.write, hb]
  have hfunctions : (fun b => ((m.setPrecision a precision).instances.cell b).functions) =
      fun b => (m.instances.cell b).functions := by
    funext b
    by_cases hb : b = a <;> simp [setPrecision, Region.write, hb]
  refine ⟨⟨hnumbers ▸ hm.numbers, hfunctions ▸ hm.functions, fun b hb name closure hget => ?_⟩, rfl,
    fun b _ hne => ?_⟩
  · have hsame : (m.setPrecision a precision).functionsOf b = m.functionsOf b :=
      congrArg m.functions.cell (congrFun hfunctions b)
    exact hm.owner b hb name closure (hsame ▸ hget)
  · simp [calculator, bindings, numbersOf, functionsOf, setPrecision, Region.write, hne]

theorem calculator_setPrecision (precision : Precision) :
    (m.setPrecision a precision).calculator a = { m.calculator a with precision } := by
  simp [calculator, bindings, numbersOf, functionsOf, setPrecision, Region.write]

/-- The new evaluator is given tables that no other one has. -/
theorem sound_create (hm : m.Sound) (precision : Precision) : (m.create precision).Sound := by
  have hcell (b : Address) : (m.create precision).instances.cell b =
      if b = m.instances.free then ⟨m.numbers.free, m.functions.free, precision⟩
      else m.instances.cell b := rfl
  have hnumbers : (fun b => ((m.create precision).instances.cell b).numbers) =
      fun b => if b = m.instances.free then m.numbers.free else (m.instances.cell b).numbers := by
    funext b
    rw [hcell]
    split <;> rfl
  have hfunctions : (fun b => ((m.create precision).instances.cell b).functions) =
      fun b => if b = m.instances.free then m.functions.free
        else (m.instances.cell b).functions := by
    funext b
    rw [hcell]
    split <;> rfl
  refine ⟨hnumbers ▸ hm.numbers.extend, hfunctions ▸ hm.functions.extend,
    fun b hb name closure hget => ?_⟩
  have hof : (m.create precision).functionsOf b =
      if ((m.create precision).instances.cell b).functions = m.functions.free then .empty
      else m.functions.cell ((m.create precision).instances.cell b).functions := rfl
  by_cases hnew : b = m.instances.free
  · rw [hof, hcell, if_pos hnew, if_pos rfl] at hget
    cases hget
  · have hlt : b < m.instances.free := lt_of_le_of_ne (Nat.lt_succ_iff.mp hb) hnew
    rw [hof, hcell, if_neg hnew, if_neg (hm.functions.lt b hlt).ne] at hget
    exact hm.owner b hlt name closure hget

theorem calculator_create (precision : Precision) :
    (m.create precision).calculator m.instances.free = .new precision := by
  simp [calculator, bindings, numbersOf, functionsOf, create, Region.alloc, Region.write]
  rfl

theorem calculator_create_of_lt (hm : m.Sound) (hb : b < m.instances.free) (precision : Precision) :
    (m.create precision).calculator b = m.calculator b := by
  have hnumbers := (hm.numbers.lt b hb).ne
  have hfunctions := (hm.functions.lt b hb).ne
  simp [calculator, bindings, numbersOf, functionsOf, create, Region.alloc, Region.write, hb.ne,
    hnumbers, hfunctions]

/-- The evaluator `object` is at the address, in a memory where all have tables of their own. -/
structure Holds (m : Memory) (a : Address) (object : Instance) : Prop where
  sound : m.Sound
  lt : a < m.instances.free
  cell : m.instances.cell a = object

theorem Only.holds {object : Instance} (h : m.Only a m') (hm : m.Holds a object) :
    m'.Holds a object :=
  ⟨h.sound, by rw [h.instances]; exact hm.lt, by rw [h.instances]; exact hm.cell⟩

end Memory

end Reckon
