/-!
# Tables of names

A table holds at most one entry for each name. `get?` is the only view of it that matters: each
operation is described by what it does to `get?`.
-/
namespace Reckon

/-- Entries by name. -/
structure Table (α : Type) where
  entries : List (String × α)
  deriving Repr

namespace Table

variable {α : Type}

def empty : Table α := ⟨[]⟩

def names (t : Table α) : List String :=
  t.entries.map Prod.fst

/-- The entry of a name. -/
def get? (t : Table α) (name : String) : Option α :=
  t.entries.lookup name

/-- The table without an entry for `name`. -/
def erase (t : Table α) (name : String) : Table α :=
  ⟨t.entries.filter fun entry => entry.1 != name⟩

/-- The table with `value` as the entry of `name`. -/
def put (t : Table α) (name : String) (value : α) : Table α :=
  ⟨(name, value) :: (t.erase name).entries⟩

/-- The entries in the order of their names. -/
def sorted (t : Table α) : List (String × α) :=
  t.entries.mergeSort fun a b => decide (a.1 ≤ b.1)

@[simp] theorem get?_empty (name : String) : (empty : Table α).get? name = none := rfl

theorem get?_erase (t : Table α) (name other : String) :
    (t.erase name).get? other = if other = name then none else t.get? other := by
  obtain ⟨entries⟩ := t
  simp only [get?, erase]
  induction entries with
  | nil => simp
  | cons entry entries ih =>
    obtain ⟨key, value⟩ := entry
    by_cases hk : key = name
    · subst hk
      by_cases ho : other = key
      · subst ho
        simpa using ih
      · have hb : (other == key) = false := beq_eq_false_iff_ne.mpr ho
        simpa [List.lookup_cons, ho, hb] using ih
    · by_cases ho : other = key
      · subst ho
        simp [hk]
      · have hb : (other == key) = false := beq_eq_false_iff_ne.mpr ho
        simpa [List.lookup_cons, hk, hb] using ih

theorem get?_put (t : Table α) (name other : String) (value : α) :
    (t.put name value).get? other = if other = name then some value else t.get? other := by
  by_cases h : other = name
  · subst h
    simp [put, get?]
  · have he := get?_erase t name other
    have hb : (other == name) = false := beq_eq_false_iff_ne.mpr h
    simpa [put, get?, List.lookup_cons, h, hb] using he

/-- At most one entry for each name. -/
def Distinct (t : Table α) : Prop := t.names.Nodup

theorem Distinct.erase {t : Table α} (h : t.Distinct) (name : String) :
    (t.erase name).Distinct := by
  simp only [Distinct, names, Table.erase] at h ⊢
  exact h.sublist (List.filter_sublist.map _)

theorem Distinct.put {t : Table α} (h : t.Distinct) (name : String) (value : α) :
    (t.put name value).Distinct := by
  have he := h.erase name
  simp only [Distinct, names, Table.put] at he ⊢
  refine List.nodup_cons.mpr ⟨?_, he⟩
  simp [Table.erase]

end Table

end Reckon
