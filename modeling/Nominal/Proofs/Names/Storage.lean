import Mathlib.Data.List.Basic
import Nominal.Names.StringTable

/-!
# How a string table is stored

In memory a string table is a pool of slices, texts at the addresses where they were when they were
interned first. It hands out the slice that it holds, whatever slice of that text it is asked for,
so slices that it handed out are compared by their addresses, and no text is read for that. A table
of texts stands for a pool (`Pool.Stores`), and goes on doing so when both intern the same text.
-/

namespace Nominal

/-- A text where it stands in memory. -/
structure Slice where
  address : Nat
  text : String
  deriving DecidableEq, Repr

namespace Slice

/-- The first slice of that text. -/
def first? (slices : List Slice) (text : String) : Option Slice :=
  slices.find? (·.text = text)

variable {slices : List Slice} {slice : Slice} {text : String}

theorem mem_of_first? (h : first? slices text = some slice) :
    slice ∈ slices ∧ slice.text = text :=
  ⟨List.mem_of_find?_eq_some h, by simpa using List.find?_some h⟩

theorem isSome_first?_iff (slices : List Slice) (text : String) :
    (first? slices text).isSome ↔ text ∈ slices.map (·.text) := by
  simp [first?]

theorem first?_append (slices slices' : List Slice) (text : String) :
    first? (slices ++ slices') text = (first? slices text).or (first? slices' text) :=
  List.find?_append

end Slice

/-- The slices that were interned first for their texts, the latest first. -/
structure Pool where
  entries : List Slice := []

namespace Pool

/-- The slice of that text that the pool holds. -/
def lookup (pool : Pool) (text : String) : Option Slice :=
  Slice.first? pool.entries text

/-- The slice that the pool holds for the text of `value`, which is `value` itself if there was
none, and the pool afterwards. -/
def intern (pool : Pool) (value : Slice) : Slice × Pool :=
  match pool.lookup value.text with
  | some entry => (entry, pool)
  | none => (value, { entries := value :: pool.entries })

/-- The number of slices held. -/
def size (pool : Pool) : Nat := pool.entries.length

/-- A text that was interned is found. -/
theorem lookup_intern_self (pool : Pool) (value : Slice) :
    (pool.intern value).2.lookup value.text = some (pool.intern value).1 := by
  unfold intern
  cases h : pool.lookup value.text with
  | some entry => exact h
  | none => simp [lookup, Slice.first?]

/-- What was found before is found as before, and besides that the slice that is interned. -/
theorem lookup_intern (pool : Pool) (value : Slice) (text : String) :
    (pool.intern value).2.lookup text = (pool.lookup text).or (Slice.first? [value] text) := by
  by_cases htext : value.text = text
  · -- The slice is added only if its text was not found, so it takes the place of no other.
    subst htext
    rw [lookup_intern_self]
    unfold intern
    cases pool.lookup value.text with
    | some entry => rfl
    | none => simp [Slice.first?]
  · have hnone : Slice.first? [value] text = none := by simp [Slice.first?, htext]
    rw [hnone, Option.or_none]
    unfold intern
    cases pool.lookup value.text with
    | some entry => rfl
    | none => simp [lookup, Slice.first?, htext]

/-! ## Tables of texts -/

/-- `pool.Stores table`: the table holds the texts of the slices in the pool. -/
def Stores (pool : Pool) (table : StringTable) : Prop :=
  pool.entries.map (·.text) = table.texts

variable {pool : Pool} {table : StringTable}

theorem Stores.isSome_lookup (h : pool.Stores table) (text : String) :
    (pool.lookup text).isSome ↔ text ∈ table.texts := by
  rw [lookup, Slice.isSome_first?_iff, h]

theorem Stores.size_eq (h : pool.Stores table) : pool.size = table.size := by
  rw [size, StringTable.size, ← h, List.length_map]

theorem Stores.insert (h : pool.Stores table) (value : Slice) :
    (pool.intern value).2.Stores (table.insert value.text) := by
  have hmem := h.isSome_lookup value.text
  unfold intern
  cases hlookup : pool.lookup value.text with
  | some entry =>
      rw [StringTable.insert_of_mem (hmem.1 (by rw [hlookup]; rfl))]
      exact h
  | none =>
      have hnew : value.text ∉ table.texts := by
        rw [← hmem, hlookup]
        simp
      simp only [Stores, StringTable.insert, dif_neg hnew, List.map_cons]
      exact congrArg (value.text :: ·) h

end Pool
end Nominal
