import Nominal.Names.Symbol

/-!
# String tables

A string table holds every text interned in it once, and hands out the same symbol whenever the same
text is interned or looked up again.
-/

namespace Nominal

/-- The texts interned under the number `id`, the latest first. -/
structure StringTable where
  id : Nat
  texts : List String := []
  nodup : texts.Nodup := by exact List.nodup_nil

namespace StringTable

/-- The table number `id` before anything was interned. -/
def empty (id : Nat) : StringTable := { id }

/-- The symbol this table hands out for `text`. -/
def symbol (t : StringTable) (text : String) : Symbol := ⟨t.id, text⟩

/-- Adds `text` unless it is there already. -/
def insert (t : StringTable) (text : String) : StringTable :=
  if h : text ∈ t.texts then t
  else { t with texts := text :: t.texts, nodup := List.nodup_cons.2 ⟨h, t.nodup⟩ }

/-- The symbol of `text`, and the table that holds it. -/
def intern (t : StringTable) (text : String) : Symbol × StringTable :=
  (t.symbol text, t.insert text)

/-- The symbol of `text` if it was interned before. -/
def lookup (t : StringTable) (text : String) : Option Symbol :=
  if text ∈ t.texts then some (t.symbol text) else none

/-- The number of texts interned. -/
def size (t : StringTable) : Nat := t.texts.length

/-- Whether nothing was interned yet. -/
def isEmpty (t : StringTable) : Bool := t.texts.isEmpty

/-! ## What a table holds -/

@[simp] theorem id_insert (t : StringTable) (text : String) : (t.insert text).id = t.id := by
  unfold insert
  split <;> rfl

/-- Inserting a text adds that text and no other. -/
@[simp] theorem mem_texts_insert (t : StringTable) (text other : String) :
    other ∈ (t.insert text).texts ↔ other = text ∨ other ∈ t.texts := by
  unfold insert
  split
  · rename_i h
    constructor
    · exact .inr
    · rintro (rfl | h')
      · exact h
      · exact h'
  · simp

/-- Inserting a text that is there changes nothing. -/
theorem insert_of_mem {t : StringTable} {text : String} (h : text ∈ t.texts) :
    t.insert text = t := by
  unfold insert
  exact dif_pos h

/-- A text is found exactly if it was interned. -/
theorem isSome_lookup_iff (t : StringTable) (text : String) :
    (t.lookup text).isSome ↔ text ∈ t.texts := by
  unfold lookup
  split <;> simp [*]

end StringTable
end Nominal
