/-!
# Symbols

A symbol is a name as a string table handed it out. Its identity is the table and the text: equal
texts from two tables are two symbols. Its order looks at the text alone, so two different symbols
may still be `Ordering.eq`.
-/

namespace Nominal

/-- A name handed out by the string table numbered `table`. -/
structure Symbol where
  table : Nat
  text : String
  deriving DecidableEq, Repr

namespace Symbol

/-- Within one table the text says which symbol it is. -/
theorem eq_of_text_eq {a b : Symbol} (htable : a.table = b.table) (htext : a.text = b.text) :
    a = b := by
  cases a with
  | mk table text =>
    cases htable
    cases htext
    rfl

/-- Symbols are ordered by their texts, character by character. -/
def order (a b : Symbol) : Ordering :=
  compare a.text b.text

/-- The symbols by ascending text; symbols of one text keep their order. -/
def sort (symbols : List Symbol) : List Symbol :=
  symbols.mergeSort fun a b => (a.order b).isLE

/-- The order of listings: by text, and for one text the symbol of the lower table first. -/
def listedBefore (a b : Symbol) : Bool :=
  ((a.order b).then (compare a.table b.table)).isLE

/-- How many different symbols there are among `symbols`. -/
def countDistinct (symbols : List Symbol) : Nat :=
  symbols.eraseDups.length

end Symbol
end Nominal
