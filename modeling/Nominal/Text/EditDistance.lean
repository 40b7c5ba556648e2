/-!
# Edit distance

The least number of insertions, deletions and replacements of single elements that turn one word
into another, computed one row at a time: the row of `xs` against `ys` holds the distances from
`xs` to every suffix of `ys`, the whole of `ys` first. Putting one more element in front of `xs`
turns its row into the next one.
-/

namespace Nominal

variable {α : Type} [DecidableEq α]

namespace EditDistance

omit [DecidableEq α] in
/-- The row of the empty word: every suffix has to be inserted as a whole. -/
def baseRow : List α → List Nat
  | [] => [0]
  | _ :: ys => (ys.length + 1) :: baseRow ys

/-- The row of `x :: xs` against `ys`, from the row of `xs`. The last entry deletes `x` too; every
other one is the best of deleting `x`, inserting `y`, and putting `y` in the place of `x`. -/
def nextRow (x : α) : List α → List Nat → List Nat
  | y :: ys, d :: ds =>
    let shorter := nextRow x ys ds
    min (min (d + 1) (shorter.headD 0 + 1)) (ds.headD 0 + if x = y then 0 else 1) :: shorter
  | _, row => [row.headD 0 + 1]

/-- The distances from `xs` to every suffix of `ys`. -/
def row (xs ys : List α) : List Nat :=
  xs.foldr (fun x r => nextRow x ys r) (baseRow ys)

end EditDistance

/-- How many single-element edits lead from `xs` to `ys` at the least. -/
def editDistance (xs ys : List α) : Nat :=
  (EditDistance.row xs ys).headD 0

end Nominal
