import Mathlib.Order.Bounds.Defs
import Nominal.Text.EditDistance

/-!
# Edit distances are least numbers of edits

An edit script changes a word by single elements until it has become another one (`EditStep`,
`EditScript`). The row-by-row computation never looks at scripts, so the two are tied together in
both directions:

* `editScript_editDistance` — the distance is the length of some script, which the choices of the
  minimum in each row spell out;
* `EditScript.editDistance_le` — no script is shorter, since one edit changes the distance to any
  word by one at the most (`EditStep.editDistance_le`).

Main statement: `isLeast_editDistance`. That the distance is symmetric, zero only between equal
words and subject to the triangle inequality then follows from turning scripts round, from the
script without edits and from running one script after another.
-/

namespace Nominal

/-! ## Edits and scripts -/

section Scripts

variable {α : Type} {u v w : List α} {m n : Nat}

/-- `EditStep u v`: a single insertion, deletion or replacement turns `u` into `v`. -/
inductive EditStep : List α → List α → Prop where
  | insert (front back : List α) (x : α) : EditStep (front ++ back) (front ++ x :: back)
  | delete (front back : List α) (x : α) : EditStep (front ++ x :: back) (front ++ back)
  | replace (front back : List α) (x y : α) : EditStep (front ++ x :: back) (front ++ y :: back)

/-- `EditScript n u v`: `n` edits, one after another, turn `u` into `v`. -/
inductive EditScript : Nat → List α → List α → Prop where
  | done (u : List α) : EditScript 0 u u
  | step {n : Nat} {u v w : List α} : EditStep u v → EditScript n v w → EditScript (n + 1) u w

/-- What was inserted can be deleted again, and the other way round. -/
theorem EditStep.symm (h : EditStep u v) : EditStep v u := by
  cases h with
  | insert front back x => exact .delete front back x
  | delete front back x => exact .insert front back x
  | replace front back x y => exact .replace front back y x

/-- An edit does not care about what stands in front. -/
theorem EditStep.cons (x : α) (h : EditStep u v) : EditStep (x :: u) (x :: v) := by
  cases h with
  | insert front back y => exact .insert (x :: front) back y
  | delete front back y => exact .delete (x :: front) back y
  | replace front back y z => exact .replace (x :: front) back y z

theorem editScript_zero_iff : EditScript 0 u v ↔ u = v := by
  constructor
  · intro h
    cases h with
    | done => rfl
  · rintro rfl
    exact .done u

theorem EditScript.trans (h : EditScript m u v) (h' : EditScript n v w) :
    EditScript (m + n) u w := by
  induction h with
  | done u => rwa [Nat.zero_add]
  | step hstep _ ih =>
      rw [Nat.succ_add]
      exact .step hstep (ih h')

theorem EditScript.symm (h : EditScript n u v) : EditScript n v u := by
  induction h with
  | done u => exact .done u
  | step hstep _ ih => exact ih.trans (.step hstep.symm (.done _))

theorem EditScript.cons (x : α) (h : EditScript n u v) : EditScript n (x :: u) (x :: v) := by
  induction h with
  | done u => exact .done (x :: u)
  | step hstep _ ih => exact .step (hstep.cons x) ih

/-- Of two scripts the shorter one can be taken. -/
theorem EditScript.min (h : EditScript m u v) (h' : EditScript n u v) :
    EditScript (min m n) u v := by
  rcases Nat.le_total m n with hle | hle
  · rwa [Nat.min_eq_left hle]
  · rwa [Nat.min_eq_right hle]

/-- A word is emptied by deleting its elements one by one. -/
theorem editScript_nil_right (u : List α) : EditScript u.length u [] := by
  induction u with
  | nil => exact .done []
  | cons x u ih => exact .step (.delete [] u x) ih

end Scripts

variable {α : Type} [DecidableEq α]

/-! ## Rows

Every row consists of distances, those to all suffixes of the second word. From this come the
equations of the distance, which are those of the recursion over both words. -/

namespace EditDistance

theorem row_cons_right (xs : List α) (y : α) (ys : List α) :
    row xs (y :: ys) = editDistance xs (y :: ys) :: row xs ys := by
  induction xs with
  | nil => rfl
  | cons x xs ih =>
      have hnext : row (x :: xs) (y :: ys) = nextRow x (y :: ys) (row xs (y :: ys)) := rfl
      rw [editDistance, hnext, ih]
      rfl

end EditDistance

open EditDistance

theorem editDistance_nil_left (ys : List α) : editDistance [] ys = ys.length := by
  cases ys with
  | nil => rfl
  | cons y ys => rfl

theorem editDistance_nil_right (xs : List α) : editDistance xs [] = xs.length := by
  induction xs with
  | nil => rfl
  | cons x xs ih => exact congrArg (· + 1) ih

theorem editDistance_cons_cons (x y : α) (xs ys : List α) :
    editDistance (x :: xs) (y :: ys) =
      min (min (editDistance xs (y :: ys) + 1) (editDistance (x :: xs) ys + 1))
        (editDistance xs ys + if x = y then 0 else 1) := by
  have hnext : row (x :: xs) (y :: ys) = nextRow x (y :: ys) (row xs (y :: ys)) := rfl
  rw [editDistance, hnext, row_cons_right]
  rfl

theorem editDistance_self (xs : List α) : editDistance xs xs = 0 := by
  induction xs with
  | nil => rfl
  | cons x xs ih => simp [editDistance_cons_cons, ih]

/-! ## No script is shorter -/

theorem editDistance_cons_left_le (x : α) (xs ys : List α) :
    editDistance (x :: xs) ys ≤ editDistance xs ys + 1 := by
  cases ys with
  | nil => simp [editDistance_nil_right]
  | cons y ys =>
      rw [editDistance_cons_cons]
      omega

theorem editDistance_cons_right_le (xs : List α) (y : α) (ys : List α) :
    editDistance xs (y :: ys) ≤ editDistance xs ys + 1 := by
  cases xs with
  | nil => simp [editDistance_nil_left]
  | cons x xs =>
      rw [editDistance_cons_cons]
      omega

theorem editDistance_le_cons_left (x : α) (xs ys : List α) :
    editDistance xs ys ≤ editDistance (x :: xs) ys + 1 := by
  induction ys with
  | nil =>
      simp only [editDistance_nil_right, List.length_cons]
      omega
  | cons y ys ih =>
      have hright := editDistance_cons_right_le xs y ys
      rw [editDistance_cons_cons]
      omega

theorem editDistance_replace_left_le (x x' : α) (xs ys : List α) :
    editDistance (x :: xs) ys ≤ editDistance (x' :: xs) ys + 1 := by
  induction ys with
  | nil => simp [editDistance_nil_right]
  | cons y ys ih =>
      rw [editDistance_cons_cons, editDistance_cons_cons]
      split <;> split <;> omega

/-- If two words are at most one apart as seen from every word, they stay so with the same element
in front of both. -/
theorem editDistance_cons_le_cons {u v : List α}
    (h : ∀ ys, editDistance u ys ≤ editDistance v ys + 1) (x : α) (ys : List α) :
    editDistance (x :: u) ys ≤ editDistance (x :: v) ys + 1 := by
  induction ys with
  | nil => simpa [editDistance_nil_right] using h []
  | cons y ys ih =>
      -- Each of the three numbers grows by one at the most: by `h`, by induction, and by `h` again.
      have hdeleted := h (y :: ys)
      have hreplaced := h ys
      rw [editDistance_cons_cons, editDistance_cons_cons]
      omega

/-- The same behind any beginning. -/
theorem editDistance_append_le_append {u v : List α}
    (h : ∀ ys, editDistance u ys ≤ editDistance v ys + 1) (front ys : List α) :
    editDistance (front ++ u) ys ≤ editDistance (front ++ v) ys + 1 := by
  induction front generalizing ys with
  | nil => exact h ys
  | cons x front ih => exact editDistance_cons_le_cons ih x ys

/-- One edit brings a word nearer to another one by one at the most. -/
theorem EditStep.editDistance_le {u v : List α} (h : EditStep u v) (ys : List α) :
    editDistance u ys ≤ editDistance v ys + 1 := by
  cases h with
  | insert front back x =>
      exact editDistance_append_le_append (editDistance_le_cons_left x back) front ys
  | delete front back x =>
      exact editDistance_append_le_append (editDistance_cons_left_le x back) front ys
  | replace front back x y =>
      exact editDistance_append_le_append (editDistance_replace_left_le x y back) front ys

theorem EditScript.editDistance_le {n : Nat} {u v : List α} (h : EditScript n u v) :
    editDistance u v ≤ n := by
  induction h with
  | done u => exact Nat.le_of_eq (editDistance_self u)
  | @step n u v w hstep _ ih =>
      calc editDistance u w ≤ editDistance v w + 1 := hstep.editDistance_le w
        _ ≤ n + 1 := Nat.succ_le_succ ih

/-! ## Some script is as short -/

/-- The three numbers whose minimum is taken are the lengths of three scripts: one deletes `x`
first, one inserts `y`, and one puts `y` in the place of `x`. -/
theorem editScript_editDistance (xs ys : List α) : EditScript (editDistance xs ys) xs ys := by
  induction xs generalizing ys with
  | nil =>
      rw [editDistance_nil_left]
      exact (editScript_nil_right ys).symm
  | cons x xs ihx =>
      induction ys with
      | nil =>
          rw [editDistance_nil_right]
          exact editScript_nil_right (x :: xs)
      | cons y ys ihy =>
          have hdelete : EditScript (editDistance xs (y :: ys) + 1) (x :: xs) (y :: ys) :=
            .step (.delete [] xs x) (ihx (y :: ys))
          have hinsert : EditScript (editDistance (x :: xs) ys + 1) (x :: xs) (y :: ys) :=
            .step (.insert [] (x :: xs) y) (ihy.cons y)
          have hreplace : EditScript (editDistance xs ys + if x = y then 0 else 1)
              (x :: xs) (y :: ys) := by
            split
            · rename_i hxy
              subst hxy
              exact (ihx ys).cons x
            · exact .step (.replace [] xs x y) ((ihx ys).cons y)
          rw [editDistance_cons_cons]
          exact (hdelete.min hinsert).min hreplace

/-- The distance of two words is the least number of edits that turn one into the other. -/
theorem isLeast_editDistance (xs ys : List α) :
    IsLeast {n | EditScript n xs ys} (editDistance xs ys) := by
  constructor
  · exact editScript_editDistance xs ys
  · intro n hscript
    exact hscript.editDistance_le

/-! ## Distances between several words -/

theorem editDistance_eq_zero_iff {xs ys : List α} : editDistance xs ys = 0 ↔ xs = ys := by
  constructor
  · intro h
    have hscript := editScript_editDistance xs ys
    rw [h] at hscript
    exact editScript_zero_iff.1 hscript
  · rintro rfl
    exact editDistance_self xs

theorem editDistance_comm (xs ys : List α) : editDistance xs ys = editDistance ys xs := by
  apply Nat.le_antisymm
  · exact (editScript_editDistance ys xs).symm.editDistance_le
  · exact (editScript_editDistance xs ys).symm.editDistance_le

theorem editDistance_triangle (xs ys zs : List α) :
    editDistance xs zs ≤ editDistance xs ys + editDistance ys zs := by
  have hscript := (editScript_editDistance xs ys).trans (editScript_editDistance ys zs)
  exact hscript.editDistance_le

end Nominal
