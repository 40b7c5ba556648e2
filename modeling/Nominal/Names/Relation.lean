import Nominal.Names.Symbol
import Nominal.Text.EditDistance

/-!
# Related names

Two names are related if few single-character edits lead from one to the other. `closest` picks the
name that somebody who wrote `target` most likely meant; its answer does not depend on the order of
the candidates, since candidates of one distance are told apart by their texts.
-/

namespace Nominal

/-- How near two names are. -/
inductive Relation where
  | related (distance : Nat)
  | unrelated
  deriving DecidableEq, Repr

namespace Relation

/-- The largest distance at which two names are still related, as `lenght` and `length` are. -/
def maxDistance : Nat := 2

/-- The relation of two names that are `distance` edits apart. -/
def ofDistance (distance : Nat) : Relation :=
  if distance ≤ maxDistance then .related distance else .unrelated

/-- The distance of two related names. -/
def distance? : Relation → Option Nat
  | .related d => some d
  | .unrelated => none

/-- Whether the names are related at all. -/
def isRelated (r : Relation) : Bool := r.distance?.isSome

/-- Nearer relations come first, and `unrelated` last. -/
def order : Relation → Relation → Ordering
  | .related d, .related d' => compare d d'
  | .related _, .unrelated => .lt
  | .unrelated, .related _ => .gt
  | .unrelated, .unrelated => .eq

/-- The relations from the nearest to the farthest. -/
def sort (relations : List Relation) : List Relation :=
  relations.mergeSort fun a b => (a.order b).isLE

end Relation

namespace Symbol

/-- The relation of the texts of two symbols; their tables do not matter. -/
def relation (a b : Symbol) : Relation :=
  .ofDistance (editDistance a.text.toList b.text.toList)

/-- A candidate beside its relation to the target. Candidates are ranked by relation, then text. -/
def rank (a b : Relation × Symbol) : Ordering :=
  (a.1.order b.1).then (a.2.order b.2)

/-- The first of the least elements of a list. -/
def leastRanked : List (Relation × Symbol) → Option (Relation × Symbol)
  | [] => none
  | a :: rest =>
    match leastRanked rest with
    | none => some a
    | some b => if (rank b a).isLT then some b else some a

/-- The candidate most closely related to `target`, leaving out `target` itself. -/
def closest (target : Symbol) (candidates : List Symbol) : Option Symbol :=
  let others := candidates.filter (· ≠ target)
  let ranked := (others.map fun c => (target.relation c, c)).filter (·.1.isRelated)
  (leastRanked ranked).map (·.2)

end Symbol
end Nominal
