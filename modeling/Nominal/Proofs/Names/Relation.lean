import Mathlib.Order.Bounds.Basic
import Nominal.Names.Relation
import Nominal.Proofs.Text.EditDistance

/-!
# Related names

The relation of two symbols is the edit distance of their texts as long as it is at most two, and
nothing is known about symbols farther apart. So the laws of distances hold of relations up to that
bound, and the triangle inequality as long as the sum of two distances keeps to it.

Main statement: `relation_eq_related_iff_isLeast_editScript`.
-/

namespace Nominal
namespace Symbol

/-- The edit distance of the texts of two symbols; their tables do not matter. -/
def distance (a b : Symbol) : Nat := editDistance a.text.toList b.text.toList

variable {a b c : Symbol} {d : Nat}

theorem relation_eq_ofDistance (a b : Symbol) : a.relation b = .ofDistance (a.distance b) := rfl

/-- Related symbols are at most two edits apart, and their relation holds their distance. -/
theorem relation_eq_related_iff : a.relation b = .related d ↔ d ≤ 2 ∧ a.distance b = d := by
  rw [relation_eq_ofDistance, Relation.ofDistance, Relation.maxDistance]
  split
  · rename_i hle
    rw [Relation.related.injEq]
    constructor
    · rintro rfl
      exact ⟨hle, rfl⟩
    · exact And.right
  · rename_i hle
    constructor
    · rintro ⟨⟩
    · rintro ⟨hd, rfl⟩
      exact absurd hd hle

theorem relation_eq_unrelated_iff : a.relation b = .unrelated ↔ 2 < a.distance b := by
  rw [relation_eq_ofDistance, Relation.ofDistance, Relation.maxDistance]
  split
  · rename_i hle
    simp [Nat.not_lt.2 hle]
  · rename_i hle
    simp [Nat.not_le.1 hle]

/-- A number is the least number of edits exactly if it is the distance. -/
theorem isLeast_editScript_iff :
    IsLeast {n | EditScript n a.text.toList b.text.toList} d ↔ a.distance b = d := by
  have hleast := isLeast_editDistance a.text.toList b.text.toList
  constructor
  · intro h
    exact hleast.unique h
  · rintro rfl
    exact hleast

theorem distance_comm (a b : Symbol) : a.distance b = b.distance a :=
  editDistance_comm a.text.toList b.text.toList

theorem distance_eq_zero_iff : a.distance b = 0 ↔ a.text = b.text := by
  rw [distance, editDistance_eq_zero_iff, String.toList_inj]

theorem distance_triangle (a b c : Symbol) : a.distance c ≤ a.distance b + b.distance c :=
  editDistance_triangle a.text.toList b.text.toList c.text.toList

/-- Two symbols are related at the least number of edits that turn one text into the other, if that
is at most two, and otherwise unrelated. So the relation is symmetric, it is zero exactly for equal
texts, and along two relations whose distances add up to at most two it goes at most as far. -/
theorem relation_eq_related_iff_isLeast_editScript (a b : Symbol) :
    (∀ d, a.relation b = .related d ↔
      d ≤ 2 ∧ IsLeast {n | EditScript n a.text.toList b.text.toList} d) ∧
    (a.relation b = .unrelated ↔
      ∃ d, 2 < d ∧ IsLeast {n | EditScript n a.text.toList b.text.toList} d) ∧
    a.relation b = b.relation a ∧
    (a.relation b = .related 0 ↔ a.text = b.text) ∧
    ∀ c d₁ d₂, a.relation b = .related d₁ → b.relation c = .related d₂ → d₁ + d₂ ≤ 2 →
      ∃ d, d ≤ d₁ + d₂ ∧ a.relation c = .related d := by
  refine ⟨?related, ?unrelated, ?symm, ?zero, ?triangle⟩
  case related =>
    intro d
    rw [relation_eq_related_iff, isLeast_editScript_iff]
  case unrelated =>
    simp only [relation_eq_unrelated_iff, isLeast_editScript_iff, exists_eq_right']
  case symm =>
    rw [relation_eq_ofDistance, relation_eq_ofDistance, distance_comm]
  case zero =>
    rw [relation_eq_related_iff, distance_eq_zero_iff]
    simp
  case triangle =>
    intro c d₁ d₂ hab hbc hsum
    obtain ⟨-, rfl⟩ := relation_eq_related_iff.1 hab
    obtain ⟨-, rfl⟩ := relation_eq_related_iff.1 hbc
    have hac := distance_triangle a b c
    exact ⟨a.distance c, hac, relation_eq_related_iff.2 ⟨hac.trans hsum, rfl⟩⟩

/-- From `cat` in one table by way of `cut` in a second one to `cute` in a third one. -/
theorem relation_cat_cut_cute :
    (⟨0, "cat"⟩ : Symbol).relation ⟨1, "cut"⟩ = .related 1 ∧
      (⟨1, "cut"⟩ : Symbol).relation ⟨2, "cute"⟩ = .related 1 ∧
      ∃ d, d ≤ 1 + 1 ∧ (⟨0, "cat"⟩ : Symbol).relation ⟨2, "cute"⟩ = .related d := by
  have hcat : (⟨0, "cat"⟩ : Symbol).relation ⟨1, "cut"⟩ = .related 1 := by decide
  have hcut : (⟨1, "cut"⟩ : Symbol).relation ⟨2, "cute"⟩ = .related 1 := by decide
  have htriangle := (relation_eq_related_iff_isLeast_editScript ⟨0, "cat"⟩ ⟨1, "cut"⟩).2.2.2.2
  exact ⟨hcat, hcut, htriangle ⟨2, "cute"⟩ 1 1 hcat hcut (Nat.le_refl 2)⟩

end Symbol
end Nominal
