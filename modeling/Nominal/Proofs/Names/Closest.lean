import Mathlib.Data.Prod.Lex
import Mathlib.Data.String.Basic
import Nominal.Proofs.Names.Relation

/-!
# The closest name

What `closest` picks is described without the way in which it goes through the candidates: among
those that may be meant at all (`Eligible`) it is a least one by distance and text (`priority`), and
of several such candidates the first one (`FirstLeast`). Two candidates of the same priority have
the same text, so the text that is picked depends on the set of candidates alone. The symbol may
come from another table, unless all candidates are from one.

Main statement: `closest_eq_some_iff_firstLeast_and_order_irrelevant`.
-/

namespace Nominal
namespace Symbol

/-! ## What candidates are compared by -/

/-- `target.Eligible c`: the candidate `c` is another symbol than `target` and at most two edits
from it. -/
def Eligible (target c : Symbol) : Prop := c ≠ target ∧ target.distance c ≤ 2

/-- Nearer candidates come first, and equally near ones in the order of their texts, which is that
of their characters as Unicode scalar values. -/
def priority (target c : Symbol) : ℕ ×ₗ String := toLex (target.distance c, c.text)

/-- `FirstLeast target before c after`: the candidate `c` has a priority before all eligible ones in
the list `before`, and none of the eligible ones in the list `after` has a priority before it. -/
structure FirstLeast (target : Symbol) (before : List Symbol) (c : Symbol) (after : List Symbol) :
    Prop where
  eligible : target.Eligible c
  before : ∀ b ∈ before, target.Eligible b → target.priority c < target.priority b
  after : ∀ b ∈ after, target.Eligible b → target.priority c ≤ target.priority b

variable {target a b c : Symbol} {candidates others before after before' after' : List Symbol}

theorem text_eq_of_priority_eq (h : target.priority b = target.priority c) : b.text = c.text := by
  have hpair := toLex.injective h
  exact congrArg Prod.snd hpair

theorem not_eligible_iff : ¬ target.Eligible c ↔ c = target ∨ 2 < target.distance c := by
  rw [Eligible, not_and_or, not_not, Nat.not_le]

/-- Ranking puts related candidates in the order of their priorities. -/
theorem rank_eq_lt_iff :
    rank (.related (target.distance b), b) (.related (target.distance a), a) = .lt ↔
      target.priority b < target.priority a := by
  simp only [rank, Relation.order, Symbol.order, Ordering.then_eq_lt, compare_lt_iff_lt,
    compare_eq_iff_eq, priority, Prod.Lex.toLex_lt_toLex]

/-! ## One candidate after another -/

/-- The candidates that are ranked, each beside its relation to the target. -/
def ranked (target : Symbol) (candidates : List Symbol) : List (Relation × Symbol) :=
  ((candidates.filter (· ≠ target)).map fun c => (target.relation c, c)).filter (·.1.isRelated)

theorem closest_eq_map_leastRanked (target : Symbol) (candidates : List Symbol) :
    target.closest candidates = (leastRanked (target.ranked candidates)).map (·.2) := rfl

theorem ranked_cons_of_eligible (h : target.Eligible a) (candidates : List Symbol) :
    target.ranked (a :: candidates) =
      (.related (target.distance a), a) :: target.ranked candidates := by
  have hrelation : target.relation a = .related (target.distance a) :=
    relation_eq_related_iff.2 ⟨h.2, rfl⟩
  simp [ranked, h.1, hrelation, Relation.isRelated, Relation.distance?]

theorem ranked_cons_of_not_eligible (h : ¬ target.Eligible a) (candidates : List Symbol) :
    target.ranked (a :: candidates) = target.ranked candidates := by
  rcases not_eligible_iff.1 h with rfl | hfar
  · simp [ranked]
  · have hrelation : target.relation a = .unrelated := relation_eq_unrelated_iff.2 hfar
    by_cases ha : a = target <;>
      simp [ranked, ha, hrelation, Relation.isRelated, Relation.distance?]

theorem mem_of_leastRanked {entries : List (Relation × Symbol)} {entry : Relation × Symbol}
    (h : leastRanked entries = some entry) : entry ∈ entries := by
  induction entries generalizing entry with
  | nil => simp [leastRanked] at h
  | cons first rest ih =>
      simp only [leastRanked] at h
      cases hrest : leastRanked rest with
      | none =>
          have hfirst : first = entry := by simpa [hrest] using h
          simp [hfirst]
      | some least =>
          simp only [hrest] at h
          split at h
          · rw [← Option.some.inj h]
            exact List.mem_cons_of_mem first (ih hrest)
          · rw [← Option.some.inj h]
            exact List.mem_cons_self

theorem fst_eq_of_mem_ranked {entry : Relation × Symbol} (h : entry ∈ target.ranked candidates) :
    entry.1 = .related (target.distance entry.2) := by
  simp only [ranked, List.mem_filter, List.mem_map] at h
  obtain ⟨⟨c, -, rfl⟩, hrelated⟩ := h
  cases hrelation : target.relation c with
  | related d =>
      obtain ⟨-, rfl⟩ := relation_eq_related_iff.1 hrelation
      rfl
  | unrelated => simp [hrelation, Relation.isRelated, Relation.distance?] at hrelated

theorem leastRanked_ranked_of_closest (h : target.closest candidates = some c) :
    leastRanked (target.ranked candidates) = some (.related (target.distance c), c) := by
  rw [closest_eq_map_leastRanked, Option.map_eq_some_iff] at h
  obtain ⟨entry, hentry, rfl⟩ := h
  rw [hentry, ← fst_eq_of_mem_ranked (mem_of_leastRanked hentry)]

theorem closest_cons_of_not_eligible (ha : ¬ target.Eligible a) :
    target.closest (a :: candidates) = target.closest candidates := by
  rw [closest_eq_map_leastRanked, ranked_cons_of_not_eligible ha, ← closest_eq_map_leastRanked]

theorem closest_cons_of_eq_none (ha : target.Eligible a) (h : target.closest candidates = none) :
    target.closest (a :: candidates) = some a := by
  rw [closest_eq_map_leastRanked, Option.map_eq_none_iff] at h
  simp [closest_eq_map_leastRanked, ranked_cons_of_eligible ha, leastRanked, h]

/-- The later one of two candidates wins only if its priority is strictly before that of the earlier
one. -/
theorem closest_cons_of_eq_some (ha : target.Eligible a) (h : target.closest candidates = some b) :
    target.closest (a :: candidates) =
      if target.priority b < target.priority a then some b else some a := by
  have hleast := leastRanked_ranked_of_closest h
  rw [closest_eq_map_leastRanked, ranked_cons_of_eligible ha]
  simp only [leastRanked, hleast, Ordering.isLT_iff_eq_lt, rank_eq_lt_iff]
  split <;> rfl

/-! ## What is picked -/

theorem closest_eq_none_iff :
    target.closest candidates = none ↔ ∀ c ∈ candidates, ¬ target.Eligible c := by
  induction candidates with
  | nil => simp [closest_eq_map_leastRanked, ranked, leastRanked]
  | cons a candidates ih =>
      rw [List.forall_mem_cons, ← ih]
      by_cases ha : target.Eligible a
      · cases hrest : target.closest candidates with
        | none => simp [closest_cons_of_eq_none ha hrest, ha]
        | some b =>
            rw [closest_cons_of_eq_some ha hrest]
            split <;> simp
      · simp [closest_cons_of_not_eligible ha, ha]

/-- No eligible candidate of the whole list has a priority before the first least one. -/
theorem FirstLeast.le (h : FirstLeast target before c after) :
    ∀ b ∈ before ++ c :: after, target.Eligible b → target.priority c ≤ target.priority b := by
  intro b hb heligible
  rcases List.mem_append.1 hb with hb | hb
  · exact (h.before b hb heligible).le
  · rcases List.mem_cons.1 hb with rfl | hb
    · exact le_refl _
    · exact h.after b hb heligible

/-- Candidates in front that may not be meant change nothing. -/
theorem FirstLeast.cons (h : FirstLeast target before c after)
    (ha : target.Eligible a → target.priority c < target.priority a) :
    FirstLeast target (a :: before) c after :=
  ⟨h.eligible, List.forall_mem_cons.2 ⟨ha, h.before⟩, h.after⟩

theorem exists_firstLeast_of_closest (h : target.closest candidates = some c) :
    ∃ before after, candidates = before ++ c :: after ∧ FirstLeast target before c after := by
  induction candidates generalizing c with
  | nil => simp [closest_eq_map_leastRanked, ranked, leastRanked] at h
  | cons a candidates ih =>
      by_cases ha : target.Eligible a
      · cases hrest : target.closest candidates with
        | none =>
            rw [closest_cons_of_eq_none ha hrest, Option.some.injEq] at h
            subst h
            refine ⟨[], candidates, rfl, ha, by simp, ?_⟩
            intro b hb heligible
            exact absurd heligible (closest_eq_none_iff.1 hrest b hb)
        | some b =>
            obtain ⟨before, after, rfl, hb⟩ := ih hrest
            rw [closest_cons_of_eq_some ha hrest] at h
            split at h
            · rename_i hlt
              rw [Option.some.injEq] at h
              subst h
              exact ⟨a :: before, after, rfl, hb.cons fun _ => hlt⟩
            -- The head stays unless something behind it is strictly better.
            · rename_i hlt
              rw [Option.some.injEq] at h
              subst h
              refine ⟨[], before ++ b :: after, rfl, ha, by simp, ?_⟩
              intro d hd heligible
              exact (not_lt.1 hlt).trans (hb.le d hd heligible)
      · rw [closest_cons_of_not_eligible ha] at h
        obtain ⟨before, after, rfl, hc⟩ := ih h
        exact ⟨a :: before, after, rfl, hc.cons fun heligible => absurd heligible ha⟩

/-- A first least candidate stands in no list behind another one. -/
theorem FirstLeast.not_mem_before (h : FirstLeast target before c after)
    (h' : FirstLeast target before' b after') (hmem : b ∈ before ++ c :: after) :
    c ∉ before' := by
  intro hc
  have hlt := h'.before c hc h.eligible
  exact absurd (h.le b hmem h'.eligible) (not_le.2 hlt)

theorem FirstLeast.unique (h : FirstLeast target before c after)
    (h' : FirstLeast target before' b after')
    (hlist : before ++ c :: after = before' ++ b :: after') : c = b := by
  have hb : b ∈ before ++ c :: after := by simp [hlist]
  have hc : c ∈ before' ++ b :: after' := by simp [← hlist]
  -- One of the two beginnings is at least as long as the other. If it is longer, then it holds the
  -- other candidate, which is not before the one behind it.
  rcases List.append_eq_append_iff.1 hlist with ⟨middle, rfl, hrest⟩ | ⟨middle, rfl, hrest⟩
  · cases middle with
    | nil => exact (List.cons.inj hrest).1
    | cons x middle =>
        obtain ⟨rfl, -⟩ := List.cons.inj hrest
        exact absurd (by simp) (h.not_mem_before h' hb)
  · cases middle with
    | nil => exact (List.cons.inj hrest).1.symm
    | cons x middle =>
        obtain ⟨rfl, -⟩ := List.cons.inj hrest
        exact absurd (by simp) (h'.not_mem_before h hc)

theorem closest_eq_some_iff :
    target.closest candidates = some c ↔
      ∃ before after, candidates = before ++ c :: after ∧ FirstLeast target before c after := by
  constructor
  · exact exists_firstLeast_of_closest
  · rintro ⟨before, after, rfl, hc⟩
    cases hclosest : target.closest (before ++ c :: after) with
    | none => exact absurd hc.eligible (closest_eq_none_iff.1 hclosest c (by simp))
    | some b =>
        obtain ⟨before', after', hlist, hb⟩ := exists_firstLeast_of_closest hclosest
        rw [hc.unique hb hlist]

/-! ## Order and repetitions -/

/-- The text that is picked is that of an eligible candidate with the least priority, of whichever
one there may be. -/
theorem map_text_closest_eq_some_iff {text : String} :
    (target.closest candidates).map Symbol.text = some text ↔
      ∃ c ∈ candidates, target.Eligible c ∧ c.text = text ∧
        ∀ b ∈ candidates, target.Eligible b → target.priority c ≤ target.priority b := by
  constructor
  · intro h
    obtain ⟨c, hc, rfl⟩ := Option.map_eq_some_iff.1 h
    obtain ⟨before, after, rfl, hfirst⟩ := closest_eq_some_iff.1 hc
    exact ⟨c, by simp, hfirst.eligible, rfl, hfirst.le⟩
  · rintro ⟨c, hc, heligible, rfl, hle⟩
    cases hclosest : target.closest candidates with
    | none => exact absurd heligible (closest_eq_none_iff.1 hclosest c hc)
    | some b =>
        obtain ⟨before, after, rfl, hb⟩ := closest_eq_some_iff.1 hclosest
        have hge : target.priority b ≤ target.priority c := hb.le c hc heligible
        have hpriority := hge.antisymm (hle b (by simp) hb.eligible)
        rw [Option.map_some, text_eq_of_priority_eq hpriority]

/-- What is picked from the same candidates in another order, or more or less often, has the same
text. -/
theorem text_closest_congr (h : ∀ c, c ∈ others ↔ c ∈ candidates) :
    (target.closest others).map Symbol.text = (target.closest candidates).map Symbol.text := by
  apply Option.ext
  intro text
  simp only [map_text_closest_eq_some_iff, h]

theorem mem_of_closest (h : target.closest candidates = some c) : c ∈ candidates := by
  obtain ⟨before, after, rfl, -⟩ := closest_eq_some_iff.1 h
  simp

/-- From symbols of one table, even the same symbol is picked. -/
theorem closest_congr (h : ∀ c, c ∈ others ↔ c ∈ candidates)
    (htable : ∀ b ∈ candidates, ∀ c ∈ candidates, b.table = c.table) :
    target.closest others = target.closest candidates := by
  have htext : (target.closest others).map Symbol.text =
      (target.closest candidates).map Symbol.text := text_closest_congr h
  cases hothers : target.closest others with
  | none =>
      rw [hothers, Option.map_none, eq_comm, Option.map_eq_none_iff] at htext
      exact htext.symm
  | some b =>
      rw [hothers, Option.map_some, eq_comm, Option.map_eq_some_iff] at htext
      obtain ⟨c, hc, hbc⟩ := htext
      have htables := htable c (mem_of_closest hc) b ((h b).1 (mem_of_closest hothers))
      rw [hc, Symbol.eq_of_text_eq htables hbc]

/-- Nothing is picked exactly if every candidate is the target or more than two edits from it, and
otherwise the first of the least candidates by distance and text. The text that is picked depends
neither on the order of the candidates nor on repetitions, and within one string table neither does
the symbol. -/
theorem closest_eq_some_iff_firstLeast_and_order_irrelevant (target : Symbol)
    (candidates : List Symbol) :
    (target.closest candidates = none ↔
      ∀ c ∈ candidates, c = target ∨ 2 < target.distance c) ∧
    (∀ c, target.closest candidates = some c ↔
      ∃ before after, candidates = before ++ c :: after ∧ FirstLeast target before c after) ∧
    ∀ others : List Symbol, (∀ c, c ∈ others ↔ c ∈ candidates) →
      (target.closest others).map Symbol.text = (target.closest candidates).map Symbol.text ∧
      ((∀ b ∈ candidates, ∀ c ∈ candidates, b.table = c.table) →
        target.closest others = target.closest candidates) := by
  refine ⟨?none, ?some, ?order⟩
  case none =>
    simp only [closest_eq_none_iff, not_eligible_iff]
  case some =>
    intro c
    exact closest_eq_some_iff
  case order =>
    intro others h
    exact ⟨text_closest_congr h, closest_congr h⟩

/-! ### Two candidates of one distance -/

/-- Both `lenghts` and `lengh` are one edit from `lenght`, which is among the candidates itself. -/
def lenghtCandidates : List Symbol := ["lenghts", "size", "lengh", "lenght"].map (Symbol.mk 0)

/-- The same candidates in another order, some of them twice. -/
def lenghtCandidatesAgain : List Symbol :=
  ["lengh", "lenght", "lengh", "size", "lenghts", "lenghts"].map (Symbol.mk 0)

theorem closest_lenght :
    (∀ c, c ∈ lenghtCandidatesAgain ↔ c ∈ lenghtCandidates) ∧
      (∀ b ∈ lenghtCandidates, ∀ c ∈ lenghtCandidates, b.table = c.table) ∧
      (⟨0, "lenght"⟩ : Symbol).closest lenghtCandidates = some ⟨0, "lengh"⟩ ∧
      ((⟨0, "lenght"⟩ : Symbol).closest lenghtCandidatesAgain).map Symbol.text = some "lengh" ∧
      (⟨0, "lenght"⟩ : Symbol).closest lenghtCandidatesAgain = some ⟨0, "lengh"⟩ := by
  have hmem : ∀ c, c ∈ lenghtCandidatesAgain ↔ c ∈ lenghtCandidates := by
    intro c
    simp only [lenghtCandidatesAgain, lenghtCandidates, List.map_cons, List.map_nil, List.mem_cons,
      List.not_mem_nil, or_false]
    tauto
  have htable : ∀ b ∈ lenghtCandidates, ∀ c ∈ lenghtCandidates, b.table = c.table := by
    simp [lenghtCandidates]
  have hclosest : (⟨0, "lenght"⟩ : Symbol).closest lenghtCandidates = some ⟨0, "lengh"⟩ := by
    decide
  have hagain := (closest_eq_some_iff_firstLeast_and_order_irrelevant ⟨0, "lenght"⟩
    lenghtCandidates).2.2 lenghtCandidatesAgain hmem
  rw [hclosest] at hagain
  exact ⟨hmem, htable, hclosest, hagain.1, hagain.2 htable⟩

end Symbol
end Nominal
