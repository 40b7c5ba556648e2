import Mathlib.Data.List.Dedup

/-!
# Lists without repetitions

Removing repetitions keeps the first occurrence of every member, in order
(`firstOccurrences_eraseDups`). How many members are left depends only on which of them are equal
(`length_dedup_map_congr`).
-/

namespace Nominal

/-- `FirstOccurrences l l'`: the list `l'` holds every member of `l` once, in the order in which
they occur first in `l`. -/
structure FirstOccurrences {α : Type} [DecidableEq α] (l l' : List α) : Prop where
  nodup : l'.Nodup
  mem_iff : ∀ a, a ∈ l' ↔ a ∈ l
  ordered : l'.Pairwise fun a b => l.idxOf a < l.idxOf b

section EraseDups

variable {α β : Type} [DecidableEq α] [DecidableEq β]

theorem length_filter_ne_lt (a : α) (l : List α) :
    (l.filter fun b => !b == a).length < (a :: l).length := by
  have hle := List.length_filter_le (fun b => !b == a) l
  rw [List.length_cons]
  omega

/-- Taking a value out of a list does not change which of two others comes first. -/
theorem idxOf_filter_lt_idxOf_filter_iff {a b c : α} (hb : a ≠ b) (hc : a ≠ c) (l : List α) :
    (l.filter fun d => !d == a).idxOf b < (l.filter fun d => !d == a).idxOf c ↔
      l.idxOf b < l.idxOf c := by
  induction l with
  | nil => simp
  | cons d l ih =>
      by_cases hd : d = a
      · subst hd
        rw [List.filter_cons_of_neg (by simp)]
        simpa [List.idxOf_cons, hb, hc] using ih
      · rw [List.filter_cons_of_pos (by simp [hd])]
        by_cases hdb : d = b
        · subst hdb
          by_cases hdc : d = c <;> simp [hdc]
        · by_cases hdc : d = c
          · subst hdc
            simp [List.idxOf_cons]
          · simpa [List.idxOf_cons, hdb, hdc] using ih

/-- Repetitions are removed behind the first occurrence. The tail is filtered before its own
repetitions are removed, so it is shorter but no part of the list. -/
theorem pairwise_idxOf_eraseDups : ∀ l : List α,
    l.eraseDups.Pairwise fun a b => l.idxOf a < l.idxOf b
  | [] => by simp
  | a :: l => by
      have hrest := pairwise_idxOf_eraseDups (l.filter fun b => !b == a)
      have hne : ∀ b ∈ (l.filter fun b => !b == a).eraseDups, a ≠ b := by
        rintro b hb rfl
        simpa using (List.mem_filter.1 (List.mem_eraseDups.1 hb)).2
      rw [List.eraseDups_cons, List.pairwise_cons]
      constructor
      · intro b hb
        simp [hne b hb]
      · refine hrest.imp_of_mem ?_
        intro b c hb hc hlt
        have hlt' := (idxOf_filter_lt_idxOf_filter_iff (hne b hb) (hne c hc) l).1 hlt
        simpa [List.idxOf_cons, hne b hb, hne c hc] using hlt'
  termination_by l => l.length
  decreasing_by exact length_filter_ne_lt a l

theorem firstOccurrences_eraseDups (l : List α) : FirstOccurrences l l.eraseDups := by
  refine ⟨?_, fun a => List.mem_eraseDups, pairwise_idxOf_eraseDups l⟩
  refine (pairwise_idxOf_eraseDups l).imp ?_
  rintro a _ hlt rfl
  exact Nat.lt_irrefl _ hlt

/-- A map that keeps different values apart does not change what is a repetition. -/
theorem eraseDups_map {f : α → β} (hf : Function.Injective f) : ∀ l : List α,
    (l.map f).eraseDups = l.eraseDups.map f
  | [] => by simp
  | a :: l => by
      have hfilter : (l.map f).filter (fun b => !b == f a) =
          (l.filter fun b => !b == a).map f := by
        rw [List.filter_map]
        congr 1
        apply List.filter_congr
        intro b _
        by_cases h : b = a
        · simp [h]
        · simp [h, hf.ne h]
      rw [List.map_cons, List.eraseDups_cons, List.eraseDups_cons, hfilter,
        eraseDups_map hf (l.filter fun b => !b == a), List.map_cons]
  termination_by l => l.length
  decreasing_by exact length_filter_ne_lt a l

theorem length_eraseDups (l : List α) : l.eraseDups.length = l.dedup.length := by
  have hperm : l.eraseDups.Perm l.dedup := by
    rw [List.perm_ext_iff_of_nodup (firstOccurrences_eraseDups l).nodup (List.nodup_dedup l)]
    intro a
    rw [List.mem_eraseDups, List.mem_dedup]
  exact hperm.length_eq

end EraseDups

/-- Two maps that keep the same members of a list apart have the same number of values on it. -/
theorem length_dedup_map_congr {ι α β : Type} [DecidableEq α] [DecidableEq β] {f : ι → α}
    {g : ι → β} {l : List ι} (h : ∀ a ∈ l, ∀ b ∈ l, f a = f b ↔ g a = g b) :
    (l.map f).dedup.length = (l.map g).dedup.length := by
  induction l with
  | nil => rfl
  | cons a l ih =>
      obtain ⟨ha, hl⟩ := List.forall_mem_cons.1 h
      have hrest := ih fun b hb => (List.forall_mem_cons.1 (hl b hb)).2
      have hmem : f a ∈ l.map f ↔ g a ∈ l.map g := by
        simp only [List.mem_map]
        constructor
        · rintro ⟨b, hb, heq⟩
          exact ⟨b, hb, ((ha b (List.mem_cons_of_mem a hb)).1 heq.symm).symm⟩
        · rintro ⟨b, hb, heq⟩
          exact ⟨b, hb, ((ha b (List.mem_cons_of_mem a hb)).2 heq.symm).symm⟩
      rw [List.map_cons, List.map_cons]
      by_cases hrepeated : f a ∈ l.map f
      · rw [List.dedup_cons_of_mem hrepeated, List.dedup_cons_of_mem (hmem.1 hrepeated), hrest]
      · rw [List.dedup_cons_of_notMem hrepeated, List.dedup_cons_of_notMem (mt hmem.2 hrepeated),
          List.length_cons, List.length_cons, hrest]

end Nominal
