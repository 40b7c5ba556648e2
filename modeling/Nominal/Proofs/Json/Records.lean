import Mathlib.Data.List.Nodup
import Mathlib.Tactic.MkIffOfInductiveProp
import Nominal.Json.Record
import Nominal.Proofs.Json.Skipping

/-!
# Reading records

A format reads the records that a list of slots describes (`Format.Implements`) if each of its
fields is a slot of the draft, and a draft is finished by what its slots hold, or mean when they are
left out. Such a format recognizes the records of its rules (`Format.Implements.recognizes`).

Both forms are dealt with in the same way. What is still to come has to complete the draft to the
record: the members of an object whichever slots they fill (`Fills`), the elements of an array the
slots that are left. The members or elements do so exactly if the first of them leads to a draft
that the others complete.
-/

namespace Nominal.Json

/-- A field of the records in `α`, how it is read, and the place it has in the drafts in `σ`. -/
structure Slot (σ α : Type) extends FieldRule α where
  reader : Reader Value
  recognizes : reader.Recognizes Encodes
  get : σ → Option Value
  set : σ → Value → σ
  get_set : ∀ d a, get (set d a) = some a

variable {σ α : Type}

/-- The field that is read into a slot. -/
def Slot.field (slot : Slot σ α) : Field σ where
  key := slot.key
  isSet d := (slot.get d).isSome
  value d := slot.reader.map (slot.set d)

/-- `slot.Finished d x`: what the draft `d` holds in the slot, or what leaving it out means, is what
the record `x` has there. -/
def Slot.Finished (slot : Slot σ α) (d : σ) (x : α) : Prop :=
  (slot.get d).or slot.default? = some (slot.ofRecord x)

theorem Slot.finished_of_get_eq_some {slot : Slot σ α} {d : σ} {a : slot.Value} {x : α}
    (h : slot.get d = some a) : slot.Finished d x ↔ a = slot.ofRecord x := by
  rw [Slot.Finished, h, Option.some_or, Option.some.injEq]

theorem Slot.finished_of_get_eq_none {slot : Slot σ α} {d : σ} {x : α} (h : slot.get d = none) :
    slot.Finished d x ↔ slot.Omits x := by
  rw [Slot.Finished, h, Option.none_or, FieldRule.Omits]

theorem Slot.finished_congr {slot : Slot σ α} {d d' : σ} {x : α} (h : slot.get d' = slot.get d) :
    slot.Finished d' x ↔ slot.Finished d x := by
  rw [Slot.Finished, Slot.Finished, h]

/-- `f.Implements slots`: the format `f` reads the records that the slots describe. -/
structure Format.Implements (f : Format σ α) (slots : List (Slot σ α)) : Prop where
  fields_eq : f.fields = slots.map Slot.field
  nodup : (slots.map (·.key)).Nodup
  get_blank : ∀ slot ∈ slots, slot.get f.blank = none
  get_set_of_ne : ∀ slot ∈ slots, ∀ other ∈ slots, other.key ≠ slot.key → ∀ d a,
    other.get (slot.set d a) = other.get d
  finish_eq_ok_iff : ∀ d x, f.finish d = .ok x ↔ ∀ slot ∈ slots, slot.Finished d x

/-! ## Members -/

/-- `Stores slots d key v d'`: a member with this key and value leads from the draft `d` to `d'`. -/
inductive Stores (slots : List (Slot σ α)) (d : σ) (key : String) (v : List Char) : σ → Prop where
  | known {slot : Slot σ α} {a : slot.Value} : slot ∈ slots → slot.key = key →
      slot.get d = none → slot.Encodes v a → Stores slots d key v (slot.set d a)
  | unknown : key ∉ slots.map (·.key) → AnyValue v → Stores slots d key v d

/-- `slot.Filled d members x`: the members complete what the draft `d` holds in the slot to what the
record `x` has there. One of them at most has the key of the slot, and none if the slot is filled.
-/
@[mk_iff]
structure Slot.Filled (slot : Slot σ α) (d : σ) (members : List (String × Member)) (x : α) :
    Prop where
  once : (members.map (·.1)).count slot.key ≤ 1
  free : slot.key ∈ members.map (·.1) → slot.get d = none
  written : ∀ m ∈ members, m.1 = slot.key → slot.Writes m.2.value x
  omitted : slot.key ∉ members.map (·.1) → slot.Finished d x

/-- `Fills slots d members x`: the members complete the draft `d` to the record `x`. -/
structure Fills (slots : List (Slot σ α)) (d : σ) (members : List (String × Member)) (x : α) :
    Prop where
  keys : ∀ m ∈ members, Spells m.2.key m.1.toList
  filled : ∀ slot ∈ slots, slot.Filled d members x
  unknown : ∀ m ∈ members, m.1 ∉ slots.map (·.key) → AnyValue m.2.value

namespace Slot

variable {slot : Slot σ α} {d d' : σ} {m : String × Member} {members : List (String × Member)}
  {x : α}

theorem filled_nil_iff : slot.Filled d [] x ↔ slot.Finished d x := by
  simp [filled_iff]

/-- Members with other keys do nothing for a slot. -/
theorem filled_cons_of_ne (hne : slot.key ≠ m.1) :
    slot.Filled d (m :: members) x ↔ slot.Filled d members x := by
  simp [filled_iff, hne, hne.symm]

/-- A slot is filled by the one member that has its key. -/
theorem filled_cons_of_eq (heq : slot.key = m.1) :
    slot.Filled d (m :: members) x ↔
      slot.get d = none ∧ slot.Writes m.2.value x ∧ slot.key ∉ members.map (·.1) := by
  constructor
  · intro h
    have honce := h.once
    rw [List.map_cons, heq, List.count_cons_self] at honce
    refine ⟨h.free (heq ▸ List.mem_cons_self), h.written m List.mem_cons_self heq.symm, ?_⟩
    rw [heq, ← List.count_eq_zero]
    omega
  · rintro ⟨hget, hwrites, hnot⟩
    refine ⟨?_, fun _ => hget, ?_, fun h => absurd (heq ▸ List.mem_cons_self) h⟩
    · rw [List.map_cons, ← heq, List.count_cons_self, List.count_eq_zero_of_not_mem hnot]
    · intro m' hm' hkey
      rcases List.mem_cons.1 hm' with rfl | hm'
      · exact hwrites
      · exact absurd (hkey ▸ List.mem_map_of_mem hm') hnot

/-- No member has the key of a slot that is filled. -/
theorem filled_of_get_eq_some {a : slot.Value} (h : slot.get d = some a) :
    slot.Filled d members x ↔ slot.key ∉ members.map (·.1) ∧ a = slot.ofRecord x := by
  rw [← finished_of_get_eq_some h]
  constructor
  · intro hfilled
    have hnot : slot.key ∉ members.map (·.1) := by
      intro hmem
      rw [hfilled.free hmem] at h
      cases h
    exact ⟨hnot, hfilled.omitted hnot⟩
  · rintro ⟨hnot, hfinished⟩
    refine ⟨?_, fun hmem => absurd hmem hnot, ?_, fun _ => hfinished⟩
    · rw [List.count_eq_zero_of_not_mem hnot]
      omega
    · intro m hm hkey
      exact absurd (hkey ▸ List.mem_map_of_mem hm) hnot

theorem filled_congr (h : slot.get d' = slot.get d) :
    slot.Filled d' members x ↔ slot.Filled d members x := by
  rw [filled_iff, filled_iff, h, finished_congr h]

end Slot

namespace Format.Implements

variable {f : Format σ α} {slots : List (Slot σ α)}

theorem eq_of_key_eq (h : f.Implements slots) {slot slot' : Slot σ α} (hslot : slot ∈ slots)
    (hslot' : slot' ∈ slots) (hkey : slot.key = slot'.key) : slot = slot' :=
  List.inj_on_of_nodup_map h.nodup hslot hslot' hkey

/-- A field is found by its key. -/
theorem find?_fields (h : f.Implements slots) {slot : Slot σ α} (hslot : slot ∈ slots) :
    f.fields.find? (·.key.toList = slot.key.toList) = some slot.field := by
  cases hfind : f.fields.find? (·.key.toList = slot.key.toList) with
  | none =>
      rw [List.find?_eq_none, h.fields_eq] at hfind
      exact absurd (decide_eq_true rfl) (hfind slot.field (List.mem_map_of_mem hslot))
  | some field =>
      have hmem := List.mem_of_find?_eq_some hfind
      have hkey := List.find?_some hfind
      rw [h.fields_eq, List.mem_map] at hmem
      rcases hmem with ⟨slot', hslot', rfl⟩
      have heq : slot'.key = slot.key := String.toList_inj.1 (of_decide_eq_true hkey)
      rw [h.eq_of_key_eq hslot' hslot heq]

theorem find?_fields_eq_none_iff (h : f.Implements slots) {key : String} :
    f.fields.find? (·.key.toList = key.toList) = none ↔ key ∉ slots.map (·.key) := by
  rw [List.find?_eq_none, h.fields_eq, List.forall_mem_map, List.mem_map, not_exists]
  refine forall_congr' fun slot => ?_
  rw [not_and]
  exact imp_congr_right fun _ => not_congr (decide_eq_true_iff.trans String.toList_inj)

/-- What stands behind a key is read exactly where it is a colon and a value that the draft can
take. -/
theorem readMemberValue_sound (h : f.Implements slots) {d d' : σ} {key : String}
    {s rest : List Char} (hread : f.readMemberValue d key.toList s = .ok (d', rest)) :
    ∃ before after v, Blanks before ∧ Blanks after ∧ Stores slots d key v d' ∧
      s = before ++ ':' :: (after ++ v ++ rest) := by
  unfold readMemberValue at hread
  split at hread
  · rename_i field hfind
    have hmem := List.mem_of_find?_eq_some hfind
    have hkey : field.key.toList = key.toList := by simpa using List.find?_some hfind
    rw [h.fields_eq, List.mem_map] at hmem
    rcases hmem with ⟨slot, hslot, rfl⟩
    split at hread
    · cases hread
    · rename_i hset
      have hget : slot.get d = none := Option.not_isSome_iff_eq_none.1 hset
      split at hread
      · cases hread
      · rename_i r hcolon
        rcases readColon_eq_ok_iff.1 hcolon with ⟨before, hbefore, rfl⟩
        rcases Reader.map_eq_ok_iff.1 hread with ⟨a, ha, rfl⟩
        rcases slot.recognizes.sound ha with ⟨after, v, hafter, hv, rfl⟩
        exact ⟨before, after, v, hbefore, hafter,
          .known hslot (String.toList_inj.1 hkey) hget hv, rfl⟩
  · rename_i hfind
    split at hread
    · cases hread
    · rename_i r hcolon
      split at hread
      · cases hread
      · rename_i r' hskip
        simp only [Except.ok.injEq, Prod.mk.injEq] at hread
        rcases hread with ⟨rfl, rfl⟩
        rcases readColon_eq_ok_iff.1 hcolon with ⟨before, hbefore, rfl⟩
        rcases Reader.skip_recognizes.sound hskip with ⟨after, v, hafter, hv, rfl⟩
        exact ⟨before, after, v, hbefore, hafter,
          .unknown (h.find?_fields_eq_none_iff.1 hfind) hv, rfl⟩

theorem readMemberValue_complete (h : f.Implements slots) {d d' : σ} {key : String}
    {before after v rest : List Char} (hbefore : Blanks before) (hafter : Blanks after)
    (hstores : Stores slots d key v d') (hrest : Terminated rest) :
    f.readMemberValue d key.toList (before ++ ':' :: (after ++ v ++ rest)) = .ok (d', rest) := by
  have hcolon : readColon (before ++ ':' :: (after ++ v ++ rest)) = .ok (after ++ v ++ rest) :=
    readColon_eq_ok_iff.2 ⟨before, hbefore, rfl⟩
  cases hstores with
  | @known slot a hslot hkey hget hv =>
      subst hkey
      have hread := slot.recognizes.complete hafter hv hrest
      have hfree : slot.field.isSet d = false := Option.isSome_eq_false_iff.2 (hget ▸ rfl)
      simp only [readMemberValue, h.find?_fields hslot, hfree, hcolon]
      exact Reader.map_eq_ok_iff.2 ⟨a, hread, rfl⟩
  | unknown hkey hv =>
      have hskip : Reader.skip.read (after ++ v ++ rest) = .ok ((), rest) :=
        Reader.skip_recognizes.complete hafter hv hrest
      simp only [readMemberValue, h.find?_fields_eq_none_iff.2 hkey, hcolon, hskip]

/-- A member is read exactly where its key is spelled and its value can be taken. -/
theorem member_recognizes (h : f.Implements slots) (d : σ) :
    (f.member d).Recognizes fun piece d' => ∃ m : String × Member, piece = m.2.text ∧
      Spells m.2.key m.1.toList ∧ Stores slots d m.1 m.2.value d' where
  sound := by
    intro s d' rest hread
    rcases afterBlanks_eq_ok_iff.1 hread with ⟨blanks, c, r, hblanks, -, hmember, rfl⟩
    split at hmember
    · rename_i hc
      split at hmember
      · cases hmember
      · rename_i chars r' hchars
        rcases readCharacters_eq_ok_iff.1 hchars with ⟨spelling, hspells, rfl⟩
        have hname : chars = (String.ofList chars).toList := String.toList_ofList.symm
        rw [hname] at hspells hmember
        rcases h.readMemberValue_sound hmember with
          ⟨before, after, v, hbefore, hafter, hstores, rfl⟩
        let m : Member := ⟨spelling, before, after, v, hbefore, hafter⟩
        exact ⟨blanks, m.text, hblanks, ⟨(String.ofList chars, m), rfl, hspells, hstores⟩,
          by simp [m, Member.text, hc]⟩
    · cases hmember
  complete := by
    rintro blanks _ d' rest hblanks ⟨⟨key, m⟩, rfl, hspells, hstores⟩ hrest
    have hchars : readCharacters
        (m.key ++ '"' :: (m.before ++ ':' :: (m.after ++ m.value ++ rest))) =
        .ok (key.toList, m.before ++ ':' :: (m.after ++ m.value ++ rest)) :=
      readCharacters_eq_ok_iff.2 ⟨m.key, hspells, rfl⟩
    rw [List.append_assoc, m.text_append]
    refine afterBlanks_eq_ok_iff.2 ⟨blanks, '"', _, hblanks, by decide, ?_, rfl⟩
    simp only [if_true, hchars]
    exact h.readMemberValue_complete m.blanks_before m.blanks_after hstores hrest
  opens := by
    rintro _ d' ⟨m, rfl, -, -⟩
    exact Reader.opens_cons List.mem_cons_self _

/-- The first member leads to a draft that the others complete. -/
theorem exists_stores_of_fills (h : f.Implements slots) {d : σ} {m : String × Member}
    {members : List (String × Member)} {x : α} (hfills : Fills slots d (m :: members) x) :
    Spells m.2.key m.1.toList ∧
      ∃ d', Stores slots d m.1 m.2.value d' ∧ Fills slots d' members x := by
  rcases hfills with ⟨hkeys, hfilled, hunknown⟩
  rw [List.forall_mem_cons] at hkeys hunknown
  refine ⟨hkeys.1, ?_⟩
  -- A known member fills its slot, which the others then leave alone; an unknown one fills none.
  by_cases hkey : m.1 ∈ slots.map (·.key)
  · rcases List.mem_map.1 hkey with ⟨slot, hslot, hkey⟩
    rcases (Slot.filled_cons_of_eq hkey).1 (hfilled slot hslot) with ⟨hget, hwrites, hnot⟩
    refine ⟨_, .known hslot hkey hget hwrites, hkeys.2, ?_, hunknown.2⟩
    intro other hother
    by_cases heq : other.key = slot.key
    · rw [h.eq_of_key_eq hother hslot heq]
      exact (Slot.filled_of_get_eq_some (slot.get_set _ _)).2 ⟨hnot, rfl⟩
    · rw [Slot.filled_congr (h.get_set_of_ne slot hslot other hother heq _ _)]
      exact (Slot.filled_cons_of_ne (hkey ▸ heq)).1 (hfilled other hother)
  · refine ⟨d, .unknown hkey (hunknown.1 hkey), hkeys.2, ?_, hunknown.2⟩
    intro other hother
    have hne : other.key ≠ m.1 := fun heq => hkey (heq ▸ List.mem_map_of_mem hother)
    exact (Slot.filled_cons_of_ne hne).1 (hfilled other hother)

/-- A member may come first if the others complete the draft that it leads to. -/
theorem fills_of_stores (h : f.Implements slots) {d d' : σ} {m : String × Member}
    {members : List (String × Member)} {x : α} (hspells : Spells m.2.key m.1.toList)
    (hstores : Stores slots d m.1 m.2.value d') (hfills : Fills slots d' members x) :
    Fills slots d (m :: members) x := by
  rcases hfills with ⟨hkeys, hfilled, hunknown⟩
  refine ⟨List.forall_mem_cons.2 ⟨hspells, hkeys⟩, ?_, List.forall_mem_cons.2 ⟨?_, hunknown⟩⟩
  · intro other hother
    cases hstores with
    | @known slot a hslot hkey hget hv =>
        have hself := hfilled slot hslot
        rw [Slot.filled_of_get_eq_some (slot.get_set _ _)] at hself
        rcases hself with ⟨hnot, rfl⟩
        by_cases heq : other.key = slot.key
        · rw [h.eq_of_key_eq hother hslot heq]
          exact (Slot.filled_cons_of_eq hkey).2 ⟨hget, hv, hnot⟩
        · rw [Slot.filled_cons_of_ne (hkey ▸ heq),
            ← Slot.filled_congr (h.get_set_of_ne slot hslot other hother heq _ _)]
          exact hfilled other hother
    | unknown hkey _ =>
        have hne : other.key ≠ m.1 := fun heq => hkey (heq ▸ List.mem_map_of_mem hother)
        exact (Slot.filled_cons_of_ne hne).2 (hfilled other hother)
  · intro hnot
    cases hstores with
    | known hslot hkey _ _ => exact absurd (hkey ▸ List.mem_map_of_mem hslot) hnot
    | unknown _ hv => exact hv

/-- A run of members leads to a draft that is finished to a record exactly if they complete the
draft it starts from to the record. -/
theorem exists_run_members_iff (h : f.Implements slots) {d : σ}
    {members : List (String × Member)} {x : α} :
    (∃ d', Reader.Run (fun d m d' => Spells m.2.key m.1.toList ∧ Stores slots d m.1 m.2.value d')
        d members d' ∧ f.finish d' = .ok x) ↔ Fills slots d members x := by
  induction members generalizing d with
  | nil =>
      simp only [Reader.run_nil_iff, exists_eq_left, h.finish_eq_ok_iff]
      constructor
      · intro hfinished
        exact ⟨List.forall_mem_nil _, fun slot hslot => Slot.filled_nil_iff.2 (hfinished slot hslot),
          List.forall_mem_nil _⟩
      · intro hfills slot hslot
        exact Slot.filled_nil_iff.1 (hfills.filled slot hslot)
  | cons m members ih =>
      constructor
      · rintro ⟨d'', hrun, hfinish⟩
        rcases Reader.run_cons_iff.1 hrun with ⟨d', ⟨hspells, hstores⟩, hrun⟩
        exact h.fills_of_stores hspells hstores (ih.1 ⟨d'', hrun, hfinish⟩)
      · intro hfills
        rcases h.exists_stores_of_fills hfills with ⟨hspells, d', hstores, hfills⟩
        rcases ih.2 hfills with ⟨d'', hrun, hfinish⟩
        exact ⟨d'', .cons ⟨hspells, hstores⟩ hrun, hfinish⟩

/-- To complete the blank draft is to encode the record. -/
theorem fills_blank_iff (h : f.Implements slots) {members : List (String × Member)} {x : α} :
    Fills slots f.blank members x ↔ EncodesMembers (slots.map (·.toFieldRule)) members x := by
  have hkeys : (slots.map (·.toFieldRule)).map (·.key) = slots.map (·.key) := List.map_map
  constructor
  · rintro ⟨hspells, hfilled, hunknown⟩
    refine ⟨hspells, ?_, ?_, ?_, hkeys ▸ hunknown⟩
    · exact List.forall_mem_map.2 fun slot hslot => (hfilled slot hslot).once
    · exact List.forall_mem_map.2 fun slot hslot => (hfilled slot hslot).written
    · refine List.forall_mem_map.2 fun slot hslot hnot => ?_
      exact (Slot.finished_of_get_eq_none (h.get_blank slot hslot)).1
        ((hfilled slot hslot).omitted hnot)
  · rintro ⟨hspells, honce, hwritten, homitted, hunknown⟩
    refine ⟨hspells, fun slot hslot => ?_, hkeys ▸ hunknown⟩
    have hrule := List.mem_map_of_mem (f := fun slot : Slot σ α => slot.toFieldRule) hslot
    refine ⟨honce _ hrule, fun _ => h.get_blank slot hslot, hwritten _ hrule, fun hnot => ?_⟩
    exact (Slot.finished_of_get_eq_none (h.get_blank slot hslot)).2 (homitted _ hrule hnot)

/-- The object form is read exactly where members encode a record. -/
theorem readObject_eq_ok_iff (h : f.Implements slots) {s rest : List Char} {x : α} :
    f.readObject s = .ok (x, rest) ↔ ∃ (members : List (String × Member)) (body : List Char),
      Separated (members.map (·.2.text)) body ∧
        EncodesMembers (slots.map (·.toFieldRule)) members x ∧ s = body ++ '\x7d' :: rest := by
  have hfollow : Reader.Follow (fun _ => True) f.member fun d piece d' =>
      ∃ m : String × Member, piece = m.2.text ∧
        Spells m.2.key m.1.toList ∧ Stores slots d m.1 m.2.value d' :=
    ⟨fun {d} _ => h.member_recognizes d, fun _ _ => trivial⟩
  constructor
  · intro hread
    unfold readObject at hread
    split at hread
    · cases hread
    · rename_i d r hitems
      split at hread
      · rename_i x' hfinish
        simp only [Except.ok.injEq, Prod.mk.injEq] at hread
        rcases hread with ⟨rfl, rfl⟩
        rcases (Reader.enclosed_eq_ok_iff hfollow (by simp) trivial).1 hitems with
          ⟨pieces, body, hsep, hrun, rfl⟩
        rcases (Reader.run_map_iff fun m : String × Member => m.2.text).1 hrun with
          ⟨members, rfl, hmembers⟩
        exact ⟨members, body, hsep,
          h.fills_blank_iff.1 (h.exists_run_members_iff.1 ⟨d, hmembers, hfinish⟩), rfl⟩
      · cases hread
  · rintro ⟨members, body, hsep, hencodes, rfl⟩
    rcases h.exists_run_members_iff.2 (h.fills_blank_iff.2 hencodes) with ⟨d, hmembers, hfinish⟩
    have hitems : Reader.enclosed '\x7d' f.member f.blank (body ++ '\x7d' :: rest) = .ok (d, rest) :=
      (Reader.enclosed_eq_ok_iff hfollow (by simp) trivial).2
        ⟨_, body, hsep, (Reader.run_map_iff _).2 ⟨members, rfl, hmembers⟩, rfl⟩
    simp only [readObject, hitems, hfinish]

end Format.Implements

/-! ## Elements -/

theorem encodesElements_nil_iff {rules : List (FieldRule α)} {x : α} :
    EncodesElements rules [] x ↔ ∀ rule ∈ rules, rule.Omits x := by
  constructor
  · intro h
    cases h with
    | omitted homitted => exact homitted
  · exact .omitted

theorem encodesElements_cons_iff {rule : FieldRule α} {rules : List (FieldRule α)} {v : List Char}
    {elements : List (List Char)} {x : α} :
    EncodesElements (rule :: rules) (v :: elements) x ↔
      rule.Writes v x ∧ EncodesElements rules elements x := by
  constructor
  · intro h
    cases h with
    | written hv helements => exact ⟨hv, helements⟩
  · rintro ⟨hv, helements⟩
    exact .written hv helements

/-- `Puts slots state v state'`: the element `v` leads from one state of the array form, with the
fields that are left, to another. -/
inductive Puts (slots : List (Slot σ α)) : σ × List (Field σ) → List Char → σ × List (Field σ) →
    Prop where
  | mk {slot : Slot σ α} {field : Field σ} {left : List (Field σ)} {d : σ} {v : List Char}
      {a : slot.Value} : slot ∈ slots → slot.field = field → slot.Encodes v a →
      Puts slots (d, field :: left) v (slot.set d a, left)

/-- As long as the fields that are left are those of slots, elements are put into them. -/
theorem Format.follow_element (slots : List (Slot σ α)) :
    Reader.Follow (fun state => state.2 ⊆ slots.map Slot.field) Format.element (Puts slots) where
  recognizes := by
    intro state hinv
    constructor
    case sound =>
      intro s state' rest hread
      rcases state with ⟨d, _ | ⟨field, left⟩⟩
      · cases hread
      · rcases List.mem_map.1 (hinv List.mem_cons_self) with ⟨slot, hslot, rfl⟩
        rcases Reader.map_eq_ok_iff.1 hread with ⟨d', hd', rfl⟩
        rcases Reader.map_eq_ok_iff.1 hd' with ⟨a, ha, rfl⟩
        rcases slot.recognizes.sound ha with ⟨blanks, v, hblanks, hv, hs⟩
        exact ⟨blanks, v, hblanks, .mk hslot rfl hv, hs⟩
    case complete =>
      rintro blanks v _ rest hblanks ⟨hslot, rfl, hv⟩ hrest
      have hread := (Slot.recognizes _).complete hblanks hv hrest
      exact Reader.map_eq_ok_iff.2 ⟨_, Reader.map_eq_ok_iff.2 ⟨_, hread, rfl⟩, rfl⟩
    case opens =>
      rintro v _ ⟨hslot, rfl, hv⟩
      exact (Slot.recognizes _).opens hv
  keeps := by
    rintro _ v _ hinv ⟨_, _, _⟩
    exact List.subset_of_cons_subset hinv

namespace Format.Implements

variable {f : Format σ α} {slots : List (Slot σ α)}

theorem puts_cons_iff (h : f.Implements slots) {slot : Slot σ α} (hslot : slot ∈ slots)
    {left : List (Field σ)} {d : σ} {v : List Char} {state' : σ × List (Field σ)} :
    Puts slots (d, slot.field :: left) v state' ↔
      ∃ a, slot.Encodes v a ∧ state' = (slot.set d a, left) := by
  constructor
  · rintro ⟨hslot', hfield, hv⟩
    obtain rfl := h.eq_of_key_eq hslot' hslot (congrArg Field.key hfield)
    exact ⟨_, hv, rfl⟩
  · rintro ⟨a, hv, rfl⟩
    exact .mk hslot rfl hv

/-- What is put into a slot changes no other one, neither before nor behind it. -/
theorem get_set_of_split (h : f.Implements slots) {done left : List (Slot σ α)} {slot : Slot σ α}
    (hsplit : slots = done ++ slot :: left) {other : Slot σ α} (hother : other ∈ done ++ left) (d : σ)
    (a : slot.Value) : other.get (slot.set d a) = other.get d := by
  have hperm : ∀ {s}, s ∈ done ++ slot :: left ↔ s ∈ slot :: (done ++ left) :=
    List.perm_middle.mem_iff
  have hnodup := h.nodup
  rw [hsplit, List.map_append, List.map_cons, List.nodup_middle, List.nodup_cons,
    ← List.map_append] at hnodup
  refine h.get_set_of_ne slot ?_ other ?_ ?_ d a
  · exact hsplit ▸ hperm.2 List.mem_cons_self
  · exact hsplit ▸ hperm.2 (List.mem_cons_of_mem _ hother)
  · intro heq
    exact hnodup.1 (heq ▸ List.mem_map_of_mem hother)

/-- With the next slot filled, it is done like those before it. -/
theorem finished_set_iff (h : f.Implements slots) {done left : List (Slot σ α)} {slot : Slot σ α}
    (hsplit : slots = done ++ slot :: left) {d : σ} {a : slot.Value} {x : α} :
    (∀ slot' ∈ done ++ [slot], slot'.Finished (slot.set d a) x) ↔
      (∀ slot' ∈ done, slot'.Finished d x) ∧ a = slot.ofRecord x := by
  rw [List.forall_mem_append, List.forall_mem_singleton,
    Slot.finished_of_get_eq_some (slot.get_set d a)]
  refine and_congr_left fun _ => forall₂_congr fun slot' hslot' => ?_
  exact Slot.finished_congr (h.get_set_of_split hsplit (List.mem_append_left _ hslot') d a)

/-- A run of elements leads to a draft that is finished to a record exactly if they complete the
draft it starts from to the record: the slots that are done hold what the record has there, and the
elements encode those that are left. -/
theorem exists_run_elements_iff (h : f.Implements slots) {elements : List (List Char)} {x : α}
    {done left : List (Slot σ α)} (hsplit : slots = done ++ left) {d : σ}
    (hempty : ∀ slot ∈ left, slot.get d = none) :
    (∃ state', Reader.Run (Puts slots) (d, left.map Slot.field) elements state' ∧
        f.finish state'.1 = .ok x) ↔
      (∀ slot ∈ done, slot.Finished d x) ∧
        EncodesElements (left.map (·.toFieldRule)) elements x := by
  induction elements generalizing done left d with
  | nil =>
      have hleft : (∀ slot ∈ left, slot.Finished d x) ↔ ∀ slot ∈ left, slot.Omits x :=
        forall₂_congr fun slot hslot => Slot.finished_of_get_eq_none (hempty slot hslot)
      simp only [Reader.run_nil_iff, exists_eq_left, h.finish_eq_ok_iff]
      rw [hsplit, List.forall_mem_append, hleft, encodesElements_nil_iff, List.forall_mem_map]
  | cons v elements ih =>
      cases left with
      | nil =>
          constructor
          · rintro ⟨state', hrun, -⟩
            rcases Reader.run_cons_iff.1 hrun with ⟨next, hputs, -⟩
            cases hputs
          · rintro ⟨-, helements⟩
            cases helements
      | cons slot left =>
          have hslot : slot ∈ slots := hsplit ▸ List.mem_append_right _ List.mem_cons_self
          have hsplit' : slots = (done ++ [slot]) ++ left := by simp [hsplit]
          have hleft : ∀ a, ∀ slot' ∈ left, slot'.get (slot.set d a) = none := by
            intro a slot' hslot'
            rw [h.get_set_of_split hsplit (List.mem_append_right _ hslot') d a]
            exact hempty slot' (List.mem_cons_of_mem _ hslot')
          rw [List.map_cons, List.map_cons, encodesElements_cons_iff]
          constructor
          · rintro ⟨state', hrun, hfinish⟩
            rcases Reader.run_cons_iff.1 hrun with ⟨next, hputs, hrun⟩
            rcases (h.puts_cons_iff hslot).1 hputs with ⟨a, hv, rfl⟩
            rcases (ih hsplit' (hleft a)).1 ⟨state', hrun, hfinish⟩ with ⟨hall, helements⟩
            rcases (h.finished_set_iff hsplit).1 hall with ⟨hfinished, rfl⟩
            exact ⟨hfinished, hv, helements⟩
          · rintro ⟨hfinished, hv, helements⟩
            have hall := (h.finished_set_iff hsplit).2 ⟨hfinished, rfl⟩
            rcases (ih hsplit' (hleft _)).2 ⟨hall, helements⟩ with ⟨state', hrun, hfinish⟩
            exact ⟨state', .cons ((h.puts_cons_iff hslot).2 ⟨_, hv, rfl⟩) hrun, hfinish⟩

/-- The array form is read exactly where elements encode a record. -/
theorem readArray_eq_ok_iff (h : f.Implements slots) {s rest : List Char} {x : α} :
    f.readArray s = .ok (x, rest) ↔ ∃ elements body, Separated elements body ∧
      EncodesElements (slots.map (·.toFieldRule)) elements x ∧ s = body ++ ']' :: rest := by
  have hinv : f.fields ⊆ slots.map Slot.field := h.fields_eq ▸ List.Subset.refl _
  -- At first no slot is done, and all of them are left.
  have hruns : ∀ elements, (∃ state', Reader.Run (Puts slots) (f.blank, f.fields) elements state' ∧
      f.finish state'.1 = .ok x) ↔ EncodesElements (slots.map (·.toFieldRule)) elements x := by
    intro elements
    rw [h.fields_eq, h.exists_run_elements_iff (List.nil_append slots).symm h.get_blank]
    exact and_iff_right (List.forall_mem_nil _)
  constructor
  · intro hread
    unfold readArray at hread
    split at hread
    · cases hread
    · rename_i d left r hitems
      split at hread
      · rename_i x' hfinish
        simp only [Except.ok.injEq, Prod.mk.injEq] at hread
        rcases hread with ⟨rfl, rfl⟩
        rcases (Reader.enclosed_eq_ok_iff (follow_element slots) List.mem_cons_self hinv).1 hitems with
          ⟨elements, body, hsep, hrun, rfl⟩
        exact ⟨elements, body, hsep, (hruns elements).1 ⟨_, hrun, hfinish⟩, rfl⟩
      · cases hread
  · rintro ⟨elements, body, hsep, hencodes, rfl⟩
    rcases (hruns elements).2 hencodes with ⟨⟨d, left⟩, hrun, hfinish⟩
    have hitems : Reader.enclosed ']' element (f.blank, f.fields) (body ++ ']' :: rest) =
        .ok ((d, left), rest) :=
      (Reader.enclosed_eq_ok_iff (follow_element slots) List.mem_cons_self hinv).2
        ⟨elements, body, hsep, hrun, rfl⟩
    simp only [readArray, hitems, hfinish]

/-! ## Both forms -/

/-- A format recognizes the records that its slots describe. -/
theorem recognizes (h : f.Implements slots) :
    f.reader.Recognizes (EncodesRecord (slots.map (·.toFieldRule))) where
  sound := by
    intro s x rest hread
    rcases afterBlanks_eq_ok_iff.1 hread with ⟨blanks, c, r, hblanks, -, hrecord, rfl⟩
    split at hrecord
    · rename_i hc
      rcases h.readObject_eq_ok_iff.1 hrecord with ⟨members, body, hsep, hencodes, rfl⟩
      exact ⟨blanks, _, hblanks, .object hsep hencodes, by simp [hc]⟩
    split at hrecord
    · rename_i hc
      rcases h.readArray_eq_ok_iff.1 hrecord with ⟨elements, body, hsep, hencodes, rfl⟩
      exact ⟨blanks, _, hblanks, .array hsep hencodes, by simp [hc]⟩
    · cases hrecord
  complete := by
    intro blanks v x rest hblanks hv _
    cases hv with
    | @object members s _ hsep hencodes =>
        have hread : f.readObject (s ++ '\x7d' :: rest) = .ok (x, rest) :=
          h.readObject_eq_ok_iff.2 ⟨members, s, hsep, hencodes, rfl⟩
        exact afterBlanks_eq_ok_iff.2
          ⟨blanks, '\x7b', s ++ '\x7d' :: rest, hblanks, by decide, hread, by simp⟩
    | @array elements s _ hsep hencodes =>
        have hread : f.readArray (s ++ ']' :: rest) = .ok (x, rest) :=
          h.readArray_eq_ok_iff.2 ⟨elements, s, hsep, hencodes, rfl⟩
        exact afterBlanks_eq_ok_iff.2
          ⟨blanks, '[', s ++ ']' :: rest, hblanks, by decide, hread, by simp⟩
  opens := by
    intro v x hv
    cases hv with
    | object _ _ => exact Reader.opens_cons (by simp) _
    | array _ _ => exact Reader.opens_cons (by simp) _

end Format.Implements
end Nominal.Json
