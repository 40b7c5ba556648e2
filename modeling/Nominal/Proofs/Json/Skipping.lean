import Nominal.Proofs.Json.Numerals
import Nominal.Proofs.Json.Values

/-!
# Skipping values of any kind

What can be skipped is any JSON value (`Reader.skip_recognizes`). The reader counts how deep
brackets are nested, so there are two steps: what it skips at a given depth is a value nested less
deep (`Reader.skipped_recognizes`), and no value is nested deeper than its text is long
(`AnyValue.within`).
-/

namespace Nominal.Json

/-! ## Scalars -/

/-- A numeral begins with a sign or a digit. -/
theorem IsNumeral.exists_cons {v : List Char} (h : IsNumeral v) :
    ∃ c s, v = c :: s ∧ (c = '-' ∨ c.isDigit = true) := by
  rcases h with @⟨sign, whole, _, _, hsign, hwhole, -, -, -⟩
  simp only [List.mem_cons, List.not_mem_nil, or_false] at hsign
  rcases hsign with rfl | rfl
  · cases whole with
    | nil => exact absurd rfl hwhole.1
    | cons c whole => exact ⟨c, _, rfl, .inr (hwhole.2 c List.mem_cons_self)⟩
  · exact ⟨'-', _, rfl, .inl rfl⟩

/-- A scalar is told by its first character. -/
theorem IsScalar.exists_cons {v : List Char} (h : IsScalar v) :
    ∃ c s, v = c :: s ∧ (c ∈ ['n', 't', 'f', '-'] ∨ c.isDigit = true) := by
  cases h with
  | word h =>
      simp only [List.mem_cons, List.not_mem_nil, or_false] at h
      rcases h with rfl | rfl | rfl <;> exact ⟨_, _, rfl, .inl (by simp)⟩
  | numeral h =>
      rcases h.exists_cons with ⟨c, s, rfl, rfl | hc⟩
      · exact ⟨'-', s, rfl, .inl (by simp)⟩
      · exact ⟨c, s, rfl, .inr hc⟩

/-- The first character of a scalar is none that stands for something else. -/
theorem ne_of_scalar {c d : Char} (hc : c ∈ ['n', 't', 'f', '-'] ∨ c.isDigit = true)
    (hd : d ∈ [' ', '\n', '\r', '\t', '"', '[', ']', '\x7b', '\x7d']) : c ≠ d := by
  rintro rfl
  simp only [List.mem_cons, List.not_mem_nil, or_false] at hd
  rcases hd with rfl | rfl | rfl | rfl | rfl | rfl | rfl | rfl | rfl <;> revert hc <;> decide

theorem IsScalar.opens {v : List Char} (h : IsScalar v) : Opens v := by
  rcases h.exists_cons with ⟨c, s, rfl, hc⟩
  have hblank : isBlank c = false := by
    rw [← Bool.not_eq_true, isBlank_iff]
    intro hmem
    exact ne_of_scalar hc (List.mem_append_left _ hmem) rfl
  exact ⟨c, s, rfl, hblank, ne_of_scalar hc (by simp), ne_of_scalar hc (by simp)⟩

theorem skipScalar_sound {s rest : List Char} (h : skipScalar s = .ok rest) :
    ∃ v, IsScalar v ∧ s = v ++ rest := by
  unfold skipScalar at h
  split at h
  · exact ⟨_, .word (.head _), congrArg ('n' :: ·) (readWord_eq_ok_iff.1 h)⟩
  · exact ⟨_, .word (.tail _ (.head _)), congrArg ('t' :: ·) (readWord_eq_ok_iff.1 h)⟩
  · exact ⟨_, .word (.tail _ (.tail _ (.head _))), congrArg ('f' :: ·) (readWord_eq_ok_iff.1 h)⟩
  · split at h
    · rcases except_map_eq_ok_iff.1 h with ⟨⟨v, rest'⟩, hread, rfl⟩
      rcases Numeral.read_sound hread with ⟨numeral, hnumeral, hs⟩
      exact ⟨numeral, .numeral hnumeral, hs⟩
    · cases h
  · cases h

/-- What begins like a numeral is skipped as one. -/
theorem skipScalar_cons {c : Char} (h : c = '-' ∨ c.isDigit = true) (s : List Char) :
    skipScalar (c :: s) = skipNumeral (c :: s) := by
  unfold skipScalar
  split
  case h_4 heq =>
    simp only [List.cons.injEq] at heq
    rcases heq with ⟨rfl, rfl⟩
    rw [if_pos h]
  all_goals
    rename_i heq
    simp only [List.cons.injEq, reduceCtorEq] at heq
  all_goals
    rw [heq.1] at h
    exact absurd h (by decide)

theorem skipScalar_complete {v rest : List Char} (h : IsScalar v) (hrest : Terminated rest) :
    skipScalar (v ++ rest) = .ok rest := by
  cases h with
  | word h =>
      simp only [List.mem_cons, List.not_mem_nil, or_false] at h
      rcases h with rfl | rfl | rfl <;> exact readWord_eq_ok_iff.2 rfl
  | numeral h =>
      rcases Numeral.read_complete .malformed h hrest with ⟨n, hread⟩
      rcases h.exists_cons with ⟨c, s, rfl, hc⟩
      rw [List.cons_append, skipScalar_cons hc, ← List.cons_append]
      exact except_map_eq_ok_iff.2 ⟨_, hread, rfl⟩

/-! ## Nesting -/

/-- `ValueWithin depth v`: the text `v` is a JSON value in which brackets are nested less than
`depth` deep. -/
inductive ValueWithin : Nat → List Char → Prop where
  | scalar {depth : Nat} {v : List Char} : IsScalar v → ValueWithin (depth + 1) v
  | text {depth : Nat} {s : List Char} : Skippable s → ValueWithin (depth + 1) ('"' :: s ++ ['"'])
  | array {depth : Nat} {elements : List (List Char)} {s : List Char} : Separated elements s →
      (∀ v ∈ elements, ValueWithin depth v) → ValueWithin (depth + 1) ('[' :: s ++ [']'])
  | object {depth : Nat} {members : List Member} {s : List Char} :
      Separated (members.map Member.text) s → (∀ m ∈ members, Skippable m.key) →
      (∀ m ∈ members, ValueWithin depth m.value) →
      ValueWithin (depth + 1) ('\x7b' :: s ++ ['\x7d'])

theorem ValueWithin.anyValue {depth : Nat} {v : List Char} (h : ValueWithin depth v) :
    AnyValue v := by
  induction h with
  | scalar h => exact .scalar h
  | text h => exact .text h
  | array hsep _ ih => exact .array hsep ih
  | object hsep hkeys _ ih => exact .object hsep hkeys ih

theorem ValueWithin.opens {depth : Nat} {v : List Char} (h : ValueWithin depth v) : Opens v := by
  cases h with
  | scalar h => exact h.opens
  | text _ => exact Reader.opens_cons (by simp) _
  | array _ _ => exact Reader.opens_cons (by simp) _
  | object _ _ _ => exact Reader.opens_cons (by simp) _

/-- A piece is not longer than all of what it stands in. -/
theorem Separated.length_le {pieces : List (List Char)} {piece s : List Char}
    (hsep : Separated pieces s) (h : piece ∈ pieces) : piece.length ≤ s.length := by
  induction hsep with
  | none _ => cases h
  | one _ _ _ =>
      obtain rfl := List.mem_singleton.1 h
      simp only [List.length_append]
      omega
  | more _ _ _ _ ih =>
      rcases List.mem_cons.1 h with rfl | h
      · simp only [List.length_append]
        omega
      · have := ih h
        simp only [List.length_append, List.length_cons]
        omega

theorem Member.length_value_lt (m : Member) : m.value.length < m.text.length := by
  simp only [Member.text, List.length_append, List.length_cons]
  omega

/-- No value is nested deeper than its text is long. -/
theorem AnyValue.within {v : List Char} (h : AnyValue v) :
    ∀ depth, v.length ≤ depth → ValueWithin (depth + 1) v := by
  induction h with
  | scalar h => exact fun _ _ => .scalar h
  | text h => exact fun _ _ => .text h
  | @array elements s hsep _ ih =>
      intro depth hdepth
      refine .array hsep fun v hv => ?_
      have hlength := hsep.length_le hv
      simp only [List.length_append, List.length_cons] at hdepth
      -- The brackets around the elements make room for one more level.
      cases depth with
      | zero => omega
      | succ depth => exact ih v hv depth (by omega)
  | @object members s hsep hkeys _ ih =>
      intro depth hdepth
      refine .object hsep hkeys fun m hm => ?_
      have hlength := hsep.length_le (List.mem_map_of_mem hm)
      have hvalue := m.length_value_lt
      simp only [List.length_append, List.length_cons] at hdepth
      cases depth with
      | zero => omega
      | succ depth => exact ih m hm depth (by omega)

/-! ## The reader -/

namespace Reader

/-- What is skipped leaves no trace, so a run is any number of steps. -/
theorem run_skipped_iff {α : Type} {P : α → Prop} {items : List α} {state : Unit} :
    Run (fun _ a _ => P a) state items () ↔ ∀ a ∈ items, P a := by
  induction items with
  | nil => simp [run_nil_iff]
  | cons a items ih => simp [run_cons_iff, ih]

/-- A member is skipped exactly where its value is. -/
theorem skippedMember_recognizes {value : Reader Unit} {P : List Char → Prop}
    (h : value.Recognizes fun v _ => P v) :
    (skippedMember value).Recognizes
      fun piece _ => ∃ m : Member, piece = m.text ∧ Skippable m.key ∧ P m.value where
  sound := by
    intro s _ rest hread
    rcases afterBlanks_eq_ok_iff.1 hread with ⟨blanks, c, r, hblanks, -, hmember, rfl⟩
    split at hmember
    · rename_i hc
      split at hmember
      · cases hmember
      · rename_i afterKey hkey
        rcases skipCharacters_eq_ok_iff.1 hkey with ⟨key, hskippable, rfl⟩
        split at hmember
        · cases hmember
        · rename_i afterColon hcolon
          rcases readColon_eq_ok_iff.1 hcolon with ⟨before, hbefore, rfl⟩
          rcases h.sound hmember with ⟨after, v, hafter, hv, rfl⟩
          let m : Member := ⟨key, before, after, v, hbefore, hafter⟩
          exact ⟨blanks, m.text, hblanks, ⟨m, rfl, hskippable, hv⟩, by simp [m, Member.text, hc]⟩
    · cases hmember
  complete := by
    rintro blanks _ ⟨⟩ rest hblanks ⟨m, rfl, hskippable, hv⟩ hrest
    have hkey : skipCharacters (m.key ++ '"' :: (m.before ++ ':' :: (m.after ++ m.value ++ rest))) =
        .ok (m.before ++ ':' :: (m.after ++ m.value ++ rest)) :=
      skipCharacters_eq_ok_iff.2 ⟨m.key, hskippable, rfl⟩
    have hcolon : readColon (m.before ++ ':' :: (m.after ++ m.value ++ rest)) =
        .ok (m.after ++ m.value ++ rest) :=
      readColon_eq_ok_iff.2 ⟨m.before, m.blanks_before, rfl⟩
    rw [List.append_assoc, m.text_append]
    refine afterBlanks_eq_ok_iff.2 ⟨blanks, '"', _, hblanks, by decide, ?_, rfl⟩
    simp only [if_true, hkey, hcolon]
    exact h.complete m.blanks_after hv hrest
  opens := by
    rintro _ ⟨⟩ ⟨m, rfl, -, -⟩
    exact opens_cons List.mem_cons_self _

section Depth

variable {depth : Nat}

/-- Elements are skipped one by one, each of them less deep. -/
theorem follow_skipped (h : (skipped depth).Recognizes fun v _ => ValueWithin depth v) :
    Follow (fun _ => True) (fun _ => skipped depth) fun _ v _ => ValueWithin depth v :=
  ⟨fun _ => h, fun _ _ => trivial⟩

/-- So are members. -/
theorem follow_skippedMember (h : (skipped depth).Recognizes fun v _ => ValueWithin depth v) :
    Follow (fun _ => True) (fun _ => skippedMember (skipped depth)) fun _ piece _ =>
      ∃ m : Member, piece = m.text ∧ Skippable m.key ∧ ValueWithin depth m.value :=
  ⟨fun _ => skippedMember_recognizes h, fun _ _ => trivial⟩

theorem skipped_succ_sound (ih : (skipped depth).Recognizes fun v _ => ValueWithin depth v)
    {s rest : List Char} (h : (skipped (depth + 1)).read s = .ok ((), rest)) :
    ∃ blanks v, Blanks blanks ∧ ValueWithin (depth + 1) v ∧ s = blanks ++ v ++ rest := by
  rcases afterBlanks_eq_ok_iff.1 h with ⟨blanks, c, r, hblanks, -, hvalue, rfl⟩
  split at hvalue
  · rename_i hc
    rcases except_map_eq_ok_iff.1 hvalue with ⟨rest', hskip, heq⟩
    simp only [Prod.mk.injEq, true_and] at heq
    rcases skipCharacters_eq_ok_iff.1 hskip with ⟨spelling, hskippable, rfl⟩
    exact ⟨blanks, _, hblanks, .text hskippable, by simp [hc, heq]⟩
  split at hvalue
  · rename_i hc
    rcases (enclosed_eq_ok_iff (follow_skipped ih) List.mem_cons_self trivial).1 hvalue with
      ⟨pieces, body, hsep, hrun, rfl⟩
    exact ⟨blanks, _, hblanks, .array hsep (run_skipped_iff.1 hrun), by simp [hc]⟩
  split at hvalue
  · rename_i hc
    rcases (enclosed_eq_ok_iff (follow_skippedMember ih) (by simp) trivial).1 hvalue with
      ⟨pieces, body, hsep, hrun, rfl⟩
    rcases (run_map_iff Member.text).1 hrun with ⟨members, rfl, hmembers⟩
    have hall := run_skipped_iff.1 hmembers
    exact ⟨blanks, _, hblanks, .object hsep (fun m hm => (hall m hm).1)
      (fun m hm => (hall m hm).2), by simp [hc]⟩
  · rcases except_map_eq_ok_iff.1 hvalue with ⟨rest', hskip, heq⟩
    simp only [Prod.mk.injEq, true_and] at heq
    rcases skipScalar_sound hskip with ⟨v, hv, hs⟩
    exact ⟨blanks, v, hblanks, .scalar hv, by simp [hs, heq]⟩

theorem skipped_succ_complete (ih : (skipped depth).Recognizes fun v _ => ValueWithin depth v)
    {blanks v rest : List Char} (hblanks : Blanks blanks) (hv : ValueWithin (depth + 1) v)
    (hrest : Terminated rest) : (skipped (depth + 1)).read (blanks ++ v ++ rest) = .ok ((), rest) := by
  cases hv with
  | scalar hv =>
      have hskip := skipScalar_complete hv hrest
      have hopens := hv.opens
      rcases hv.exists_cons with ⟨c, r, rfl, hc⟩
      rcases hopens with ⟨_, _, heq, hblank, -⟩
      refine afterBlanks_eq_ok_iff.2 ⟨blanks, c, r ++ rest, hblanks, ?_, ?_, by simp⟩
      · rw [(List.cons.inj heq).1]
        exact hblank
      -- Neither a quote nor a bracket comes first, so what is left to skip is a scalar.
      · rw [if_neg (ne_of_scalar hc (by simp)), if_neg (ne_of_scalar hc (by simp)),
          if_neg (ne_of_scalar hc (by simp))]
        exact except_map_eq_ok_iff.2 ⟨rest, hskip, rfl⟩
  | @text _ s hskippable =>
      have hskip : skipCharacters (s ++ '"' :: rest) = .ok rest :=
        skipCharacters_eq_ok_iff.2 ⟨s, hskippable, rfl⟩
      exact afterBlanks_eq_ok_iff.2 ⟨blanks, '"', s ++ '"' :: rest, hblanks, by decide,
        except_map_eq_ok_iff.2 ⟨rest, hskip, rfl⟩, by simp⟩
  | @array _ elements s hsep hall =>
      have hitems : enclosed ']' (fun _ => skipped depth) () (s ++ ']' :: rest) = .ok ((), rest) :=
        (enclosed_eq_ok_iff (follow_skipped ih) List.mem_cons_self trivial).2
          ⟨elements, s, hsep, run_skipped_iff.2 hall, rfl⟩
      exact afterBlanks_eq_ok_iff.2
        ⟨blanks, '[', s ++ ']' :: rest, hblanks, by decide, hitems, by simp⟩
  | @object _ members s hsep hkeys hall =>
      have hrun : Run (fun _ m _ => Skippable m.key ∧ ValueWithin depth m.value) () members () :=
        run_skipped_iff.2 fun m hm => ⟨hkeys m hm, hall m hm⟩
      have hitems : enclosed '\x7d' (fun _ => skippedMember (skipped depth)) ()
          (s ++ '\x7d' :: rest) = .ok ((), rest) :=
        (enclosed_eq_ok_iff (follow_skippedMember ih) (by simp) trivial).2
          ⟨_, s, hsep, (run_map_iff Member.text).2 ⟨members, rfl, hrun⟩, rfl⟩
      exact afterBlanks_eq_ok_iff.2
        ⟨blanks, '\x7b', s ++ '\x7d' :: rest, hblanks, by decide, hitems, by simp⟩

end Depth

/-- At every depth, what is skipped is a value that is nested less deep. -/
theorem skipped_recognizes (depth : Nat) :
    (skipped depth).Recognizes fun v _ => ValueWithin depth v := by
  induction depth with
  | zero => exact ⟨(fun h => nomatch h), (fun _ h => nomatch h), (fun h => nomatch h)⟩
  | succ depth ih =>
      exact ⟨skipped_succ_sound ih, skipped_succ_complete ih, ValueWithin.opens⟩

/-- What is skipped is any JSON value. -/
theorem skip_recognizes : skip.Recognizes fun v _ => AnyValue v where
  sound := by
    intro s _ rest h
    rcases (skipped_recognizes (s.length + 1)).sound h with ⟨blanks, v, hblanks, hv, hs⟩
    exact ⟨blanks, v, hblanks, hv.anyValue, hs⟩
  complete := by
    intro blanks v _ rest hblanks hv hrest
    have hwithin := hv.within (blanks ++ v ++ rest).length (by simp only [List.length_append]; omega)
    exact (skipped_recognizes _).complete hblanks hwithin hrest
  opens h := (h.within _ le_rfl).opens

end Reader
end Nominal.Json
