import Nominal.Proofs.Json.Recognition

/-!
# Reading values of one kind

Texts (`Reader.text_recognizes`), lists (`Reader.Recognizes.list`) and optional values
(`Reader.Recognizes.nullable`) are recognized by their readers.
-/

namespace Nominal.Json

/-! ## Words and colons -/

theorem readWord_eq_ok_iff {word s rest : List Char} :
    readWord word s = .ok rest ↔ s = word ++ rest := by
  fun_induction readWord word s with
  | case1 s => simp
  | case2 => simp
  | case3 c word s ih => rw [ih, List.cons_append, List.cons.injEq, and_iff_right rfl]
  | case4 c word d s hne =>
      simp only [List.cons_append, List.cons.injEq, reduceCtorEq, false_iff, not_and]
      rintro rfl
      exact absurd rfl hne

theorem readColon_eq_ok_iff {s rest : List Char} :
    readColon s = .ok rest ↔ ∃ blanks, Blanks blanks ∧ s = blanks ++ ':' :: rest := by
  constructor
  · intro h
    rcases afterBlanks_eq_ok_iff.1 h with ⟨blanks, c, r, hblanks, -, hread, rfl⟩
    split at hread
    · rename_i hc
      cases hread
      exact ⟨blanks, hblanks, hc ▸ rfl⟩
    · cases hread
  · rintro ⟨blanks, hblanks, rfl⟩
    exact afterBlanks_eq_ok_iff.2 ⟨blanks, ':', rest, hblanks, by decide, rfl, rfl⟩

/-- What a key is followed by. -/
theorem Member.text_append (m : Member) (rest : List Char) :
    m.text ++ rest =
      '"' :: (m.key ++ '"' :: (m.before ++ ':' :: (m.after ++ m.value ++ rest))) := by
  simp [Member.text]

namespace Reader

variable {α : Type}

theorem opens_cons {c : Char} (h : c ∈ ['"', '[', '\x7b', 'n']) (s : List Char) :
    Opens (c :: s) := by
  simp only [List.mem_cons, List.not_mem_nil, or_false] at h
  rcases h with rfl | rfl | rfl | rfl <;> exact ⟨_, s, rfl, by decide, by decide, by decide⟩

/-! ## Texts -/

/-- A text is read exactly where one is spelled between quotes. -/
theorem text_recognizes : text.Recognizes EncodesText where
  sound := by
    intro s a rest h
    rcases afterBlanks_eq_ok_iff.1 h with ⟨blanks, c, r, hblanks, -, hread, rfl⟩
    split at hread
    · rename_i hc
      rcases except_map_eq_ok_iff.1 hread with ⟨⟨chars, rest'⟩, hchars, heq⟩
      simp only [Prod.mk.injEq] at heq
      rcases heq with ⟨rfl, rfl⟩
      rcases readCharacters_eq_ok_iff.1 hchars with ⟨spelling, hspells, rfl⟩
      refine ⟨blanks, _, hblanks, ⟨spelling, ?_, rfl⟩, ?_⟩
      · rw [String.toList_ofList]
        exact hspells
      · simp [hc]
    · cases hread
  complete := by
    rintro blanks v a rest hblanks ⟨spelling, hspells, rfl⟩ _
    have hchars : readCharacters (spelling ++ '"' :: rest) = .ok (a.toList, rest) :=
      readCharacters_eq_ok_iff.2 ⟨spelling, hspells, rfl⟩
    refine afterBlanks_eq_ok_iff.2
      ⟨blanks, '"', spelling ++ '"' :: rest, hblanks, by decide, ?_, by simp⟩
    rw [if_pos rfl, hchars]
    simp [Except.map]
  opens := by
    rintro v a ⟨spelling, _, rfl⟩
    exact opens_cons List.mem_cons_self _

/-! ## Lists -/

/-- The elements of a list are put in front of those that were read before them. -/
theorem run_element_iff {Encodes : Encoding α} {latest latest' : List α}
    {pieces : List (List Char)} :
    Run (fun latest v latest' => ∃ a, Encodes v a ∧ latest' = a :: latest) latest pieces latest' ↔
      ∃ l, List.Forall₂ Encodes pieces l ∧ latest' = l.reverse ++ latest := by
  induction pieces generalizing latest with
  | nil => simp [run_nil_iff]
  | cons v pieces ih =>
      simp only [run_cons_iff, ih]
      constructor
      · rintro ⟨_, ⟨a, ha, rfl⟩, l, hl, rfl⟩
        exact ⟨a :: l, .cons ha hl, by simp⟩
      · rintro ⟨_, hl, rfl⟩
        cases hl with
        | @cons _ a _ l ha hl => exact ⟨_, ⟨a, ha, rfl⟩, l, hl, by simp⟩

/-- A list is read exactly where its members are encoded as the elements of an array. -/
theorem Recognizes.list {item : Reader α} {Encodes : Encoding α} (h : item.Recognizes Encodes) :
    item.list.Recognizes (EncodesList Encodes) := by
  have hfollow : Follow (fun _ => True) item.element
      fun latest v latest' => ∃ a, Encodes v a ∧ latest' = a :: latest :=
    ⟨fun {latest} _ => h.map (· :: latest), fun _ _ => trivial⟩
  constructor
  case sound =>
    intro s a rest hread
    rcases afterBlanks_eq_ok_iff.1 hread with ⟨blanks, c, r, hblanks, -, hvalue, rfl⟩
    split at hvalue
    · rename_i hc
      split at hvalue
      · cases hvalue
      · rename_i latest rest' hitems
        simp only [Except.ok.injEq, Prod.mk.injEq] at hvalue
        rcases hvalue with ⟨rfl, rfl⟩
        rcases (enclosed_eq_ok_iff hfollow List.mem_cons_self trivial).1 hitems with
          ⟨pieces, body, hsep, hrun, rfl⟩
        rcases run_element_iff.1 hrun with ⟨l, hl, rfl⟩
        refine ⟨blanks, _, hblanks, ⟨pieces, body, hsep, ?_, rfl⟩, ?_⟩
        · simpa using hl
        · simp [hc]
    · cases hvalue
  case complete =>
    rintro blanks v l rest hblanks ⟨pieces, body, hsep, hl, rfl⟩ _
    have hrun : Run _ [] pieces (l.reverse ++ []) := run_element_iff.2 ⟨l, hl, rfl⟩
    have hitems : enclosed ']' item.element [] (body ++ ']' :: rest) = _ :=
      (enclosed_eq_ok_iff hfollow List.mem_cons_self trivial).2 ⟨pieces, body, hsep, hrun, rfl⟩
    refine afterBlanks_eq_ok_iff.2
      ⟨blanks, '[', body ++ ']' :: rest, hblanks, by decide, ?_, by simp⟩
    simp [hitems]
  case opens =>
    rintro v l ⟨pieces, body, _, _, rfl⟩
    exact opens_cons (by simp) _

/-! ## Optional values -/

/-- An optional value is read exactly where `null` or the value is encoded, if no value begins like
`null`. -/
theorem Recognizes.nullable {value : Reader α} {Encodes : Encoding α}
    (h : value.Recognizes Encodes) (hn : ∀ v a, Encodes v a → v.head? ≠ some 'n') :
    value.nullable.Recognizes (EncodesNullable Encodes) where
  sound := by
    intro s a rest hread
    rcases afterBlanks_eq_ok_iff.1 hread with ⟨blanks, c, r, hblanks, -, hvalue, rfl⟩
    split at hvalue
    · rename_i hc
      rcases except_map_eq_ok_iff.1 hvalue with ⟨r', hword, heq⟩
      simp only [Prod.mk.injEq] at heq
      rcases heq with ⟨rfl, rfl⟩
      refine ⟨blanks, _, hblanks, rfl, ?_⟩
      rw [readWord_eq_ok_iff.1 hword]
      simp [hc]
    · rcases map_eq_ok_iff.1 hvalue with ⟨a', ha', rfl⟩
      rcases h.sound ha' with ⟨blanks', v, hblanks', hv, hr⟩
      refine ⟨blanks ++ blanks', v, hblanks.append hblanks', hv, ?_⟩
      rw [hr]
      simp
  complete := by
    intro blanks v a rest hblanks hv hrest
    cases a with
    | none =>
        obtain rfl : v = ['n', 'u', 'l', 'l'] := hv
        have hword : readWord ['u', 'l', 'l'] ('u' :: 'l' :: 'l' :: rest) = .ok rest :=
          readWord_eq_ok_iff.2 rfl
        refine afterBlanks_eq_ok_iff.2
          ⟨blanks, 'n', 'u' :: 'l' :: 'l' :: rest, hblanks, by decide, ?_, by simp⟩
        rw [if_pos rfl, hword]
        rfl
    | some a =>
        have hv' : Encodes v a := hv
        have hread := h.complete .nil hv' hrest
        have hhead := hn v a hv'
        rcases h.opens hv' with ⟨c, r, rfl, hblank, -⟩
        have hne : c ≠ 'n' := by
          rintro rfl
          exact hhead rfl
        refine afterBlanks_eq_ok_iff.2 ⟨blanks, c, r ++ rest, hblanks, hblank, ?_, by simp⟩
        rw [if_neg hne]
        exact map_eq_ok_iff.2 ⟨a, hread, rfl⟩
  opens := by
    intro v a hv
    cases a with
    | none =>
        obtain rfl : v = ['n', 'u', 'l', 'l'] := hv
        exact opens_cons (by simp) _
    | some a => exact h.opens hv

end Reader
end Nominal.Json
