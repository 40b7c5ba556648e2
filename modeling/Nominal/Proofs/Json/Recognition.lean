import Mathlib.Data.List.TakeWhile
import Mathlib.Tactic.Tauto
import Nominal.Json.Value
import Nominal.Proofs.Json.Texts

/-!
# Readers that recognize an encoding

A reader recognizes an encoding if it succeeds exactly on the texts of its values, and leaves what
stands behind them (`Reader.Recognizes`). What is enclosed by brackets is read item by item, so a
reader of items that recognizes what one item does to the state recognizes what all of them do
(`Reader.enclosed_eq_ok_iff`).
-/

namespace Nominal.Json

/-! ## Blanks -/

theorem isBlank_iff {c : Char} : isBlank c = true ↔ c ∈ [' ', '\n', '\r', '\t'] := by
  simp [isBlank, or_assoc]

theorem Blanks.nil : Blanks [] := fun _ h => nomatch h

theorem Blanks.append {s s' : List Char} (h : Blanks s) (h' : Blanks s') : Blanks (s ++ s') := by
  intro c hc
  rcases List.mem_append.1 hc with hc | hc
  · exact h c hc
  · exact h' c hc

/-- Blanks in front of a text are skipped. -/
theorem skipBlanks_append {blanks : List Char} (h : Blanks blanks) (s : List Char) :
    skipBlanks (blanks ++ s) = skipBlanks s :=
  List.dropWhile_append_of_pos fun c hc => isBlank_iff.2 (h c hc)

/-- Blanks are skipped up to the next other character. -/
theorem skipBlanks_append_cons {blanks : List Char} (h : Blanks blanks) {c : Char}
    (hc : isBlank c = false) (s : List Char) : skipBlanks (blanks ++ c :: s) = c :: s := by
  rw [skipBlanks_append h, skipBlanks, List.dropWhile_cons_of_neg (by simp [hc])]

/-- What is skipped is blanks. -/
theorem exists_blanks_append_skipBlanks (s : List Char) :
    ∃ blanks, Blanks blanks ∧ s = blanks ++ skipBlanks s := by
  refine ⟨s.takeWhile isBlank, ?_, List.takeWhile_append_dropWhile.symm⟩
  intro c hc
  exact isBlank_iff.1 (List.mem_takeWhile_imp hc)

/-- A text of which nothing is left consists of blanks. -/
theorem skipBlanks_eq_nil_iff {s : List Char} : skipBlanks s = [] ↔ Blanks s := by
  rw [skipBlanks, List.dropWhile_eq_nil_iff]
  exact forall_congr' fun c => imp_congr_right fun _ => isBlank_iff

/-- What is read from the first character behind the blanks. Most readers are of this form. -/
def afterBlanks {β : Type} (read : Char → List Char → Except Fault β) (s : List Char) :
    Except Fault β :=
  match skipBlanks s with
  | [] => .error .truncated
  | c :: rest => read c rest

theorem afterBlanks_eq_ok_iff {β : Type} {read : Char → List Char → Except Fault β}
    {s : List Char} {b : β} :
    afterBlanks read s = .ok b ↔ ∃ blanks c rest, Blanks blanks ∧ isBlank c = false ∧
      read c rest = .ok b ∧ s = blanks ++ c :: rest := by
  constructor
  · intro h
    rcases exists_blanks_append_skipBlanks s with ⟨blanks, hblanks, hs⟩
    have hhead := List.head?_dropWhile_not isBlank s
    unfold afterBlanks at h
    split at h
    · cases h
    · rename_i c rest hskip
      rw [← skipBlanks, hskip] at hhead
      exact ⟨blanks, c, rest, hblanks, by simpa using hhead, h, hskip ▸ hs⟩
  · rintro ⟨blanks, c, rest, hblanks, hc, h, rfl⟩
    rw [afterBlanks, skipBlanks_append_cons hblanks hc]
    exact h

/-! ## Where values begin and end -/

theorem isBlank_close {close : Char} (h : close ∈ [']', '\x7d']) : isBlank close = false := by
  simp only [List.mem_cons, List.not_mem_nil, or_false] at h
  rcases h with rfl | rfl <;> decide

/-- `Opens v`: the text `v` begins with the first character of a value. -/
def Opens (v : List Char) : Prop :=
  ∃ c s, v = c :: s ∧ isBlank c = false ∧ c ≠ ']' ∧ c ≠ '\x7d'

/-- `Terminated s`: where `s` begins, the value before it has ended. -/
def Terminated (s : List Char) : Prop :=
  ∀ c ∈ s.head?, c ∈ [' ', '\n', '\r', '\t', ',', ']', '\x7d']

/-- Blanks are skipped up to a value. -/
theorem Opens.skipBlanks_append {blanks v : List Char} (hv : Opens v) (h : Blanks blanks)
    (rest : List Char) : skipBlanks (blanks ++ v ++ rest) = v ++ rest := by
  rcases hv with ⟨c, s, rfl, hc, -, -⟩
  rw [List.append_assoc, List.cons_append, skipBlanks_append_cons h hc]

theorem Terminated.cons {c : Char} (h : c ∈ [',', ']', '\x7d']) (s : List Char) :
    Terminated (c :: s) := by
  intro c' hc'
  rw [List.head?_cons, Option.mem_some_iff] at hc'
  subst hc'
  simp only [List.mem_cons, List.not_mem_nil, or_false] at h ⊢
  tauto

/-- Where blanks begin, a value has ended, too. -/
theorem Terminated.blanks_append {blanks s : List Char} (h : Blanks blanks) (hs : Terminated s) :
    Terminated (blanks ++ s) := by
  cases blanks with
  | nil => exact hs
  | cons b blanks =>
      intro c hc
      rw [List.cons_append, List.head?_cons, Option.mem_some_iff] at hc
      subst hc
      have hb := h b List.mem_cons_self
      simp only [List.mem_cons, List.not_mem_nil, or_false] at hb ⊢
      tauto

theorem Terminated.of_blanks {blanks : List Char} (h : Blanks blanks) : Terminated blanks := by
  have hnil : Terminated [] := fun _ hc => nomatch hc
  have happend := hnil.blanks_append h
  rwa [List.append_nil] at happend

/-! ## Recognition -/

/-- `reader.Recognizes Encodes`: the reader takes a value exactly off the texts that encode it. The
value may stand behind blanks, and has to have ended where the rest begins. -/
structure Reader.Recognizes {α : Type} (reader : Reader α) (Encodes : Encoding α) : Prop where
  sound : ∀ {s a rest}, reader.read s = .ok (a, rest) →
    ∃ blanks v, Blanks blanks ∧ Encodes v a ∧ s = blanks ++ v ++ rest
  complete : ∀ {blanks v a rest}, Blanks blanks → Encodes v a → Terminated rest →
    reader.read (blanks ++ v ++ rest) = .ok (a, rest)
  opens : ∀ {v a}, Encodes v a → Opens v

namespace Reader

variable {α β σ : Type}

theorem map_eq_ok_iff {f : α → β} {reader : Reader α} {s rest : List Char} {b : β} :
    (reader.map f).read s = .ok (b, rest) ↔ ∃ a, reader.read s = .ok (a, rest) ∧ b = f a := by
  simp only [map]
  cases reader.read s with
  | error fault => simp
  | ok p =>
      rcases p with ⟨a, rest'⟩
      simp only [Except.ok.injEq, Prod.mk.injEq]
      constructor
      · rintro ⟨rfl, rfl⟩
        exact ⟨a, ⟨rfl, rfl⟩, rfl⟩
      · rintro ⟨a', ⟨rfl, rfl⟩, rfl⟩
        exact ⟨rfl, rfl⟩

/-- A changed value is encoded as the value was. -/
theorem Recognizes.map {reader : Reader α} {Encodes : Encoding α} (h : reader.Recognizes Encodes)
    (f : α → β) : (reader.map f).Recognizes fun v b => ∃ a, Encodes v a ∧ b = f a where
  sound hread := by
    rcases map_eq_ok_iff.1 hread with ⟨a, ha, rfl⟩
    rcases h.sound ha with ⟨blanks, v, hblanks, hv, hs⟩
    exact ⟨blanks, v, hblanks, ⟨a, hv, rfl⟩, hs⟩
  complete := by
    rintro blanks v _ rest hblanks ⟨a, hv, rfl⟩ hrest
    exact map_eq_ok_iff.2 ⟨a, h.complete hblanks hv hrest, rfl⟩
  opens := by
    rintro v _ ⟨a, hv, rfl⟩
    exact h.opens hv

/-! ## What brackets enclose -/

/-- `Run Step state items state'`: one step for each of the items leads from `state` to `state'`. -/
inductive Run (Step : σ → α → σ → Prop) : σ → List α → σ → Prop where
  | nil (state : σ) : Run Step state [] state
  | cons {state state' state'' : σ} {a : α} {items : List α} :
      Step state a state' → Run Step state' items state'' → Run Step state (a :: items) state''

theorem run_nil_iff {Step : σ → α → σ → Prop} {state state' : σ} :
    Run Step state [] state' ↔ state' = state := by
  constructor
  · intro h
    cases h with
    | nil => rfl
  · rintro rfl
    exact .nil _

theorem run_cons_iff {Step : σ → α → σ → Prop} {state state'' : σ} {a : α} {items : List α} :
    Run Step state (a :: items) state'' ↔
      ∃ state', Step state a state' ∧ Run Step state' items state'' := by
  constructor
  · intro h
    cases h with
    | cons hstep hrun => exact ⟨_, hstep, hrun⟩
  · rintro ⟨state', hstep, hrun⟩
    exact .cons hstep hrun

/-- Steps that are made by the text of an item are steps of the items. -/
theorem run_map_iff (text : α → β) {Step : σ → α → σ → Prop} {state state' : σ}
    {pieces : List β} :
    Run (fun state piece state' => ∃ a, piece = text a ∧ Step state a state') state pieces state' ↔
      ∃ items, pieces = items.map text ∧ Run Step state items state' := by
  induction pieces generalizing state with
  | nil => simp [run_nil_iff]
  | cons piece pieces ih =>
      simp only [run_cons_iff, ih]
      constructor
      · rintro ⟨next, ⟨a, rfl, hstep⟩, items, rfl, hrun⟩
        exact ⟨a :: items, rfl, .cons hstep hrun⟩
      · rintro ⟨items, hmap, hrun⟩
        rcases List.map_eq_cons_iff.1 hmap.symm with ⟨a, items, rfl, rfl, rfl⟩
        rcases run_cons_iff.1 hrun with ⟨next, hstep, hrun⟩
        exact ⟨next, ⟨a, rfl, hstep⟩, items, rfl, hrun⟩

/-- `Follow Inv item Step`: in every state that has the invariant, the item reader recognizes the
steps to the next state, which has the invariant again. -/
structure Follow (Inv : σ → Prop) (item : σ → Reader σ) (Step : σ → List Char → σ → Prop) :
    Prop where
  recognizes : ∀ {state}, Inv state → (item state).Recognizes (Step state)
  keeps : ∀ {state piece state'}, Inv state → Step state piece state' → Inv state'

section Items

variable {Inv : σ → Prop} {item : σ → Reader σ} {Step : σ → List Char → σ → Prop} {close : Char}

/-- Items that were read stand there with commas between them. -/
theorem items_sound (hfollow : Follow Inv item Step) {state state' : σ} {s rest : List Char}
    (hinv : Inv state) (h : items close item state s = .ok (state', rest)) :
    ∃ piece pieces body, Separated (piece :: pieces) body ∧
      Run Step state (piece :: pieces) state' ∧ s = body ++ close :: rest := by
  -- The induction follows the loop: the third case is the last item, the fourth one of the others.
  fun_induction items close item state s with
  | case1 => cases h
  | case2 => cases h
  | case3 state s next r hread rest' hskip =>
      simp only [Except.ok.injEq, Prod.mk.injEq] at h
      rcases h with ⟨rfl, rfl⟩
      rcases (hfollow.recognizes hinv).sound hread with ⟨before, piece, hbefore, hstep, hs⟩
      rcases exists_blanks_append_skipBlanks r with ⟨after, hafter, hr⟩
      refine ⟨piece, [], _, .one piece hbefore hafter, .cons hstep (.nil _), ?_⟩
      rw [hs, hr, hskip]
      simp
  | case4 state s next r hread rest' hskip _ _ ih =>
      rcases (hfollow.recognizes hinv).sound hread with ⟨before, piece, hbefore, hstep, hs⟩
      rcases exists_blanks_append_skipBlanks r with ⟨after, hafter, hr⟩
      rcases ih (hfollow.keeps hinv hstep) h with ⟨piece', pieces, body, hsep, hrun, hrest'⟩
      refine ⟨piece, piece' :: pieces, _, .more piece hbefore hafter hsep, .cons hstep hrun, ?_⟩
      rw [hs, hr, hskip, hrest']
      simp
  | case5 => cases h

/-- Items with commas between them are read one after the other. -/
theorem items_complete (hfollow : Follow Inv item Step) (hclose : close ∈ [']', '\x7d'])
    {state state' : σ} {piece : List Char} {pieces : List (List Char)} {body : List Char}
    (hinv : Inv state) (hsep : Separated (piece :: pieces) body)
    (hrun : Run Step state (piece :: pieces) state') (rest : List Char) :
    items close item state (body ++ close :: rest) = .ok (state', rest) := by
  -- What follows an item, be it a bracket, a comma or blanks, shows that its value has ended.
  induction pieces generalizing state piece body with
  | nil =>
      cases hsep with
      | @one before after _ hbefore hafter =>
          rcases run_cons_iff.1 hrun with ⟨next, hstep, hrun⟩
          obtain rfl := run_nil_iff.1 hrun
          have hterminated : Terminated (after ++ close :: rest) :=
            (Terminated.cons (List.mem_cons_of_mem _ hclose) rest).blanks_append hafter
          have hread := (hfollow.recognizes hinv).complete hbefore hstep hterminated
          have hskip := skipBlanks_append_cons hafter (isBlank_close hclose) rest
          rw [items_eq, List.append_assoc (before ++ piece), hread]
          simp only [hskip, if_true]
  | cons piece' pieces ih =>
      cases hsep with
      | @more before after s _ _ _ hbefore hafter hsep =>
          rcases run_cons_iff.1 hrun with ⟨next, hstep, hrun⟩
          have hterminated : Terminated (after ++ ',' :: (s ++ close :: rest)) :=
            (Terminated.cons List.mem_cons_self _).blanks_append hafter
          have hread := (hfollow.recognizes hinv).complete hbefore hstep hterminated
          have hskip := skipBlanks_append_cons hafter (c := ',') (by decide) (s ++ close :: rest)
          have hne : ',' ≠ close := by
            rintro rfl
            simp at hclose
          have hs : before ++ piece ++ after ++ ',' :: s ++ close :: rest =
              before ++ piece ++ (after ++ ',' :: (s ++ close :: rest)) := by simp
          rw [items_eq, hs, hread]
          simp only [hskip, hne, if_false, if_true]
          exact ih (hfollow.keeps hinv hstep) hsep hrun

end Items

end Reader

/-! ## Enclosed items -/

/-- Blanks in front of separated pieces belong to them. -/
theorem Separated.blanks_append {blanks s : List Char} {pieces : List (List Char)}
    (h : Blanks blanks) (hsep : Separated pieces s) : Separated pieces (blanks ++ s) := by
  cases hsep with
  | none hblanks => exact .none (h.append hblanks)
  | one piece hbefore hafter =>
      simp only [List.append_assoc]
      rw [← List.append_assoc blanks, ← List.append_assoc]
      exact .one piece (h.append hbefore) hafter
  | more piece hbefore hafter hsep =>
      simp only [List.append_assoc]
      rw [← List.append_assoc blanks, ← List.append_assoc, ← List.append_assoc]
      exact .more piece (h.append hbefore) hafter hsep

/-- Without the blanks in front of it, the first piece comes first. -/
theorem Separated.exists_blanks {piece s : List Char} {pieces : List (List Char)}
    (hsep : Separated (piece :: pieces) s) :
    ∃ blanks tail, Blanks blanks ∧ Separated (piece :: pieces) (piece ++ tail) ∧
      s = blanks ++ piece ++ tail := by
  cases hsep with
  | @one before after _ hbefore hafter =>
      exact ⟨before, after, hbefore, .one piece .nil hafter, rfl⟩
  | @more before after s _ _ _ hbefore hafter hsep =>
      refine ⟨before, after ++ ',' :: s, hbefore, ?_, by simp⟩
      have hmore : Separated _ ([] ++ piece ++ after ++ ',' :: s) := .more piece .nil hafter hsep
      simpa using hmore

namespace Reader

section Enclosed

variable {σ : Type} {Inv : σ → Prop} {item : σ → Reader σ} {Step : σ → List Char → σ → Prop}
  {close : Char}

/-- What is read up to a closing bracket is any number of items with commas between them. -/
theorem enclosed_eq_ok_iff (hfollow : Follow Inv item Step) (hclose : close ∈ [']', '\x7d'])
    {state state' : σ} {s rest : List Char} (hinv : Inv state) :
    enclosed close item state s = .ok (state', rest) ↔
      ∃ pieces body, Separated pieces body ∧ Run Step state pieces state' ∧
        s = body ++ close :: rest := by
  constructor
  · intro h
    rcases exists_blanks_append_skipBlanks s with ⟨blanks, hblanks, hs⟩
    unfold enclosed at h
    split at h
    · cases h
    · rename_i c r hskip
      rw [hskip] at hs
      split at h
      · rename_i hc
        simp only [Except.ok.injEq, Prod.mk.injEq] at h
        rcases h with ⟨rfl, rfl⟩
        exact ⟨[], blanks, .none hblanks, .nil _, hc ▸ hs⟩
      · rcases items_sound hfollow hinv h with ⟨piece, pieces, body, hsep, hrun, hbody⟩
        refine ⟨_, _, hsep.blanks_append hblanks, hrun, ?_⟩
        rw [hs, hbody, List.append_assoc]
  · rintro ⟨pieces, body, hsep, hrun, rfl⟩
    cases pieces with
    | nil =>
        cases hsep with
        | none hblanks =>
            obtain rfl := run_nil_iff.1 hrun
            have hskip := skipBlanks_append_cons hblanks (isBlank_close hclose) rest
            simp only [enclosed, hskip, if_true]
    | cons piece pieces =>
        rcases hsep.exists_blanks with ⟨blanks, tail, hblanks, hsep', rfl⟩
        rcases run_cons_iff.1 hrun with ⟨next, hstep, _⟩
        -- The first item does not begin with the closing bracket, so it is not taken for the end.
        have hopens := (hfollow.recognizes hinv).opens hstep
        have hskip := hopens.skipBlanks_append hblanks (tail ++ close :: rest)
        have hitems := items_complete hfollow hclose hinv hsep' hrun rest
        rcases hopens with ⟨c, r, rfl, -, hbracket, hbrace⟩
        have hne : c ≠ close := by
          simp only [List.mem_cons, List.not_mem_nil, or_false] at hclose
          rcases hclose with rfl | rfl
          · exact hbracket
          · exact hbrace
        rw [← List.append_assoc] at hskip
        simp only [List.cons_append] at hskip hitems
        simp only [enclosed, hskip, hne, if_false]
        simpa using hitems

end Enclosed

end Reader
end Nominal.Json
