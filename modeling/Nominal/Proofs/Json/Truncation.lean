import Nominal.Declaration.Printing
import Nominal.Proofs.Json.Continuation
import Nominal.Proofs.Json.Values

/-!
# Texts that are cut off

A text that is cut off somewhere before its end is found to be cut off, wherever that is: before any
rule can be broken, there is no more to read. Of the text of one value this says that the reader
awaits it (`Reader.Awaits`). Together with reading the whole text (`Reader.Takes`) it carries over
to what brackets enclose, as a cut falls into the first item, behind it, or into what follows the
comma (`Reader.items_awaits`). Only texts without blanks around their values are dealt with, as they
are printed.
-/

namespace Nominal.Json

/-- `CutOff s v`: the text `s` is the text `v`, cut off before its end. -/
def CutOff (s v : List Char) : Prop := ∃ t, t ≠ [] ∧ v = s ++ t

variable {s v w : List Char} {c : Char}

theorem not_cutOff_nil : ¬ CutOff s [] := by
  rintro ⟨t, ht, happend⟩
  exact ht (List.append_eq_nil_iff.1 happend.symm).2

/-- A cut falls into the first of two texts, or into the second one. -/
theorem cutOff_append_iff :
    CutOff s (v ++ w) ↔ CutOff s v ∨ ∃ r, s = v ++ r ∧ CutOff r w := by
  constructor
  · rintro ⟨t, ht, happend⟩
    rcases List.append_eq_append_iff.1 happend with ⟨r, rfl, rfl⟩ | ⟨r, rfl, rfl⟩
    · exact .inr ⟨r, rfl, t, ht, rfl⟩
    · cases r with
      | nil => exact .inr ⟨[], by simp, w, ht, rfl⟩
      | cons c r => exact .inl ⟨c :: r, List.cons_ne_nil c r, rfl⟩
  · rintro (⟨t, ht, rfl⟩ | ⟨r, rfl, t, ht, rfl⟩)
    · exact ⟨t ++ w, List.append_ne_nil_of_left_ne_nil ht w, List.append_assoc s t w⟩
    · exact ⟨t, ht, (List.append_assoc v r t).symm⟩

theorem cutOff_cons_iff : CutOff s (c :: v) ↔ s = [] ∨ ∃ r, s = c :: r ∧ CutOff r v := by
  have hone : CutOff s [c] ↔ s = [] := by
    constructor
    · rintro ⟨t, ht, happend⟩
      rcases List.append_eq_singleton_iff.1 happend.symm with ⟨hs, -⟩ | ⟨-, ht'⟩
      · exact hs
      · exact absurd ht' ht
    · rintro rfl
      exact ⟨[c], List.cons_ne_nil c [], rfl⟩
  rw [← List.singleton_append, cutOff_append_iff, hone]
  rfl

/-- Nothing is skipped in front of another character than a blank. -/
theorem skipBlanks_cons (hc : isBlank c = false) : skipBlanks (c :: s) = c :: s :=
  skipBlanks_append_cons .nil hc s

/-! ## Texts and words -/

/-- The characters of a text end with its quote. -/
theorem readCharacters_of_cutOff {spelling chars : List Char} (h : Spells spelling chars)
    (hs : CutOff s (spelling ++ ['"'])) : readCharacters s = .error .truncated := by
  obtain ⟨t, ht, happend⟩ := hs
  have hs : GoesOn (fun _ => True) t s (spelling ++ ['"']) := ⟨fun _ _ => trivial, happend⟩
  have hlasts := lasts_readCharacters hs
  rw [readCharacters_eq_ok_iff.2 ⟨spelling, h, rfl⟩] at hlasts
  exact hlasts.eq_truncated ht

theorem readWord_of_cutOff {word : List Char} (hs : CutOff s word) :
    readWord word s = .error .truncated := by
  fun_induction readWord word s with
  | case1 s => exact absurd hs not_cutOff_nil
  | case2 c word => rfl
  | case3 c word s ih =>
      rcases cutOff_cons_iff.1 hs with hs | ⟨r, hs, hr⟩
      · cases hs
      · cases hs
        exact ih hr
  | case4 c word d s hne =>
      rcases cutOff_cons_iff.1 hs with hs | ⟨r, hs, hr⟩
      · cases hs
      · cases hs
        exact absurd rfl hne

namespace Reader

variable {α β σ : Type} {reader : Reader α} {a : α}

/-! ## Readers -/

/-- `reader.Awaits v`: wherever the text `v` is cut off, the reader finds that it is. -/
def Awaits (reader : Reader α) (v : List Char) : Prop :=
  ∀ s, CutOff s v → reader.read s = .error .truncated

/-- `reader.Takes v a`: the reader takes the value `a` off the text `v`, and awaits all of it. -/
structure Takes (reader : Reader α) (v : List Char) (a : α) : Prop where
  opens : Opens v
  taken : ∀ {rest}, Terminated rest → reader.read (v ++ rest) = .ok (a, rest)
  awaits : reader.Awaits v

theorem Recognizes.takes {Encodes : Encoding α} (h : reader.Recognizes Encodes) (hv : Encodes v a)
    (hawaits : reader.Awaits v) : reader.Takes v a where
  opens := h.opens hv
  taken hrest := h.complete .nil hv hrest
  awaits := hawaits

theorem Awaits.map (h : reader.Awaits v) (f : α → β) : (reader.map f).Awaits v := by
  intro s hs
  unfold Reader.map
  dsimp only
  rw [h s hs]

theorem Takes.map (h : reader.Takes v a) (f : α → β) : (reader.map f).Takes v (f a) where
  opens := h.opens
  taken hrest := map_eq_ok_iff.2 ⟨a, h.taken hrest, rfl⟩
  awaits := h.awaits.map f

/-! ## What brackets enclose -/

section Items

variable {item : σ → Reader σ} {close : Char} {state state' next : σ} {piece : List Char}
  {pieces : List (List Char)}

/-- A cut falls into the first item or directly behind it, which is noticed, or into the rest. -/
theorem Takes.items_of_cutOff (h : (item state).Takes piece next)
    (hs : CutOff s (piece ++ c :: w)) :
    items close item state s = .error .truncated ∨ ∃ r, s = piece ++ c :: r ∧ CutOff r w := by
  rcases cutOff_append_iff.1 hs with hs | ⟨r, rfl, hr⟩
  · left
    rw [items_eq, h.awaits s hs]
  rcases cutOff_cons_iff.1 hr with rfl | ⟨r', rfl, hr'⟩
  · left
    rw [items_eq, h.taken (.of_blanks .nil)]
    rfl
  · exact .inr ⟨r', rfl, hr'⟩

/-- Items that are taken are awaited, and so is the bracket behind them. -/
theorem items_awaits (hclose : close ∈ [']', '\x7d'])
    (hrun : Run (fun state v state' => (item state).Takes v state') state (piece :: pieces) state')
    (hs : CutOff s (printItems (piece :: pieces) ++ [close])) :
    items close item state s = .error .truncated := by
  -- By induction on the items: where the first one has been taken, the cut is in the others.
  induction pieces generalizing state piece s with
  | nil =>
      obtain ⟨next, htakes, -⟩ := run_cons_iff.1 hrun
      rcases htakes.items_of_cutOff hs with hitems | ⟨r, -, hr⟩
      · exact hitems
      · exact absurd hr not_cutOff_nil
  | cons piece' pieces ih =>
      obtain ⟨next, htakes, hrun⟩ := run_cons_iff.1 hrun
      have hsplit : printItems (piece :: piece' :: pieces) ++ [close] =
          piece ++ ',' :: (printItems (piece' :: pieces) ++ [close]) := by
        rw [printItems, List.append_assoc, List.cons_append]
        exact List.cons_ne_nil piece' pieces
      rw [hsplit] at hs
      rcases htakes.items_of_cutOff hs with hitems | ⟨r, rfl, hr⟩
      · exact hitems
      · have hread := htakes.taken (Terminated.cons (c := ',') List.mem_cons_self r)
        have hskip : skipBlanks (',' :: r) = ',' :: r := skipBlanks_cons (by decide)
        have hne : ',' ≠ close := by
          rintro rfl
          simp at hclose
        rw [items_eq, hread]
        simp only [hskip, if_neg hne, if_true]
        exact ih hrun hr

theorem enclosed_awaits (hclose : close ∈ [']', '\x7d'])
    (hrun : Run (fun state v state' => (item state).Takes v state') state pieces state')
    (hs : CutOff s (printItems pieces ++ [close])) :
    enclosed close item state s = .error .truncated := by
  cases pieces with
  | nil =>
      rcases cutOff_cons_iff.1 hs with rfl | ⟨r, -, hr⟩
      · rfl
      · exact absurd hr not_cutOff_nil
  | cons piece pieces =>
      have hitems := items_awaits hclose hrun hs
      obtain ⟨next, htakes, -⟩ := run_cons_iff.1 hrun
      obtain ⟨c, piece, rfl, hc, hbracket, hbrace⟩ := htakes.opens
      obtain ⟨w, hw⟩ : ∃ w, printItems ((c :: piece) :: pieces) ++ [close] = c :: w := by
        cases pieces <;> exact ⟨_, rfl⟩
      rw [hw] at hs
      rcases cutOff_cons_iff.1 hs with rfl | ⟨r, rfl, -⟩
      · rfl
      -- The first item does not begin with the closing bracket, so it is read as an item.
      · have hne : c ≠ close := by
          simp only [List.mem_cons, List.not_mem_nil, or_false] at hclose
          rcases hclose with rfl | rfl
          · exact hbracket
          · exact hbrace
        simp only [enclosed, skipBlanks_cons hc, if_neg hne]
        exact hitems

end Items

/-! ## Values of one kind -/

theorem text_awaits {text : String} (h : EncodesText v text) : Reader.text.Awaits v := by
  obtain ⟨spelling, hspells, rfl⟩ := h
  intro s hs
  rcases cutOff_cons_iff.1 hs with rfl | ⟨r, rfl, hr⟩
  · rfl
  · have hread := readCharacters_of_cutOff hspells hr
    have hskip : skipBlanks ('"' :: r) = '"' :: r := skipBlanks_cons (by decide)
    simp only [Reader.text, hskip, if_true, hread]
    rfl

/-- Behind its bracket, a list is awaited element by element. -/
theorem Recognizes.list_awaits {Encodes : Encoding α} {print : α → List Char}
    (h : reader.Recognizes Encodes) (hprint : ∀ a, Encodes (print a) a)
    (hawaits : ∀ a, reader.Awaits (print a)) (l : List α) :
    reader.list.Awaits (printArray (l.map print)) := by
  have hrun : ∀ latest, Run (fun latest v latest' => (reader.element latest).Takes v latest')
      latest (l.map print) (l.reverse ++ latest) := by
    induction l with
    | nil => exact fun latest => .nil latest
    | cons a l ih =>
        intro latest
        have htakes := (h.takes (hprint a) (hawaits a)).map (· :: latest)
        rw [List.reverse_cons, List.append_assoc]
        exact .cons htakes (ih (a :: latest))
  intro s hs
  rcases cutOff_cons_iff.1 hs with rfl | ⟨r, rfl, hr⟩
  · rfl
  · have henclosed := enclosed_awaits List.mem_cons_self (hrun []) hr
    have hskip : skipBlanks ('[' :: r) = '[' :: r := skipBlanks_cons (by decide)
    simp only [Reader.list, hskip, if_true, henclosed]

theorem nullable_awaits_null : reader.nullable.Awaits ['n', 'u', 'l', 'l'] := by
  intro s hs
  rcases cutOff_cons_iff.1 hs with rfl | ⟨r, rfl, hr⟩
  · rfl
  · have hskip : skipBlanks ('n' :: r) = 'n' :: r := skipBlanks_cons (by decide)
    simp only [Reader.nullable, hskip, if_true, readWord_of_cutOff hr]
    rfl

/-- A value that does not begin like `null` is awaited in its place. -/
theorem Awaits.nullable (h : reader.Awaits v) (hopens : Opens v) (hn : v.head? ≠ some 'n') :
    reader.nullable.Awaits v := by
  obtain ⟨c, v, rfl, hc, -⟩ := hopens
  have hne : c ≠ 'n' := by
    rintro rfl
    exact hn rfl
  intro s hs
  have hmap := h.map some s hs
  rcases cutOff_cons_iff.1 hs with rfl | ⟨r, rfl, -⟩
  · rfl
  · simp only [Reader.nullable, skipBlanks_cons hc, if_neg hne]
    exact hmap

end Reader
end Nominal.Json
