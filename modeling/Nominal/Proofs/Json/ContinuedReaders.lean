import Nominal.Proofs.Json.Continuation

/-!
# Readers of texts that go on

What a reader makes of a text lasts (`Reader.Continues`), if no numeral is open where the text ends.
Numerals take as many characters as can belong to them, so each of their parts has to find its end
before the text does (`EndsOff`). Everything else follows the definitions, up to the records of a
format (`Format.reader_continues`).

Skipping takes a depth that grows with the text. That is why `Reader.Continues` relates two readers:
the one for the longer text may be another one, with more depth (`Reader.skipped_continues`).
-/

namespace Nominal.Json

variable {t s s' rest : List Char}

/-! ## Numerals -/

/-- Whether a numeral may be open where a text ends with `c`. -/
def leavesOpen (c : Char) : Bool := c.isDigit || ['.', 'e', 'E', '+', '-'].contains c

/-- `Continued t s s'`: the text `s'` goes on with `t` where `s` ends and no numeral is open. -/
abbrev Continued (t s s' : List Char) : Prop := GoesOn (fun c => leavesOpen c = false) t s s'

/-- `EndsOff t s s'`: besides, something is left of `s`, so that `s` ends with a character that
leaves no numeral open. -/
structure EndsOff (t s s' : List Char) : Prop extends Continued t s s' where
  ne_nil : s ≠ []

/-- Behind a character that leaves a numeral open, something has to follow. -/
theorem EndsOff.tail_of_leavesOpen {c : Char} (h : EndsOff t (c :: s) s')
    (hc : leavesOpen c = true) : EndsOff t s (s ++ t) := by
  refine ⟨h.toGoesOn.tail, ?_⟩
  rintro rfl
  have hclosed := h.settled c rfl
  rw [hc] at hclosed
  cases hclosed

theorem leavesOpen_of_isDigit {c : Char} (h : c.isDigit = true) : leavesOpen c = true := by
  rw [leavesOpen, h, Bool.true_or]

/-- Digits do not reach the end of a text that ends off. -/
theorem EndsOff.digits (h : EndsOff t s s') :
    s'.takeWhile Char.isDigit = s.takeWhile Char.isDigit ∧
      EndsOff t (s.dropWhile Char.isDigit) (s'.dropWhile Char.isDigit) := by
  -- If all that is left were digits, the last of them would leave a numeral open.
  have hne : s.dropWhile Char.isDigit ≠ [] := by
    rw [ne_eq, List.dropWhile_eq_nil_iff]
    intro hdigits
    have hclosed := h.settled (s.getLast h.ne_nil) (List.getLast?_eq_some_getLast h.ne_nil)
    rw [leavesOpen_of_isDigit (hdigits _ (List.getLast_mem h.ne_nil))] at hclosed
    cases hclosed
  have hshort : (s.takeWhile Char.isDigit).length ≠ s.length := by
    have hsplit : s.takeWhile Char.isDigit ++ s.dropWhile Char.isDigit = s :=
      List.takeWhile_append_dropWhile
    have hlength := congrArg List.length hsplit
    have hpos := List.length_pos_iff.2 hne
    rw [List.length_append] at hlength
    omega
  refine ⟨?_, ⟨h.settled.of_suffix (List.dropWhile_suffix _), ?_⟩, hne⟩
  · rw [h.eq_append, List.takeWhile_append, if_neg hshort]
  · rw [h.eq_append, List.dropWhile_append, if_neg (by simpa using hne)]

namespace Numeral

variable (atEnd : Fault)

theorem lasts_readDigits (h : EndsOff t s s') :
    Lasts (Leaves (EndsOff t)) (readDigits atEnd s) (readDigits atEnd s') := by
  cases s with
  | nil => exact absurd rfl h.ne_nil
  | cons c r =>
      obtain ⟨r', rfl, hr⟩ := h.exists_cons
      simp only [readDigits]
      split
      · rename_i hc
        obtain ⟨htake, hrest⟩ := (h.tail_of_leavesOpen (leavesOpen_of_isDigit hc)).digits
        rw [← hr.eq_append] at htake hrest
        rw [htake]
        exact .ok (.mk hrest)
      · exact .error _

theorem readWhole_of_ne {c : Char} (h : c ≠ '0') (s : List Char) :
    readWhole atEnd (c :: s) = readDigits atEnd (c :: s) := by
  unfold readWhole
  split
  · simp_all
  · rfl

theorem lasts_readWhole (h : EndsOff t s s') :
    Lasts (Leaves (EndsOff t)) (readWhole atEnd s) (readWhole atEnd s') := by
  rcases s with _ | ⟨c, r⟩
  · exact absurd rfl h.ne_nil
  obtain ⟨r', rfl, hr⟩ := h.exists_cons
  by_cases hc : c = '0'
  · subst hc
    have htail := h.tail_of_leavesOpen (by decide)
    rw [hr.eq_append]
    simp only [readWhole, List.head?_append_of_ne_nil _ htail.ne_nil]
    exact .ite (fun _ => .error _) fun _ => .ok (.mk htail)
  · rw [readWhole_of_ne atEnd hc, readWhole_of_ne atEnd hc]
    exact lasts_readDigits atEnd h

theorem readFraction_of_ne {c : Char} (h : c ≠ '.') (s : List Char) :
    readFraction atEnd (c :: s) = .ok ([], c :: s) := by
  unfold readFraction
  split
  · simp_all
  · rfl

theorem lasts_readFraction (h : EndsOff t s s') :
    Lasts (Leaves (EndsOff t)) (readFraction atEnd s) (readFraction atEnd s') := by
  rcases s with _ | ⟨c, r⟩
  · exact absurd rfl h.ne_nil
  obtain ⟨r', rfl, hr⟩ := h.exists_cons
  by_cases hc : c = '.'
  · subst hc
    have htail := h.tail_of_leavesOpen (by decide)
    rw [hr.eq_append]
    exact lasts_readDigits atEnd htail
  · rw [readFraction_of_ne atEnd hc, readFraction_of_ne atEnd hc]
    exact .ok (.mk h)

theorem readExponentSign_of_ne {c : Char} (h : c ≠ '+') (h' : c ≠ '-') (s : List Char) :
    readExponentSign (c :: s) = (false, c :: s) := by
  unfold readExponentSign
  split
  · simp_all
  · simp_all
  · rfl

theorem leaves_readExponentSign (h : EndsOff t s s') :
    Leaves (EndsOff t) (readExponentSign s) (readExponentSign s') := by
  rcases s with _ | ⟨c, r⟩
  · exact absurd rfl h.ne_nil
  obtain ⟨r', rfl, hr⟩ := h.exists_cons
  by_cases hplus : c = '+'
  · subst hplus
    rw [hr.eq_append]
    exact .mk (h.tail_of_leavesOpen (by decide))
  by_cases hminus : c = '-'
  · subst hminus
    rw [hr.eq_append]
    exact .mk (h.tail_of_leavesOpen (by decide))
  · rw [readExponentSign_of_ne hplus hminus, readExponentSign_of_ne hplus hminus]
    exact .mk h

theorem lasts_readExponent (h : EndsOff t s s') :
    Lasts (Leaves (EndsOff t)) (readExponent atEnd s) (readExponent atEnd s') := by
  rcases s with _ | ⟨c, r⟩
  · exact absurd rfl h.ne_nil
  obtain ⟨r', rfl, hr⟩ := h.exists_cons
  refine .ite (fun hc => ?_) fun _ => .ok (.mk h)
  have hopen : leavesOpen c = true := by
    rcases hc with rfl | rfl <;> decide
  have hsign := leaves_readExponentSign (h.tail_of_leavesOpen hopen)
  rw [← hr.eq_append] at hsign
  generalize readExponentSign r = p, readExponentSign r' = p' at hsign ⊢
  obtain ⟨hrest⟩ := hsign
  refine (lasts_readDigits atEnd hrest).elim (fun _ => .truncated _) (fun _ => .error _) ?_
  rintro _ _ ⟨hrest'⟩
  exact .ok (.mk hrest')

theorem lasts_readUnsigned (negative : Bool) (h : EndsOff t s s') :
    Lasts (Leaves (EndsOff t)) (readUnsigned atEnd negative s)
      (readUnsigned atEnd negative s') := by
  refine (lasts_readWhole atEnd h).bind ?_
  rintro _ _ ⟨h⟩
  refine (lasts_readFraction atEnd h).bind ?_
  rintro _ _ ⟨h⟩
  refine (lasts_readExponent atEnd h).bind ?_
  rintro _ _ ⟨h⟩
  exact .ok (.mk h)

theorem read_of_ne {c : Char} (h : c ≠ '-') (s : List Char) :
    read atEnd (c :: s) = readUnsigned atEnd false (c :: s) := by
  unfold read
  split
  · simp_all
  · rfl

theorem lasts_read (h : EndsOff t s s') :
    Lasts (Leaves (EndsOff t)) (read atEnd s) (read atEnd s') := by
  rcases s with _ | ⟨c, r⟩
  · exact absurd rfl h.ne_nil
  obtain ⟨r', rfl, hr⟩ := h.exists_cons
  by_cases hc : c = '-'
  · subst hc
    rw [hr.eq_append]
    exact lasts_readUnsigned atEnd true (h.tail_of_leavesOpen (by decide))
  · rw [read_of_ne atEnd hc, read_of_ne atEnd hc]
    exact lasts_readUnsigned atEnd false h

end Numeral

/-! ## Scalars -/

/-- A text that begins with a character ends off, if no numeral is open at its end. -/
theorem Continued.endsOff {c : Char} (h : Continued t (c :: s) s') : EndsOff t (c :: s) s' :=
  ⟨h, List.cons_ne_nil c s⟩

theorem lasts_describeNumeral {c : Char} (h : Continued t (c :: s) s') :
    Lasts Eq (describeNumeral (c :: s)) (describeNumeral s') := by
  unfold describeNumeral
  refine (Numeral.lasts_read .truncated h.endsOff).elim (fun _ => .truncated _)
    (fun _ => .error _) ?_
  rintro ⟨v, _⟩ _ ⟨_⟩
  dsimp only
  split
  · exact .ok rfl
  · exact .ok rfl
  · exact .error _

/-- What begins neither a word, a text nor a bracket is a numeral if anything. -/
theorem describe_of_not_mem {c : Char} (h : c ∉ ['n', 't', 'f', '"', '[', '\x7b']) (s : List Char) :
    describe (c :: s) =
      if c = '-' ∨ c.isDigit then describeNumeral (c :: s) else .error .malformed := by
  unfold describe
  split <;> simp_all

theorem lasts_describe (h : Continued t s s') : Lasts Eq (describe s) (describe s') := by
  rcases s with _ | ⟨c, r⟩
  · exact .truncated _
  obtain ⟨r', rfl, hr⟩ := h.exists_cons
  by_cases hc : c ∈ ['n', 't', 'f', '"', '[', '\x7b']
  · simp only [List.mem_cons, List.not_mem_nil, or_false] at hc
    rcases hc with rfl | rfl | rfl | rfl | rfl | rfl
    · exact (lasts_readWord ['u', 'l', 'l'] hr).map fun _ _ _ => rfl
    · exact (lasts_readWord ['r', 'u', 'e'] hr).map fun _ _ _ => rfl
    · exact (lasts_readWord ['a', 'l', 's', 'e'] hr).map fun _ _ _ => rfl
    · refine (lasts_readCharacters hr).map ?_
      rintro _ _ ⟨_⟩
      rfl
    · exact .ok rfl
    · exact .ok rfl
  · rw [describe_of_not_mem hc, describe_of_not_mem hc]
    exact .ite (fun _ => lasts_describeNumeral h) fun _ => .error _

/-- A value of another kind than the expected one is described in the same way. -/
theorem lasts_unexpected {α : Type} {R : α → α → Prop} (expected : String) (h : Continued t s s') :
    Lasts R (.error (unexpected expected s)) (.error (unexpected expected s')) := by
  unfold unexpected
  refine (lasts_describe h).elim (fun _ => .truncated _) (fun _ => .error _) ?_
  rintro found _ rfl
  exact .error _

theorem lasts_skipNumeral {c : Char} (h : Continued t (c :: s) s') :
    Lasts (Continued t) (skipNumeral (c :: s)) (skipNumeral s') := by
  refine (Numeral.lasts_read .malformed h.endsOff).map ?_
  rintro _ _ ⟨hrest⟩
  exact hrest.toGoesOn

theorem skipScalar_of_not_mem {c : Char} (h : c ∉ ['n', 't', 'f']) (s : List Char) :
    skipScalar (c :: s) =
      if c = '-' ∨ c.isDigit then skipNumeral (c :: s) else .error .malformed := by
  unfold skipScalar
  split <;> simp_all

theorem lasts_skipScalar (h : Continued t s s') :
    Lasts (Continued t) (skipScalar s) (skipScalar s') := by
  rcases s with _ | ⟨c, r⟩
  · exact .truncated _
  obtain ⟨r', rfl, hr⟩ := h.exists_cons
  by_cases hc : c ∈ ['n', 't', 'f']
  · simp only [List.mem_cons, List.not_mem_nil, or_false] at hc
    rcases hc with rfl | rfl | rfl
    · exact lasts_readWord ['u', 'l', 'l'] hr
    · exact lasts_readWord ['r', 'u', 'e'] hr
    · exact lasts_readWord ['a', 'l', 's', 'e'] hr
  · rw [skipScalar_of_not_mem hc, skipScalar_of_not_mem hc]
    exact .ite (fun _ => lasts_skipNumeral h) fun _ => .error _

/-! ## Readers -/

namespace Reader

variable {α β σ : Type}

/-- `reader.Continues reader'`: what `reader` makes of a text lasts in what `reader'` makes of it
when it goes on. -/
structure Continues (reader reader' : Reader α) : Prop where
  lasts : ∀ {t s s'}, Continued t s s' →
    Lasts (Leaves (Continued t)) (reader.read s) (reader'.read s')

variable {reader reader' : Reader α}

theorem Continues.eq_error {fault : Fault} (h : reader.Continues reader') (hs : Continued t s s')
    (hread : reader.read s = .error fault) :
    fault = .truncated ∨ reader'.read s' = .error fault := by
  have hlasts := h.lasts hs
  rw [hread] at hlasts
  exact hlasts.eq_error

theorem Continues.exists_rest {a : α} (h : reader.Continues reader') (hs : Continued t s s')
    (hread : reader.read s = .ok (a, rest)) :
    ∃ rest', reader'.read s' = .ok (a, rest') ∧ Continued t rest rest' := by
  have hlasts := h.lasts hs
  rw [hread] at hlasts
  exact hlasts.exists_rest

theorem Continues.map (h : reader.Continues reader') (f : α → β) :
    (reader.map f).Continues (reader'.map f) where
  lasts hs := by
    unfold Reader.map
    dsimp only
    refine (h.lasts hs).elim (fun _ => .truncated _) (fun _ => .error _) ?_
    rintro _ _ ⟨hrest⟩
    exact .ok (.mk hrest)

/-! ### What brackets enclose -/

/-- `Recurs Inv item item'`: in every state that has the invariant, what `item` makes of a text
lasts in what `item'` makes of it, and the next state has the invariant again. -/
structure Recurs (Inv : σ → Prop) (item item' : σ → Reader σ) : Prop where
  continues : ∀ {state}, Inv state → (item state).Continues (item' state)
  keeps : ∀ {state s state' rest}, Inv state → (item state).read s = .ok (state', rest) →
    Inv state'

section Items

variable {Inv : σ → Prop} {item item' : σ → Reader σ} {state : σ}

/-- Readers that continue each other in every state need no invariant. -/
theorem recurs_of_continues (h : ∀ state, (item state).Continues (item' state)) :
    Recurs (fun _ => True) item item' :=
  ⟨fun {state} _ => h state, fun _ _ => trivial⟩

theorem Recurs.lasts_items (h : Recurs Inv item item') (close : Char) (hinv : Inv state)
    (hs : Continued t s s') :
    Lasts (Leaves (Continued t)) (items close item state s) (items close item' state s') := by
  -- The induction follows the loop over the shorter text; the longer one is read in step with it.
  fun_induction items close item state s generalizing s' with
  | case1 state s fault hread =>
      rw [items_eq]
      rcases (h.continues hinv).eq_error hs hread with rfl | hread'
      · exact .truncated _
      · rw [hread']
        exact .error _
  | case2 => exact .truncated _
  | case3 state s next r hread rest hskip =>
      obtain ⟨r', hread', hr⟩ := (h.continues hinv).exists_rest hs hread
      obtain ⟨hskip', hrest⟩ := hr.skipBlanks hskip
      rw [items_eq close item', hread']
      simp only [hskip', if_true]
      exact .ok (.mk hrest.tail)
  | case4 state s next r hread rest hskip hclose _ ih =>
      obtain ⟨r', hread', hr⟩ := (h.continues hinv).exists_rest hs hread
      obtain ⟨hskip', hrest⟩ := hr.skipBlanks hskip
      rw [items_eq close item', hread']
      simp only [hskip', if_neg hclose, if_true]
      exact ih (h.keeps hinv hread) hrest.tail
  | case5 state s next r hread c rest hskip hclose hcomma =>
      obtain ⟨r', hread', hr⟩ := (h.continues hinv).exists_rest hs hread
      obtain ⟨hskip', -⟩ := hr.skipBlanks hskip
      rw [items_eq close item', hread']
      simp only [hskip', if_neg hclose, if_neg hcomma]
      exact .error _

theorem Recurs.lasts_enclosed (h : Recurs Inv item item') (close : Char) (hinv : Inv state)
    (hs : Continued t s s') :
    Lasts (Leaves (Continued t)) (enclosed close item state s) (enclosed close item' state s') :=
  hs.afterBlanks fun _ _ hr => .ite (fun _ => .ok (.mk hr.tail)) fun _ =>
    h.lasts_items close hinv hr

end Items

/-! ### Skipping -/

theorem Continues.skippedMember {value value' : Reader Unit} (h : value.Continues value') :
    (skippedMember value).Continues (skippedMember value') where
  lasts hs := by
    refine hs.afterBlanks fun c r hr => .ite (fun _ => ?_) fun _ => .error _
    refine (lasts_skipCharacters hr.tail).elim (fun _ => .truncated _) (fun _ => .error _) ?_
    intro afterKey afterKey' hkey
    dsimp only
    refine (lasts_readColon hkey).elim (fun _ => .truncated _) (fun _ => .error _) ?_
    intro afterColon afterColon' hcolon
    exact h.lasts hcolon

/-- What is skipped at some depth is skipped at a greater one, too. -/
theorem skipped_continues {depth depth' : Nat} (h : depth ≤ depth') :
    (skipped depth).Continues (skipped depth') := by
  induction depth generalizing depth' with
  | zero => exact ⟨fun _ => .truncated _⟩
  | succ depth ih =>
      obtain ⟨depth', rfl⟩ : ∃ d, depth' = d + 1 := ⟨depth' - 1, by omega⟩
      have hinside : (skipped depth).Continues (skipped depth') := ih (Nat.le_of_succ_le_succ h)
      refine ⟨fun hs => hs.afterBlanks fun c r hr => .ite (fun _ => ?text) fun _ =>
        .ite (fun _ => ?array) fun _ => .ite (fun _ => ?object) fun _ => ?scalar⟩
      case text => exact (lasts_skipCharacters hr.tail).map fun _ _ hrest => .mk hrest
      case array =>
        exact (recurs_of_continues fun _ => hinside).lasts_enclosed ']' trivial hr.tail
      case object =>
        have hmember := hinside.skippedMember
        exact (recurs_of_continues fun _ => hmember).lasts_enclosed '\x7d' trivial hr.tail
      case scalar => exact (lasts_skipScalar hr).map fun _ _ hrest => .mk hrest

theorem skip_continues : skip.Continues skip where
  lasts hs := (skipped_continues (Nat.succ_le_succ hs.length_le)).lasts hs

/-! ### Values of one kind -/

theorem text_continues : text.Continues text where
  lasts hs := by
    refine hs.afterBlanks fun c r hr => .ite (fun _ => ?_) fun _ => lasts_unexpected _ hr
    refine (lasts_readCharacters hr.tail).map ?_
    rintro _ _ ⟨hrest⟩
    exact .mk hrest

theorem Continues.list (h : reader.Continues reader') : reader.list.Continues reader'.list where
  lasts hs := by
    refine hs.afterBlanks fun c r hr => .ite (fun _ => ?_) fun _ => lasts_unexpected _ hr
    have helement : Recurs (fun _ => True) reader.element reader'.element :=
      recurs_of_continues fun latest => h.map (· :: latest)
    refine (helement.lasts_enclosed ']' trivial hr.tail).elim (fun _ => .truncated _)
      (fun _ => .error _) ?_
    rintro _ _ ⟨hrest⟩
    exact .ok (.mk hrest)

theorem Continues.nullable (h : reader.Continues reader') :
    reader.nullable.Continues reader'.nullable where
  lasts hs := hs.afterBlanks fun _ _ hr =>
    .ite (fun _ => (lasts_readWord _ hr.tail).map fun _ _ hrest => .mk hrest) fun _ =>
      (h.map some).lasts hr

end Reader

/-! ## Records -/

namespace Format

variable {σ α : Type} {f : Format σ α}

section Fields

variable (hfields : ∀ field ∈ f.fields, ∀ d, (field.value d).Continues (field.value d))
include hfields

theorem lasts_readMemberValue (d : σ) (key : List Char) (h : Continued t s s') :
    Lasts (Leaves (Continued t)) (f.readMemberValue d key s) (f.readMemberValue d key s') := by
  unfold readMemberValue
  split
  · rename_i field hfind
    refine .ite (fun _ => .error _) fun _ => ?_
    refine (lasts_readColon h).elim (fun _ => .truncated _) (fun _ => .error _) ?_
    intro rest rest' hrest
    exact (hfields field (List.mem_of_find?_eq_some hfind) d).lasts hrest
  · refine (lasts_readColon h).elim (fun _ => .truncated _) (fun _ => .error _) ?_
    intro rest rest' hrest
    dsimp only
    refine (Reader.skip_continues.lasts hrest).elim (fun _ => .truncated _) (fun _ => .error _) ?_
    rintro _ _ ⟨hskipped⟩
    exact .ok (.mk hskipped)

theorem member_continues (d : σ) : (f.member d).Continues (f.member d) where
  lasts hs := by
    refine hs.afterBlanks fun c r hr => .ite (fun _ => ?_) fun _ => .error _
    refine (lasts_readCharacters hr.tail).elim (fun _ => .truncated _) (fun _ => .error _) ?_
    rintro _ _ ⟨hrest⟩
    exact lasts_readMemberValue hfields d _ hrest

/-- The fields that are left stay fields of the format. -/
theorem recurs_element :
    Reader.Recurs (fun state : σ × List (Field σ) => state.2 ⊆ f.fields) element element where
  continues := by
    rintro ⟨d, _ | ⟨field, left⟩⟩ hleft
    · exact ⟨fun _ => .error _⟩
    · exact (hfields field (hleft List.mem_cons_self) d).map (·, left)
  keeps := by
    rintro ⟨d, _ | ⟨field, left⟩⟩ s state' rest hleft hread
    · cases hread
    · obtain ⟨d', -, rfl⟩ := Reader.map_eq_ok_iff.1 hread
      exact List.subset_of_cons_subset hleft

theorem lasts_readObject (h : Continued t s s') :
    Lasts (Leaves (Continued t)) (f.readObject s) (f.readObject s') := by
  have hmember := Reader.recurs_of_continues fun d => member_continues hfields d
  unfold readObject
  refine (hmember.lasts_enclosed '\x7d' trivial h).elim (fun _ => .truncated _)
    (fun _ => .error _) ?_
  rintro _ _ ⟨hrest⟩
  dsimp only
  split
  · exact .ok (.mk hrest)
  · exact .error _

theorem lasts_readArray (h : Continued t s s') :
    Lasts (Leaves (Continued t)) (f.readArray s) (f.readArray s') := by
  have hall : f.fields ⊆ f.fields := List.Subset.refl _
  unfold readArray
  refine ((recurs_element hfields).lasts_enclosed ']' hall h).elim (fun _ => .truncated _)
    (fun _ => .error _) ?_
  rintro _ _ ⟨hrest⟩
  dsimp only
  split
  · exact .ok (.mk hrest)
  · exact .error _

/-- What is made of a record lasts if it does for each of its fields. -/
theorem reader_continues : f.reader.Continues f.reader where
  lasts hs := hs.afterBlanks fun _ _ hr =>
    .ite (fun _ => lasts_readObject hfields hr.tail) fun _ =>
      .ite (fun _ => lasts_readArray hfields hr.tail) fun _ => lasts_unexpected _ hr

end Fields
end Format
end Nominal.Json
