import Nominal.Json.Record
import Nominal.Proofs.Json.Recognition

/-!
# Texts that go on

What is made of a text does not change when the text goes on: whatever comes behind a problem cannot
repair it, and whatever comes behind a value leaves the value alone. The exception is a text that is
cut off, which may become anything.

This is a relation between two runs. The longer text goes on where the shorter one ends
(`GoesOn`), and the outcome of the shorter one lasts (`Lasts`). Steps that follow each other,
branches and loops keep the relation, so it is shown by following the definitions. Conversely, what
is cut off from something that can be read is found to be cut off (`Lasts.eq_truncated`).

Numerals are another exception, as more digits would change them. Therefore the characters that the
shorter text may end with are a parameter here. Nothing in this module depends on them.
-/

namespace Nominal.Json

/-! ## Texts -/

/-- `Settled Ends s`: the text `s` ends with one of the characters in `Ends`, if it is not empty. -/
def Settled (Ends : Char → Prop) (s : List Char) : Prop := ∀ c ∈ s.getLast?, Ends c

variable {Ends : Char → Prop} {t s s' rest : List Char}

theorem Settled.of_suffix (h : Settled Ends s) (hsuffix : rest <:+ s) : Settled Ends rest := by
  obtain ⟨taken, rfl⟩ := hsuffix
  intro c hc
  refine h c ?_
  rw [Option.mem_def] at hc ⊢
  rw [List.getLast?_append, hc, Option.some_or]

/-- `GoesOn Ends t s s'`: the text `s'` goes on with `t` where `s` ends, which is settled. -/
structure GoesOn (Ends : Char → Prop) (t s s' : List Char) : Prop where
  settled : Settled Ends s
  eq_append : s' = s ++ t

/-- What is left of a text goes on as the text does. -/
theorem GoesOn.of_suffix (h : GoesOn Ends t s s') (hsuffix : rest <:+ s) :
    GoesOn Ends t rest (rest ++ t) :=
  ⟨h.settled.of_suffix hsuffix, rfl⟩

theorem GoesOn.tail {c : Char} (h : GoesOn Ends t (c :: s) s') : GoesOn Ends t s (s ++ t) :=
  h.of_suffix (List.suffix_cons c s)

theorem GoesOn.length_le (h : GoesOn Ends t s s') : s.length ≤ s'.length := by
  rw [h.eq_append, List.length_append]
  omega

/-- Both texts begin with the same character. -/
theorem GoesOn.exists_cons {c : Char} (h : GoesOn Ends t (c :: s) s') :
    ∃ r, s' = c :: r ∧ GoesOn Ends t s r :=
  ⟨s ++ t, h.eq_append, h.tail⟩

/-! ## Outcomes -/

/-- `Lasts R r r'`: if the outcome `r` for a text is that the text is cut off, then any outcome `r'`
may take its place when the text goes on. Otherwise a fault stays as it is, and a value becomes one
that `R` relates to it. -/
inductive Lasts {β : Type} (R : β → β → Prop) : Except Fault β → Except Fault β → Prop where
  | truncated (r' : Except Fault β) : Lasts R (.error .truncated) r'
  | error (fault : Fault) : Lasts R (.error fault) (.error fault)
  | ok {b b' : β} : R b b' → Lasts R (.ok b) (.ok b')

/-- `Leaves G p p'`: the same value was read, and `G` relates what is left of the two texts. -/
inductive Leaves {α : Type} (G : List Char → List Char → Prop) :
    α × List Char → α × List Char → Prop where
  | mk {a : α} {rest rest' : List Char} : G rest rest' → Leaves G (a, rest) (a, rest')

section Lasts

variable {β γ : Type} {R : β → β → Prop} {S : γ → γ → Prop} {r r' : Except Fault β}

theorem Lasts.map {f f' : β → γ} (h : Lasts R r r') (hf : ∀ b b', R b b' → S (f b) (f' b')) :
    Lasts S (r.map f) (r'.map f') := by
  cases h with
  | truncated => exact .truncated _
  | error fault => exact .error fault
  | ok hb => exact .ok (hf _ _ hb)

/-- Steps that follow each other. -/
theorem Lasts.bind {next next' : β → Except Fault γ} (h : Lasts R r r')
    (hnext : ∀ b b', R b b' → Lasts S (next b) (next' b')) :
    Lasts S (r >>= next) (r' >>= next') := by
  cases h with
  | truncated => exact .truncated _
  | error fault => exact .error fault
  | ok hb => exact hnext _ _ hb

/-- What is done with two outcomes, one of which lasts. -/
@[elab_as_elim]
theorem Lasts.elim {motive : Except Fault β → Except Fault β → Prop} {r r' : Except Fault β}
    (h : Lasts R r r') (truncated : ∀ r', motive (.error .truncated) r')
    (error : ∀ fault, motive (.error fault) (.error fault))
    (ok : ∀ b b', R b b' → motive (.ok b) (.ok b')) : motive r r' := by
  cases h with
  | truncated => exact truncated _
  | error fault => exact error fault
  | ok hb => exact ok _ _ hb

theorem Lasts.eq_error {fault : Fault} (h : Lasts R (.error fault) r') :
    fault = .truncated ∨ r' = .error fault := by
  cases h with
  | truncated => exact .inl rfl
  | error => exact .inr rfl

theorem Lasts.exists_ok {b : β} (h : Lasts R (.ok b) r') : ∃ b', r' = .ok b' ∧ R b b' := by
  cases h with
  | ok hb => exact ⟨_, rfl, hb⟩

theorem Lasts.exists_rest {α : Type} {G : List Char → List Char → Prop} {a : α} {rest : List Char}
    {r' : Except Fault (α × List Char)} (h : Lasts (Leaves G) (.ok (a, rest)) r') :
    ∃ rest', r' = .ok (a, rest') ∧ G rest rest' := by
  cases h with
  | ok hleaves =>
      cases hleaves with
      | mk hrest => exact ⟨_, rfl, hrest⟩

/-- Where the longer text is read to its end, the shorter one is cut off. -/
theorem Lasts.eq_truncated {α : Type} {a : α} {r : Except Fault (α × List Char)}
    (h : Lasts (Leaves (GoesOn Ends t)) r (.ok (a, []))) (ht : t ≠ []) :
    r = .error .truncated := by
  cases h with
  | truncated => rfl
  | ok hleaves =>
      cases hleaves with
      | mk hrest => exact absurd (List.append_eq_nil_iff.1 hrest.eq_append.symm).2 ht

/-- Branches: both texts take the same one. -/
theorem Lasts.ite {p : Prop} [Decidable p] {q q' : Except Fault β} (h : p → Lasts R r r')
    (hnot : ¬ p → Lasts R q q') : Lasts R (if p then r else q) (if p then r' else q') := by
  split
  · exact h ‹_›
  · exact hnot ‹_›

end Lasts

/-! ## Blanks -/

/-- Blanks are skipped up to the same character. -/
theorem GoesOn.skipBlanks {c : Char} (h : GoesOn Ends t s s') (hskip : skipBlanks s = c :: rest) :
    Json.skipBlanks s' = c :: (rest ++ t) ∧ GoesOn Ends t (c :: rest) (c :: (rest ++ t)) := by
  have hsuffix : c :: rest <:+ s := hskip ▸ List.dropWhile_suffix _
  refine ⟨?_, h.of_suffix hsuffix⟩
  rw [Json.skipBlanks] at hskip
  rw [h.eq_append, Json.skipBlanks, List.dropWhile_append, hskip]
  rfl

theorem GoesOn.afterBlanks {β : Type} {R : β → β → Prop}
    {read read' : Char → List Char → Except Fault β} (h : GoesOn Ends t s s')
    (hread : ∀ c r, GoesOn Ends t (c :: r) (c :: (r ++ t)) →
      Lasts R (read c r) (read' c (r ++ t))) :
    Lasts R (afterBlanks read s) (afterBlanks read' s') := by
  unfold Json.afterBlanks
  cases hskip : Json.skipBlanks s with
  | nil => exact .truncated _
  | cons c r =>
      rw [(h.skipBlanks hskip).1]
      exact hread c r (h.skipBlanks hskip).2

theorem lasts_readColon (h : GoesOn Ends t s s') :
    Lasts (GoesOn Ends t) (readColon s) (readColon s') :=
  h.afterBlanks fun _ _ hr => .ite (fun _ => .ok hr.tail) fun _ => .error _

/-! ## Escapes -/

theorem utf8ByteSize_ofList_cons (c : Char) (s : List Char) :
    (String.ofList (c :: s)).utf8ByteSize = c.utf8Size + (String.ofList s).utf8ByteSize := by
  have hcons : String.ofList (c :: s) = String.singleton c ++ String.ofList s := by
    rw [← List.singleton_append, String.ofList_append]
    rfl
  rw [hcons, String.utf8ByteSize_append, String.utf8ByteSize_singleton]

/-- A hexadecimal digit is one octet. -/
theorem utf8ByteSize_of_hexDigits (h : ∀ c ∈ s, hexDigit? c ≠ none) :
    (String.ofList s).utf8ByteSize = s.length := by
  induction s with
  | nil => rfl
  | cons c s ih =>
      rw [List.forall_mem_cons] at h
      obtain ⟨n, hn⟩ := Option.ne_none_iff_exists'.1 h.1
      have hone : c.utf8Size = 1 := by
        rw [Char.utf8Size_eq_one_iff, UInt32.le_iff_toNat_le]
        exact Nat.le_of_lt (Nat.lt_trans (toNat_lt_of_hexDigit? hn) (by decide))
      rw [utf8ByteSize_ofList_cons, ih h.2, hone, List.length_cons, Nat.add_comm]

/-- Four octets are enough to see that one of the characters is no digit. -/
theorem readUnit_eq_malformed {c : Char} (hmem : c ∈ s.take 4) (hc : hexDigit? c = none)
    (hsize : 4 ≤ (String.ofList s).utf8ByteSize) : readUnit s = .error .malformed := by
  unfold readUnit
  split
  · rename_i a b d e r
    split
    · rename_i unit hunit
      simp only [hexUnit?, Option.bind_eq_bind, Option.bind_eq_some_iff] at hunit
      obtain ⟨i, ha, j, hb, k, hd, l, he, -⟩ := hunit
      simp only [List.take_succ_cons, List.take_zero, List.mem_cons, List.not_mem_nil,
        or_false] at hmem
      rcases hmem with rfl | rfl | rfl | rfl <;> simp_all
    · rfl
  · rw [if_neg (by omega)]

/-- With fewer than four characters, the octets decide. -/
theorem readUnit_of_length_lt (h : s.length < 4) :
    readUnit s = if (String.ofList s).utf8ByteSize < 4 then .error .truncated
      else .error .malformed := by
  unfold readUnit
  split
  · simp only [List.length_cons] at h
    omega
  · rfl

theorem lasts_readUnit (h : GoesOn Ends t s s') :
    Lasts (Leaves (GoesOn Ends t)) (readUnit s) (readUnit s') := by
  by_cases hlength : s.length < 4
  · rw [readUnit_of_length_lt hlength]
    split
    · exact .truncated _
    · rename_i hsize
      -- Four octets but fewer characters: one of them is no digit, and more text does not move it.
      obtain ⟨c, hmem, hc⟩ : ∃ c ∈ s, hexDigit? c = none := by
        by_contra hall
        have hdigits : ∀ c ∈ s, hexDigit? c ≠ none := fun c hc hnone => hall ⟨c, hc, hnone⟩
        rw [utf8ByteSize_of_hexDigits hdigits] at hsize
        exact hsize hlength
      have hsize' : 4 ≤ (String.ofList s').utf8ByteSize := by
        rw [h.eq_append, String.ofList_append, String.utf8ByteSize_append]
        omega
      have hmem' : c ∈ s'.take 4 := by
        rw [h.eq_append, List.take_append, List.take_of_length_le (by omega)]
        exact List.mem_append_left _ hmem
      rw [readUnit_eq_malformed hmem' hc hsize']
      exact .error _
  · obtain ⟨a, b, c, d, r, rfl⟩ : ∃ a b c d r, s = a :: b :: c :: d :: r := by
      rcases s with _ | ⟨a, _ | ⟨b, _ | ⟨c, _ | ⟨d, r⟩⟩⟩⟩ <;> simp_all
    have hrest : GoesOn Ends t r (r ++ t) := h.of_suffix ⟨[a, b, c, d], rfl⟩
    rw [h.eq_append]
    simp only [List.cons_append, readUnit]
    split
    · exact .ok (.mk hrest)
    · exact .error _

theorem readTrailing_of_ne {leading : Nat} {c : Char} (h : c ≠ '\\') (s : List Char) :
    readTrailing leading (c :: s) = .error .malformed := by
  unfold readTrailing
  split <;> simp_all

theorem readTrailing_of_ne_u {leading : Nat} {c : Char} (h : c ≠ 'u') (s : List Char) :
    readTrailing leading ('\\' :: c :: s) = .error .malformed := by
  unfold readTrailing
  split <;> simp_all

theorem lasts_readTrailing {leading : Nat} (h : GoesOn Ends t s s') :
    Lasts (Leaves (GoesOn Ends t)) (readTrailing leading s) (readTrailing leading s') := by
  rw [h.eq_append]
  rcases s with _ | ⟨c, s⟩
  · exact .truncated _
  by_cases hc : c = '\\'
  · subst hc
    rcases s with _ | ⟨d, r⟩
    · exact .truncated _
    by_cases hd : d = 'u'
    · subst hd
      have hr : GoesOn Ends t r (r ++ t) := h.of_suffix ⟨['\\', 'u'], rfl⟩
      simp only [List.cons_append, readTrailing]
      refine (lasts_readUnit hr).elim (fun _ => .truncated _) (fun _ => .error _) ?_
      rintro _ _ ⟨hrest⟩
      exact .ite (fun _ => .ok (.mk hrest)) fun _ => .error _
    · rw [List.cons_append, List.cons_append, readTrailing_of_ne_u hd, readTrailing_of_ne_u hd]
      exact .error _
  · rw [List.cons_append, readTrailing_of_ne hc, readTrailing_of_ne hc]
    exact .error _

theorem lasts_readUnicodeEscape (h : GoesOn Ends t s s') :
    Lasts (Leaves (GoesOn Ends t)) (readUnicodeEscape s) (readUnicodeEscape s') := by
  unfold readUnicodeEscape
  refine (lasts_readUnit h).elim (fun _ => .truncated _) (fun _ => .error _) ?_
  rintro _ _ ⟨hrest⟩
  refine .ite (fun _ => .error _) fun _ => ?_
  exact .ite (fun _ => lasts_readTrailing hrest) fun _ => .ok (.mk hrest)

theorem lasts_readEscape (h : GoesOn Ends t s s') :
    Lasts (Leaves (GoesOn Ends t)) (readEscape s) (readEscape s') := by
  cases s with
  | nil => exact .truncated _
  | cons c s =>
      obtain ⟨r', rfl, hr⟩ := h.exists_cons
      refine .ite (fun _ => lasts_readUnicodeEscape hr) fun _ => ?_
      cases shortEscape? c with
      | none => exact .error _
      | some a => exact .ok (.mk hr)

theorem lasts_skipEscape (h : GoesOn Ends t s s') :
    Lasts (GoesOn Ends t) (skipEscape s) (skipEscape s') := by
  cases s with
  | nil => exact .truncated _
  | cons c s =>
      obtain ⟨r', rfl, hr⟩ := h.exists_cons
      refine .ite (fun _ => ?_) fun _ => .ite (fun _ => .ok hr) fun _ => .error _
      refine (lasts_readUnit hr).map ?_
      rintro _ _ ⟨hrest⟩
      exact hrest

/-! ## Characters -/

theorem lasts_readCharacters (h : GoesOn Ends t s s') :
    Lasts (Leaves (GoesOn Ends t)) (readCharacters s) (readCharacters s') := by
  -- The induction follows the shorter text; at each character the longer one takes the same branch.
  fun_induction readCharacters s generalizing s' with
  | case1 => exact .truncated _
  | case2 r =>
      obtain ⟨r', rfl, hr⟩ := h.exists_cons
      rw [readCharacters_cons, if_pos rfl]
      exact .ok (.mk hr)
  | case3 r fault hescape hquote =>
      obtain ⟨r', rfl, hr⟩ := h.exists_cons
      have hlasts := lasts_readEscape hr
      rw [hescape] at hlasts
      rw [readCharacters_cons, if_neg hquote, if_pos rfl]
      rcases hlasts.eq_error with rfl | hescape'
      · exact .truncated _
      · rw [hescape']
        exact .error _
  | case4 r a rest hescape _ hquote ih =>
      obtain ⟨r', rfl, hr⟩ := h.exists_cons
      have hlasts := lasts_readEscape hr
      rw [hescape] at hlasts
      obtain ⟨rest', hescape', hrest⟩ := hlasts.exists_rest
      rw [readCharacters_cons, if_neg hquote, if_pos rfl, hescape']
      refine (ih hrest).map ?_
      rintro _ _ ⟨hrest⟩
      exact .mk hrest
  | case5 c r hquote hbackslash hcontrol =>
      obtain ⟨r', rfl, hr⟩ := h.exists_cons
      rw [readCharacters_cons, if_neg hquote, if_neg hbackslash, if_pos hcontrol]
      exact .error _
  | case6 c r hquote hbackslash hcontrol ih =>
      obtain ⟨r', rfl, hr⟩ := h.exists_cons
      rw [readCharacters_cons, if_neg hquote, if_neg hbackslash, if_neg hcontrol]
      refine (ih hr).map ?_
      rintro _ _ ⟨hrest⟩
      exact .mk hrest

theorem lasts_skipCharacters (h : GoesOn Ends t s s') :
    Lasts (GoesOn Ends t) (skipCharacters s) (skipCharacters s') := by
  fun_induction skipCharacters s generalizing s' with
  | case1 => exact .truncated _
  | case2 r =>
      obtain ⟨r', rfl, hr⟩ := h.exists_cons
      rw [skipCharacters_cons, if_pos rfl]
      exact .ok hr
  | case3 r fault hescape hquote =>
      obtain ⟨r', rfl, hr⟩ := h.exists_cons
      have hlasts := lasts_skipEscape hr
      rw [hescape] at hlasts
      rw [skipCharacters_cons, if_neg hquote, if_pos rfl]
      rcases hlasts.eq_error with rfl | hescape'
      · exact .truncated _
      · rw [hescape']
        exact .error _
  | case4 r rest hescape _ hquote ih =>
      obtain ⟨r', rfl, hr⟩ := h.exists_cons
      have hlasts := lasts_skipEscape hr
      rw [hescape] at hlasts
      obtain ⟨rest', hescape', hrest⟩ := hlasts.exists_ok
      rw [skipCharacters_cons, if_neg hquote, if_pos rfl, hescape']
      exact ih hrest
  | case5 c r hquote hbackslash hcontrol =>
      obtain ⟨r', rfl, hr⟩ := h.exists_cons
      rw [skipCharacters_cons, if_neg hquote, if_neg hbackslash, if_pos hcontrol]
      exact .error _
  | case6 c r hquote hbackslash hcontrol ih =>
      obtain ⟨r', rfl, hr⟩ := h.exists_cons
      rw [skipCharacters_cons, if_neg hquote, if_neg hbackslash, if_neg hcontrol]
      exact ih hr

/-! ## Words -/

theorem lasts_readWord (word : List Char) (h : GoesOn Ends t s s') :
    Lasts (GoesOn Ends t) (readWord word s) (readWord word s') := by
  fun_induction readWord word s generalizing s' with
  | case1 s => exact .ok h
  | case2 c word => exact .truncated _
  | case3 c word s ih =>
      obtain ⟨r', rfl, hr⟩ := h.exists_cons
      rw [readWord, if_pos rfl]
      exact ih hr
  | case4 c word d s hne =>
      obtain ⟨r', rfl, hr⟩ := h.exists_cons
      rw [readWord, if_neg hne]
      exact .error _

end Nominal.Json
