import Nominal.Proofs.Json.Recognition

/-!
# Reading numerals

Reading a numeral takes as many characters as can belong to it. So it succeeds on every numeral
behind which a value has ended (`Numeral.read_complete`), and what it takes is a numeral
(`Numeral.read_sound`). Neither depends on the fault of a numeral that is cut off.
-/

namespace Nominal.Json.Numeral

variable {atEnd : Fault}

/-- `EndsAt p s`: no character with the property `p` stands at the front of `s`. -/
def EndsAt (p : Char → Bool) (s : List Char) : Prop := ∀ c ∈ s.head?, p c = false

theorem EndsAt.cons {p : Char → Bool} {c : Char} (h : p c = false) (s : List Char) :
    EndsAt p (c :: s) := by
  intro c' hc'
  rw [List.head?_cons, Option.mem_some_iff] at hc'
  rwa [← hc']

/-- The characters that can belong to a numeral behind its whole part. -/
def isNumeralChar (c : Char) : Bool := c.isDigit || c == '.' || c == 'e' || c == 'E'

/-- Where a value has ended, no numeral goes on. -/
theorem endsAt_of_terminated {rest : List Char} (h : Terminated rest) :
    EndsAt isNumeralChar rest := by
  intro c hc
  have hmem := h c hc
  simp only [List.mem_cons, List.not_mem_nil, or_false] at hmem
  rcases hmem with rfl | rfl | rfl | rfl | rfl | rfl | rfl <;> decide

theorem EndsAt.isDigit {s : List Char} (h : EndsAt isNumeralChar s) : EndsAt Char.isDigit s := by
  intro c hc
  have hnot := h c hc
  simp only [isNumeralChar, Bool.or_eq_false_iff] at hnot
  exact hnot.1.1.1

/-! ## Digits -/

theorem takeWhile_isDigit {digits rest : List Char} (h : ∀ c ∈ digits, c.isDigit = true)
    (hrest : EndsAt Char.isDigit rest) :
    (digits ++ rest).takeWhile Char.isDigit = digits ∧
      (digits ++ rest).dropWhile Char.isDigit = rest := by
  rw [List.takeWhile_append_of_pos h, List.dropWhile_append_of_pos h]
  cases rest with
  | nil => simp
  | cons c rest =>
      have hc : c.isDigit = false := hrest c rfl
      simp [hc]

/-- Digits begin with a digit, whatever follows them. -/
theorem isDigit_of_digits_append {digits rest s : List Char} {c : Char} (h : Digits digits)
    (hs : digits ++ rest = c :: s) : c.isDigit = true := by
  rcases h with ⟨hne, hdigits⟩
  cases digits with
  | nil => exact absurd rfl hne
  | cons d digits =>
      rw [List.cons_append, List.cons.injEq] at hs
      exact hs.1 ▸ hdigits d List.mem_cons_self

/-- As many digits are read as there are. -/
theorem readDigits_eq_ok_iff {s digits rest : List Char} :
    readDigits atEnd s = .ok (digits, rest) ↔
      Digits digits ∧ EndsAt Char.isDigit rest ∧ s = digits ++ rest := by
  constructor
  · intro h
    unfold readDigits at h
    split at h
    · cases h
    · rename_i c r
      split at h
      · rename_i hc
        simp only [Except.ok.injEq, Prod.mk.injEq] at h
        rcases h with ⟨rfl, rfl⟩
        refine ⟨⟨by simp, ?_⟩, ?_, ?_⟩
        · intro d hd
          rcases List.mem_cons.1 hd with rfl | hd
          · exact hc
          · exact List.mem_takeWhile_imp hd
        · intro d hd
          have hnot := List.head?_dropWhile_not Char.isDigit r
          rw [Option.mem_def.1 hd] at hnot
          simpa using hnot
        · rw [List.cons_append, List.takeWhile_append_dropWhile]
      · cases h
  · rintro ⟨⟨hne, hdigits⟩, hrest, rfl⟩
    cases digits with
    | nil => exact absurd rfl hne
    | cons c digits =>
        rcases takeWhile_isDigit (fun d hd => hdigits d (List.mem_cons_of_mem c hd)) hrest with
          ⟨htake, hdrop⟩
        simp [readDigits, hdigits c List.mem_cons_self, htake, hdrop]

/-! ## The parts of a numeral -/

/-- A zero in front of the whole part is all of it. -/
theorem readWhole_eq_ok_iff {s whole rest : List Char} :
    readWhole atEnd s = .ok (whole, rest) ↔
      Digits whole ∧ (whole.head? = some '0' → whole = ['0']) ∧ EndsAt Char.isDigit rest ∧
        s = whole ++ rest := by
  unfold readWhole
  split
  · rename_i r
    constructor
    · intro h
      split at h
      · cases h
      · rename_i hnot
        simp only [Except.ok.injEq, Prod.mk.injEq] at h
        rcases h with ⟨rfl, rfl⟩
        refine ⟨⟨by simp, List.forall_mem_singleton.2 rfl⟩, fun _ => rfl, ?_, rfl⟩
        intro c hc
        rw [Option.mem_def.1 hc] at hnot
        simpa using hnot
    · rintro ⟨⟨hne, hdigits⟩, hzero, hrest, hs⟩
      have hhead : whole.head? = some '0' := by
        cases whole with
        | nil => exact absurd rfl hne
        | cons c whole =>
            rw [List.cons_append, List.cons.injEq] at hs
            rw [List.head?_cons, hs.1]
      obtain rfl := hzero hhead
      simp only [List.cons_append, List.nil_append, List.cons.injEq, true_and] at hs
      subst hs
      have hnot : (r.head?.map Char.isDigit).getD false = false := by
        cases hr : r.head? with
        | none => rfl
        | some c => exact hrest c hr
      simp [hnot]
  · rename_i hzero
    rw [readDigits_eq_ok_iff]
    constructor
    · rintro ⟨hdigits, hrest, rfl⟩
      refine ⟨hdigits, ?_, hrest, rfl⟩
      intro hhead
      rcases List.head?_eq_some_iff.1 hhead with ⟨r, rfl⟩
      exact absurd rfl (hzero (r ++ rest))
    · rintro ⟨hdigits, -, hrest, rfl⟩
      exact ⟨hdigits, hrest, rfl⟩

theorem readFraction_sound {s digits rest : List Char}
    (h : readFraction atEnd s = .ok (digits, rest)) :
    ∃ fraction, Fraction fraction ∧ s = fraction ++ rest := by
  unfold readFraction at h
  split at h
  · rcases readDigits_eq_ok_iff.1 h with ⟨hdigits, -, rfl⟩
    exact ⟨_, .point hdigits, rfl⟩
  · simp only [Except.ok.injEq, Prod.mk.injEq] at h
    exact ⟨[], .none, h.2⟩

theorem readFraction_complete (atEnd : Fault) {fraction rest : List Char} (h : Fraction fraction)
    (hdigit : EndsAt Char.isDigit rest) (hpoint : rest.head? ≠ some '.') :
    ∃ digits, readFraction atEnd (fraction ++ rest) = .ok (digits, rest) := by
  cases h with
  | none =>
      refine ⟨[], ?_⟩
      unfold readFraction
      split
      · rename_i heq
        rw [List.nil_append] at heq
        rw [heq] at hpoint
        exact absurd rfl hpoint
      · rfl
  | point hdigits => exact ⟨_, readDigits_eq_ok_iff.2 ⟨hdigits, hdigit, rfl⟩⟩

/-- The sign of an exponent, if it has one, is read before its digits. -/
theorem readExponentSign_append {sign digits rest : List Char}
    (hsign : sign ∈ [[], ['+'], ['-']]) (hdigits : Digits digits) :
    (readExponentSign (sign ++ digits ++ rest)).2 = digits ++ rest := by
  simp only [List.mem_cons, List.not_mem_nil, or_false] at hsign
  rcases hsign with rfl | rfl | rfl
  · rw [List.nil_append]
    unfold readExponentSign
    split
    · rename_i heq
      exact absurd (isDigit_of_digits_append hdigits heq) (by decide)
    · rename_i heq
      exact absurd (isDigit_of_digits_append hdigits heq) (by decide)
    · rfl
  · rfl
  · rfl

theorem exists_readExponentSign_append (s : List Char) :
    ∃ sign, sign ∈ [[], ['+'], ['-']] ∧ s = sign ++ (readExponentSign s).2 := by
  unfold readExponentSign
  split
  · exact ⟨['+'], by simp, rfl⟩
  · exact ⟨['-'], by simp, rfl⟩
  · exact ⟨[], by simp, rfl⟩

theorem readExponent_sound {s rest : List Char} {value : Option (Bool × List Char)}
    (h : readExponent atEnd s = .ok (value, rest)) :
    ∃ exponent, Exponent exponent ∧ s = exponent ++ rest := by
  unfold readExponent at h
  split at h
  · cases h
    exact ⟨[], .none, rfl⟩
  · rename_i e r
    split at h
    · rename_i he
      split at h
      · cases h
      · rename_i digits rest' hread
        cases h
        rcases readDigits_eq_ok_iff.1 hread with ⟨hdigits, -, hr⟩
        rcases exists_readExponentSign_append r with ⟨sign, hsign, hr'⟩
        refine ⟨_, .some (by simpa using he) hsign hdigits, ?_⟩
        rw [hr', hr]
        simp
    · cases h
      exact ⟨[], .none, rfl⟩

theorem readExponent_complete (atEnd : Fault) {exponent rest : List Char} (h : Exponent exponent)
    (hrest : EndsAt isNumeralChar rest) :
    ∃ value, readExponent atEnd (exponent ++ rest) = .ok (value, rest) := by
  cases h with
  | none =>
      cases rest with
      | nil => exact ⟨none, rfl⟩
      | cons c rest =>
          have hc := hrest c rfl
          simp only [isNumeralChar, Bool.or_eq_false_iff, beq_eq_false_iff_ne] at hc
          exact ⟨none, by simp [readExponent, hc.1.2, hc.2]⟩
  | @some e sign digits he hsign hdigits =>
      have hread : readDigits atEnd (readExponentSign (sign ++ digits ++ rest)).2 =
          .ok (digits, rest) := by
        rw [readExponentSign_append hsign hdigits]
        exact readDigits_eq_ok_iff.2 ⟨hdigits, hrest.isDigit, rfl⟩
      have he' : e = 'e' ∨ e = 'E' := by simpa using he
      refine ⟨some ((readExponentSign (sign ++ digits ++ rest)).1, digits), ?_⟩
      rw [List.cons_append, List.cons_append, readExponent, if_pos he', hread]

/-! ## Numerals -/

/-- Behind its whole part, a numeral goes on with a point or an exponent if at all. -/
theorem readUnsigned_complete (atEnd : Fault) {negative : Bool}
    {whole fraction exponent rest : List Char} (hwhole : Digits whole) (hzero : whole.head? = some '0' → whole = ['0'])
    (hfraction : Fraction fraction) (hexponent : Exponent exponent)
    (hrest : EndsAt isNumeralChar rest) :
    ∃ v, readUnsigned atEnd negative (whole ++ (fraction ++ (exponent ++ rest))) =
      .ok (v, rest) := by
  -- Whatever parts are missing, the part before them does not run into the next one.
  have hdigit : EndsAt Char.isDigit (exponent ++ rest) := by
    cases hexponent with
    | none => exact hrest.isDigit
    | some he _ _ =>
        simp only [List.mem_cons, List.not_mem_nil, or_false] at he
        rcases he with rfl | rfl <;> exact .cons (by decide) _
  have hpoint : (exponent ++ rest).head? ≠ some '.' := by
    cases hexponent with
    | none =>
        intro hhead
        exact absurd (hrest _ hhead) (by decide)
    | some he _ _ =>
        simp only [List.mem_cons, List.not_mem_nil, or_false] at he
        rcases he with rfl | rfl <;> simp
  have hdigit' : EndsAt Char.isDigit (fraction ++ (exponent ++ rest)) := by
    cases hfraction with
    | none => exact hdigit
    | point _ => exact .cons (by decide) _
  have hread : readWhole atEnd (whole ++ (fraction ++ (exponent ++ rest))) =
      .ok (whole, fraction ++ (exponent ++ rest)) :=
    readWhole_eq_ok_iff.2 ⟨hwhole, hzero, hdigit', rfl⟩
  rcases readFraction_complete atEnd hfraction hdigit hpoint with ⟨digits, hread'⟩
  rcases readExponent_complete atEnd hexponent hrest with ⟨value, hread''⟩
  refine ⟨{ negative, whole, fraction := digits, exponent := value }, ?_⟩
  simp [readUnsigned, bind, Except.bind, pure, Except.pure, hread, hread', hread'']

theorem readUnsigned_sound {negative : Bool} {s rest : List Char} {v : Numeral}
    (h : readUnsigned atEnd negative s = .ok (v, rest)) :
    ∃ whole fraction exponent, Digits whole ∧ (whole.head? = some '0' → whole = ['0']) ∧
      Fraction fraction ∧ Exponent exponent ∧ s = whole ++ fraction ++ exponent ++ rest := by
  simp only [readUnsigned, bind, Except.bind, pure, Except.pure] at h
  split at h
  · cases h
  · rename_i p hwhole
    rcases readWhole_eq_ok_iff.1 hwhole with ⟨hdigits, hzero, -, hs⟩
    split at h
    · cases h
    · rename_i p' hfraction
      rcases readFraction_sound hfraction with ⟨fraction, hfraction', hs'⟩
      split at h
      · cases h
      · rename_i p'' hexponent
        rcases readExponent_sound hexponent with ⟨exponent, hexponent', hs''⟩
        cases h
        refine ⟨p.1, fraction, exponent, hdigits, hzero, hfraction', hexponent', ?_⟩
        rw [hs, hs', hs'']
        simp

/-- What is taken is a numeral. -/
theorem read_sound {s rest : List Char} {v : Numeral} (h : read atEnd s = .ok (v, rest)) :
    ∃ numeral, IsNumeral numeral ∧ s = numeral ++ rest := by
  unfold read at h
  split at h
  · rcases readUnsigned_sound h with ⟨whole, fraction, exponent, hw, hz, hf, he, rfl⟩
    exact ⟨_, .mk (List.mem_cons_of_mem _ List.mem_cons_self) hw hz hf he, rfl⟩
  · rcases readUnsigned_sound h with ⟨whole, fraction, exponent, hw, hz, hf, he, rfl⟩
    exact ⟨_, .mk List.mem_cons_self hw hz hf he, rfl⟩

/-- Every numeral is taken that has ended where the rest begins. -/
theorem read_complete (atEnd : Fault) {numeral rest : List Char} (h : IsNumeral numeral)
    (hrest : Terminated rest) : ∃ v, read atEnd (numeral ++ rest) = .ok (v, rest) := by
  cases h with
  | @mk sign whole fraction exponent hsign hwhole hzero hfraction hexponent =>
      have hends := endsAt_of_terminated hrest
      simp only [List.mem_cons, List.not_mem_nil, or_false] at hsign
      simp only [List.append_assoc]
      rcases hsign with rfl | rfl
      · rw [List.nil_append]
        unfold read
        split
        -- Without a sign, the first character is a digit and cannot be taken for one.
        · rename_i heq
          exact absurd (isDigit_of_digits_append hwhole heq) (by decide)
        · exact readUnsigned_complete atEnd hwhole hzero hfraction hexponent hends
      · exact readUnsigned_complete atEnd hwhole hzero hfraction hexponent hends

end Nominal.Json.Numeral
