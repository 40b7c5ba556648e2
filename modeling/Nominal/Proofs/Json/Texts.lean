import Nominal.Proofs.Json.Grammar

/-!
# Reading texts

Reading the characters of a text succeeds exactly on the texts that are spelled by the rules, and
leaves what stands behind the closing quote (`readCharacters_eq_ok_iff`). Skipping a text succeeds
on more of them, as it does not ask what an escape stands for (`skipCharacters_eq_ok_iff`). The
length of an escape can be told from its first characters, so both hold whatever follows the text.
-/

namespace Nominal.Json

/-- What is changed was read. -/
theorem except_map_eq_ok_iff {α β : Type} {f : α → β} {x : Except Fault α} {b : β} :
    x.map f = .ok b ↔ ∃ a, x = .ok a ∧ f a = b := by
  cases x with
  | error fault => simp [Except.map]
  | ok a => simp [Except.map]

/-! ## Units -/

/-- Beyond `f` there are no digits, so the digits can be gone through. -/
theorem forall_hexDigit?_ofNat : ∀ m < 103, ∀ n ∈ hexDigit? (Char.ofNat m), n < 16 ∧
    (Char.ofNat m = n.digitChar ∨ Char.ofNat m = n.digitChar.toUpper) := by
  decide

theorem hexDigit?_digitChar : ∀ n < 16,
    hexDigit? n.digitChar = some n ∧ hexDigit? n.digitChar.toUpper = some n := by
  decide

theorem toNat_lt_of_hexDigit? {c : Char} {n : Nat} (h : hexDigit? c = some n) : c.toNat < 103 := by
  simp only [hexDigit?, Char.le_def, UInt32.le_iff_toNat_le] at h
  split at h
  · rename_i hc
    exact Nat.lt_of_le_of_lt hc.2 (by decide)
  split at h
  · rename_i hc
    exact Nat.lt_of_le_of_lt hc.2 (by decide)
  split at h
  · rename_i hc
    exact Nat.lt_of_le_of_lt hc.2 (by decide)
  · cases h

theorem hexDigit?_eq_some_iff {c : Char} {n : Nat} : hexDigit? c = some n ↔ HexDigit c n := by
  constructor
  · intro h
    have hdigit := forall_hexDigit?_ofNat c.toNat (toNat_lt_of_hexDigit? h) n
    rw [Char.ofNat_toNat] at hdigit
    exact hdigit h
  · rintro ⟨hlt, rfl | rfl⟩
    · exact (hexDigit?_digitChar n hlt).1
    · exact (hexDigit?_digitChar n hlt).2

theorem hexUnit?_eq_some_iff {a b c d : Char} {unit : Nat} :
    hexUnit? a b c d = some unit ↔ UnitEscape ['\\', 'u', a, b, c, d] unit := by
  simp only [hexUnit?, Option.bind_eq_bind, Option.bind_eq_some_iff, Option.pure_def,
    Option.some.injEq, hexDigit?_eq_some_iff]
  constructor
  · rintro ⟨i, hi, j, hj, k, hk, l, hl, rfl⟩
    exact .mk hi hj hk hl
  · intro h
    cases h with
    | mk hi hj hk hl => exact ⟨_, hi, _, hj, _, hk, _, hl, rfl⟩

/-- An escape of a unit is told by its second character. -/
theorem UnitEscape.eq_cons {s : List Char} {unit : Nat} (h : UnitEscape s unit) :
    ∃ digits, s = '\\' :: 'u' :: digits := by
  cases h with
  | mk _ _ _ _ => exact ⟨_, rfl⟩

theorem UnitEscape.lt {s : List Char} {unit : Nat} (h : UnitEscape s unit) : unit < 0x10000 := by
  cases h with
  | mk hi hj hk hl =>
      have hilt := hi.1
      have hjlt := hj.1
      have hklt := hk.1
      have hllt := hl.1
      omega

/-- Four digits are read, whatever follows them. -/
theorem readUnit_eq_ok_iff {s rest : List Char} {unit : Nat} :
    readUnit s = .ok (unit, rest) ↔
      ∃ escape, UnitEscape escape unit ∧ '\\' :: 'u' :: s = escape ++ rest := by
  constructor
  · intro h
    unfold readUnit at h
    split at h
    · rename_i a b c d r
      split at h
      · rename_i hunit
        cases h
        exact ⟨_, hexUnit?_eq_some_iff.1 hunit, rfl⟩
      · cases h
    · split at h <;> cases h
  · rintro ⟨escape, hescape, hs⟩
    cases hescape with
    | mk hi hj hk hl =>
        have hunit := hexUnit?_eq_some_iff.2 (.mk hi hj hk hl)
        simp only [List.cons_append, List.nil_append, List.cons.injEq, true_and] at hs
        rw [hs]
        simp only [readUnit, hunit]

/-! ## Escapes -/

theorem shortEscape?_eq_some_iff {e c : Char} : shortEscape? e = some c ↔ ShortEscape e c := by
  constructor
  · intro h
    unfold shortEscape? at h
    split at h
    · exact Option.some.inj h ▸ .quote
    · exact Option.some.inj h ▸ .backslash
    · exact Option.some.inj h ▸ .slash
    · exact Option.some.inj h ▸ .backspace
    · exact Option.some.inj h ▸ .formFeed
    · exact Option.some.inj h ▸ .lineFeed
    · exact Option.some.inj h ▸ .carriageReturn
    · exact Option.some.inj h ▸ .tab
    · cases h
  · intro h
    cases h <;> rfl

/-- Every escape begins with a backslash. -/
theorem EscapeForm.eq_cons {s : List Char} (h : EscapeForm s) : ∃ r, s = '\\' :: r := by
  cases h with
  | short _ => exact ⟨_, rfl⟩
  | unit hunit =>
      rcases hunit.eq_cons with ⟨digits, rfl⟩
      exact ⟨_, rfl⟩

/-- An escape is a short one, or its second character is a `u`. -/
theorem CharEscape.short_or_eq_cons {s : List Char} {c : Char} (h : CharEscape s c) :
    (∃ e, ShortEscape e c ∧ s = ['\\', e]) ∨ ∃ digits, s = '\\' :: 'u' :: digits := by
  cases h with
  | short hshort => exact .inl ⟨_, hshort, rfl⟩
  | unit _ hunit => exact .inr hunit.eq_cons
  | units _ hunit _ =>
      rcases hunit.eq_cons with ⟨digits, rfl⟩
      exact .inr ⟨_, rfl⟩

theorem CharEscape.eq_cons {s : List Char} {c : Char} (h : CharEscape s c) :
    ∃ r, s = '\\' :: r := by
  rcases h.short_or_eq_cons with ⟨e, -, rfl⟩ | ⟨digits, rfl⟩
  · exact ⟨_, rfl⟩
  · exact ⟨_, rfl⟩

/-- No short escape looks like the escape of a unit. -/
theorem ShortEscape.ne_u {e c : Char} (h : ShortEscape e c) : e ≠ 'u' := by
  cases h <;> decide

theorem toNat_ofNat_of_isValidChar {n : Nat} (h : n.isValidChar) : (Char.ofNat n).toNat = n := by
  rw [Char.ofNat, dif_pos h]
  rfl

/-- A unit that is no half of a character stands for a character. -/
theorem toNat_ofNat_of_not_half {unit : Nat} (hlt : unit < 0x10000)
    (hleading : isLeading unit = false) (htrailing : isTrailing unit = false) :
    (Char.ofNat unit).toNat = unit := by
  apply toNat_ofNat_of_isValidChar
  simp only [isLeading, isTrailing, Bool.and_eq_false_iff, decide_eq_false_iff_not] at *
  simp only [Nat.isValidChar]
  omega

/-- A character of the basic plane is no half of another one. -/
theorem not_half_toNat (c : Char) : isLeading c.toNat = false ∧ isTrailing c.toNat = false := by
  have hvalid : c.toNat < 0xD800 ∨ 0xDFFF < c.toNat ∧ c.toNat < 0x110000 := c.valid
  simp only [isLeading, isTrailing, Bool.and_eq_false_iff, decide_eq_false_iff_not]
  omega

/-- Two halves stand for the character that they are the units of. -/
theorem joinUnits_units {leading trailing : Nat} (hleading : isLeading leading = true)
    (htrailing : isTrailing trailing = true) :
    0x10000 ≤ (joinUnits leading trailing).toNat ∧
      leadingUnit (joinUnits leading trailing) = leading ∧
      trailingUnit (joinUnits leading trailing) = trailing := by
  simp only [isLeading, isTrailing, Bool.and_eq_true, decide_eq_true_eq] at hleading htrailing
  have hvalid :
      ((leading - 0xD800) * 0x400 + (trailing - 0xDC00) + 0x10000).isValidChar := by
    simp only [Nat.isValidChar]
    omega
  have hchar : (joinUnits leading trailing).toNat =
      (leading - 0xD800) * 0x400 + (trailing - 0xDC00) + 0x10000 :=
    toNat_ofNat_of_isValidChar hvalid
  simp only [leadingUnit, trailingUnit, hchar]
  omega

/-- The units of a character beyond the basic plane are its two halves. -/
theorem units_joinUnits {c : Char} (h : 0x10000 ≤ c.toNat) :
    isLeading (leadingUnit c) = true ∧ isTrailing (trailingUnit c) = true ∧
      joinUnits (leadingUnit c) (trailingUnit c) = c := by
  have hvalid : c.toNat < 0xD800 ∨ 0xDFFF < c.toNat ∧ c.toNat < 0x110000 := c.valid
  have hsum : (leadingUnit c - 0xD800) * 0x400 + (trailingUnit c - 0xDC00) + 0x10000 =
      c.toNat := by
    simp only [leadingUnit, trailingUnit]
    omega
  refine ⟨?_, ?_, ?_⟩
  · simp only [isLeading, Bool.and_eq_true, decide_eq_true_eq]
    simp only [leadingUnit]
    omega
  · simp only [isTrailing, Bool.and_eq_true, decide_eq_true_eq]
    simp only [trailingUnit]
    omega
  · rw [joinUnits, hsum, Char.ofNat_toNat]

/-- The second half of a character is read behind the first one. -/
theorem readTrailing_eq_ok_iff {leading : Nat} (hleading : isLeading leading = true)
    {s rest : List Char} {c : Char} :
    readTrailing leading s = .ok (c, rest) ↔
      0x10000 ≤ c.toNat ∧ leadingUnit c = leading ∧
        ∃ escape, UnitEscape escape (trailingUnit c) ∧ s = escape ++ rest := by
  constructor
  · intro h
    unfold readTrailing at h
    split at h
    · cases h
    · cases h
    · split at h
      · cases h
      · rename_i r unit rest' hunit
        split at h
        · rename_i htrailing
          simp only [Except.ok.injEq, Prod.mk.injEq] at h
          rcases h with ⟨rfl, rfl⟩
          have hjoin := joinUnits_units hleading htrailing
          rcases readUnit_eq_ok_iff.1 hunit with ⟨escape, hescape, hs⟩
          refine ⟨hjoin.1, hjoin.2.1, escape, ?_, hs⟩
          rwa [hjoin.2.2]
        · cases h
    · cases h
  · rintro ⟨hle, rfl, escape, hescape, rfl⟩
    rcases units_joinUnits hle with ⟨-, htrailing, hjoin⟩
    rcases hescape.eq_cons with ⟨digits, rfl⟩
    have hunit : readUnit (digits ++ rest) = .ok (trailingUnit c, rest) :=
      readUnit_eq_ok_iff.2 ⟨_, hescape, rfl⟩
    simp only [List.cons_append, readTrailing, hunit, htrailing, if_true, hjoin]

/-- Behind a backslash and `u`, a character is read that is escaped by its units. -/
theorem readUnicodeEscape_eq_ok_iff {s rest : List Char} {c : Char} :
    readUnicodeEscape s = .ok (c, rest) ↔
      ∃ escape, CharEscape escape c ∧ '\\' :: 'u' :: s = escape ++ rest := by
  constructor
  · intro h
    unfold readUnicodeEscape at h
    split at h
    · cases h
    · rename_i unit r hunit
      rcases readUnit_eq_ok_iff.1 hunit with ⟨escape, hescape, hs⟩
      split at h
      · cases h
      · rename_i htrailing
        split at h
        · rename_i hleading
          rcases (readTrailing_eq_ok_iff hleading).1 h with ⟨hle, rfl, escape', hescape', rfl⟩
          refine ⟨escape ++ escape', .units hle hescape hescape', ?_⟩
          rw [hs, List.append_assoc]
        · rename_i hleading
          simp only [Except.ok.injEq, Prod.mk.injEq] at h
          rcases h with ⟨rfl, rfl⟩
          have hunit' := toNat_ofNat_of_not_half hescape.lt (by simpa using hleading)
            (by simpa using htrailing)
          refine ⟨escape, .unit ?_ ?_, hs⟩
          · rw [hunit']
            exact hescape.lt
          · rwa [hunit']
  · rintro ⟨escape, hescape, hs⟩
    cases hescape with
    | short hshort =>
        simp only [List.cons_append, List.cons.injEq, true_and] at hs
        exact absurd hs.1.symm hshort.ne_u
    | unit hlt hunit =>
        have hread : readUnit s = .ok (c.toNat, rest) := readUnit_eq_ok_iff.2 ⟨_, hunit, hs⟩
        rcases not_half_toNat c with ⟨hleading, htrailing⟩
        simp only [readUnicodeEscape, hread, hleading, htrailing, Char.ofNat_toNat]
        simp
    | @units escape escape' _ hle hunit hunit' =>
        rw [List.append_assoc] at hs
        have hread : readUnit s = .ok (leadingUnit c, escape' ++ rest) :=
          readUnit_eq_ok_iff.2 ⟨_, hunit, hs⟩
        rcases units_joinUnits hle with ⟨hleading, -, -⟩
        -- No unit is both halves, so the first one is not refused.
        have hnot : isTrailing (leadingUnit c) = false := by
          simp only [isLeading, isTrailing, Bool.and_eq_true, decide_eq_true_eq,
            Bool.and_eq_false_iff, decide_eq_false_iff_not] at *
          omega
        have htrail : readTrailing (leadingUnit c) (escape' ++ rest) = .ok (c, rest) :=
          (readTrailing_eq_ok_iff hleading).2 ⟨hle, rfl, escape', hunit', rfl⟩
        simp only [readUnicodeEscape, hread, hnot, hleading, htrail, if_true]
        simp

/-- Behind a backslash, a character is read that is escaped in any way. -/
theorem readEscape_eq_ok_iff {s rest : List Char} {c : Char} :
    readEscape s = .ok (c, rest) ↔
      ∃ escape, CharEscape escape c ∧ '\\' :: s = escape ++ rest := by
  cases s with
  | nil =>
      constructor
      · intro h
        cases h
      · rintro ⟨escape, hescape, hs⟩
        rcases hescape.short_or_eq_cons with ⟨e, -, rfl⟩ | ⟨digits, rfl⟩
        · simp at hs
        · simp at hs
  | cons e s =>
      -- After `u` there are units to read; no other escape has more than this one character.
      by_cases he : e = 'u'
      · subst he
        rw [← readUnicodeEscape_eq_ok_iff]
        simp [readEscape]
      · constructor
        · intro h
          simp only [readEscape, he, if_false] at h
          split at h
          · rename_i hshort
            simp only [Except.ok.injEq, Prod.mk.injEq] at h
            rcases h with ⟨rfl, rfl⟩
            exact ⟨_, .short (shortEscape?_eq_some_iff.1 hshort), rfl⟩
          · cases h
        · rintro ⟨escape, hescape, hs⟩
          rcases hescape.short_or_eq_cons with ⟨e', hshort, rfl⟩ | ⟨digits, rfl⟩
          · simp only [List.cons_append, List.nil_append, List.cons.injEq, true_and] at hs
            rcases hs with ⟨rfl, rfl⟩
            simp only [readEscape, he, if_false, shortEscape?_eq_some_iff.2 hshort]
          · simp [he] at hs

/-- Behind a backslash, whatever has the form of an escape is skipped. -/
theorem skipEscape_eq_ok_iff {s rest : List Char} :
    skipEscape s = .ok rest ↔ ∃ escape, EscapeForm escape ∧ '\\' :: s = escape ++ rest := by
  constructor
  · intro h
    unfold skipEscape at h
    split at h
    · cases h
    · rename_i e r
      split at h
      · rename_i he
        rcases except_map_eq_ok_iff.1 h with ⟨⟨unit, rest'⟩, hread, rfl⟩
        rcases readUnit_eq_ok_iff.1 hread with ⟨escape, hescape, hs⟩
        exact ⟨escape, .unit hescape, he ▸ hs⟩
      · split at h
        · rename_i hsome
          rcases Option.isSome_iff_exists.1 hsome with ⟨c, hc⟩
          cases h
          exact ⟨_, .short (shortEscape?_eq_some_iff.1 hc), rfl⟩
        · cases h
  · rintro ⟨escape, hescape, hs⟩
    cases hescape with
    | short hshort =>
        simp only [List.cons_append, List.nil_append, List.cons.injEq, true_and] at hs
        subst hs
        simp [skipEscape, hshort.ne_u, shortEscape?_eq_some_iff.2 hshort]
    | @unit _ unit hunit =>
        rcases hunit.eq_cons with ⟨digits, rfl⟩
        have hs' : s = 'u' :: (digits ++ rest) := by simpa using hs
        have hread : readUnit (digits ++ rest) = .ok (unit, rest) :=
          readUnit_eq_ok_iff.2 ⟨_, hunit, rfl⟩
        rw [hs']
        simp [skipEscape, hread, Except.map]

/-! ## Texts -/

/-- How the reading of a text goes on after its first character. -/
theorem readCharacters_cons (c : Char) (s : List Char) :
    readCharacters (c :: s) =
      if c = '"' then .ok ([], s)
      else if c = '\\' then
        match readEscape s with
        | .error fault => .error fault
        | .ok (a, rest) => (readCharacters rest).map fun (text, rest) => (a :: text, rest)
      else if c < ' ' then .error .malformed
      else (readCharacters s).map fun (text, rest) => (c :: text, rest) := by
  rw [readCharacters]
  split
  · rfl
  split
  · split <;> rename_i h <;> simp only [h]
  · rfl

/-- How the skipping of a text goes on after its first character. -/
theorem skipCharacters_cons (c : Char) (s : List Char) :
    skipCharacters (c :: s) =
      if c = '"' then .ok s
      else if c = '\\' then
        match skipEscape s with
        | .error fault => .error fault
        | .ok rest => skipCharacters rest
      else if c < ' ' then .error .malformed
      else skipCharacters s := by
  rw [skipCharacters]
  split
  · rfl
  split
  · split <;> rename_i h <;> simp only [h]
  · rfl

/-- Characters are read up to the closing quote, and are those that the text spells. -/
theorem readCharacters_eq_ok_iff {s chars rest : List Char} :
    readCharacters s = .ok (chars, rest) ↔
      ∃ spelling, Spells spelling chars ∧ s = spelling ++ '"' :: rest := by
  constructor
  · intro h
    fun_induction readCharacters s generalizing chars with
    | case1 => cases h
    | case2 r =>
        cases h
        exact ⟨[], .nil, rfl⟩
    | case3 => cases h
    | case4 r a r' hescape _ _ ih =>
        rcases except_map_eq_ok_iff.1 h with ⟨⟨text, rest'⟩, hread, heq⟩
        simp only [Prod.mk.injEq] at heq
        rcases heq with ⟨rfl, rfl⟩
        rcases ih hread with ⟨spelling, hspells, hr'⟩
        rcases readEscape_eq_ok_iff.1 hescape with ⟨escape, hchar, hr⟩
        refine ⟨escape ++ spelling, .escaped hchar hspells, ?_⟩
        rw [hr, hr', List.append_assoc]
    | case5 => cases h
    | case6 c r hquote hbackslash hcontrol ih =>
        rcases except_map_eq_ok_iff.1 h with ⟨⟨text, rest'⟩, hread, heq⟩
        simp only [Prod.mk.injEq] at heq
        rcases heq with ⟨rfl, rfl⟩
        rcases ih hread with ⟨spelling, hspells, hr⟩
        refine ⟨c :: spelling, .plain hquote hbackslash (by simpa using hcontrol) hspells, ?_⟩
        rw [hr, List.cons_append]
  -- The spelling is read one character after the other, be they plain or escaped.
  · rintro ⟨spelling, hspells, rfl⟩
    induction hspells with
    | nil => rw [List.nil_append, readCharacters_cons, if_pos rfl]
    | plain hquote hbackslash hcontrol _ ih =>
        have hnot : ¬ (_ : Char) < ' ' := Char.not_lt.2 hcontrol
        rw [List.cons_append, readCharacters_cons, if_neg hquote, if_neg hbackslash, if_neg hnot,
          ih]
        rfl
    | @escaped c escape spelling chars hchar _ ih =>
        rcases hchar.eq_cons with ⟨r, rfl⟩
        have hescape : readEscape (r ++ (spelling ++ '"' :: rest)) =
            .ok (c, spelling ++ '"' :: rest) :=
          readEscape_eq_ok_iff.2 ⟨_, hchar, rfl⟩
        rw [List.append_assoc, List.cons_append, readCharacters_cons, if_neg (by decide),
          if_pos rfl, hescape]
        simp only [ih, Except.map]

/-- Characters are skipped up to the closing quote. -/
theorem skipCharacters_eq_ok_iff {s rest : List Char} :
    skipCharacters s = .ok rest ↔
      ∃ spelling, Skippable spelling ∧ s = spelling ++ '"' :: rest := by
  constructor
  · intro h
    fun_induction skipCharacters s with
    | case1 => cases h
    | case2 r =>
        cases h
        exact ⟨[], .nil, rfl⟩
    | case3 => cases h
    | case4 r r' hescape _ _ ih =>
        rcases ih h with ⟨spelling, hskip, hr'⟩
        rcases skipEscape_eq_ok_iff.1 hescape with ⟨escape, hform, hr⟩
        refine ⟨escape ++ spelling, .escaped hform hskip, ?_⟩
        rw [hr, hr', List.append_assoc]
    | case5 => cases h
    | case6 c r hquote hbackslash hcontrol ih =>
        rcases ih h with ⟨spelling, hskip, hr⟩
        refine ⟨c :: spelling, .plain hquote hbackslash (by simpa using hcontrol) hskip, ?_⟩
        rw [hr, List.cons_append]
  · rintro ⟨spelling, hskip, rfl⟩
    induction hskip with
    | nil => rw [List.nil_append, skipCharacters_cons, if_pos rfl]
    | plain hquote hbackslash hcontrol _ ih =>
        have hnot : ¬ (_ : Char) < ' ' := Char.not_lt.2 hcontrol
        rw [List.cons_append, skipCharacters_cons, if_neg hquote, if_neg hbackslash, if_neg hnot,
          ih]
    | @escaped escape spelling hform _ ih =>
        rcases hform.eq_cons with ⟨r, rfl⟩
        have hescape : skipEscape (r ++ (spelling ++ '"' :: rest)) =
            .ok (spelling ++ '"' :: rest) :=
          skipEscape_eq_ok_iff.2 ⟨_, hform, rfl⟩
        rw [List.append_assoc, List.cons_append, skipCharacters_cons, if_neg (by decide),
          if_pos rfl, hescape]
        exact ih

end Nominal.Json
