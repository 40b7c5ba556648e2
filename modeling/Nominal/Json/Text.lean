import Nominal.Json.Reader

/-!
# JSON texts

A text stands between double quotes. A backslash begins an escape, which stands for one character;
control characters have to be escaped. A character beyond the basic plane may be escaped as two
UTF-16 units, a leading and a trailing surrogate; neither may stand alone.

A text that is not needed can be skipped. Then an escape is checked by its form only, so that a
surrogate may stand alone.
-/

namespace Nominal.Json

/-! ## Escapes -/

/-- The character that a backslash and `c` stand for, unless `c` begins a longer escape. -/
def shortEscape? : Char → Option Char
  | '"' => some '"'
  | '\\' => some '\\'
  | '/' => some '/'
  | 'b' => some '\x08'
  | 'f' => some '\x0c'
  | 'n' => some '\n'
  | 'r' => some '\r'
  | 't' => some '\t'
  | _ => none

/-- The value of a hexadecimal digit. -/
def hexDigit? (c : Char) : Option Nat :=
  if '0' ≤ c ∧ c ≤ '9' then some (c.toNat - '0'.toNat)
  else if 'a' ≤ c ∧ c ≤ 'f' then some (c.toNat - 'a'.toNat + 10)
  else if 'A' ≤ c ∧ c ≤ 'F' then some (c.toNat - 'A'.toNat + 10)
  else none

/-- The UTF-16 unit that four hexadecimal digits stand for. -/
def hexUnit? (a b c d : Char) : Option Nat := do
  let a ← hexDigit? a
  let b ← hexDigit? b
  let c ← hexDigit? c
  let d ← hexDigit? d
  pure (((a * 16 + b) * 16 + c) * 16 + d)

/-- Reads four hexadecimal digits. The text counts as cut off if fewer than four octets are left of
it, whatever they are. -/
def readUnit : List Char → Except Fault (Nat × List Char)
  | a :: b :: c :: d :: rest =>
    match hexUnit? a b c d with
    | some unit => .ok (unit, rest)
    | none => .error .malformed
  | short =>
    if (String.ofList short).utf8ByteSize < 4 then .error .truncated else .error .malformed

/-- Whether a UTF-16 unit is the first half of a character. -/
def isLeading (unit : Nat) : Bool := 0xD800 ≤ unit && unit ≤ 0xDBFF

/-- Whether a UTF-16 unit is the second half of a character. -/
def isTrailing (unit : Nat) : Bool := 0xDC00 ≤ unit && unit ≤ 0xDFFF

/-- The character that a leading and a trailing surrogate stand for. -/
def joinUnits (leading trailing : Nat) : Char :=
  Char.ofNat ((leading - 0xD800) * 0x400 + (trailing - 0xDC00) + 0x10000)

/-- Reads the second half of a character: a backslash, `u`, and a trailing surrogate. -/
def readTrailing (leading : Nat) : List Char → Except Fault (Char × List Char)
  | [] | ['\\'] => .error .truncated
  | '\\' :: 'u' :: s =>
    match readUnit s with
    | .error fault => .error fault
    | .ok (unit, rest) =>
      if isTrailing unit then .ok (joinUnits leading unit, rest) else .error .malformed
  | _ => .error .malformed

/-- Reads the digits of a `u` escape, and the second half of the character if it needs one. -/
def readUnicodeEscape (s : List Char) : Except Fault (Char × List Char) :=
  match readUnit s with
  | .error fault => .error fault
  | .ok (unit, rest) =>
    if isTrailing unit then .error .malformed
    else if isLeading unit then readTrailing unit rest
    else .ok (Char.ofNat unit, rest)

/-- Reads what follows a backslash. -/
def readEscape : List Char → Except Fault (Char × List Char)
  | [] => .error .truncated
  | c :: rest =>
    if c = 'u' then readUnicodeEscape rest
    else match shortEscape? c with
      | some a => .ok (a, rest)
      | none => .error .malformed

/-- Skips what follows a backslash. -/
def skipEscape : List Char → Except Fault (List Char)
  | [] => .error .truncated
  | c :: rest =>
    if c = 'u' then (readUnit rest).map (·.2)
    else if (shortEscape? c).isSome then .ok rest
    else .error .malformed

/-! ## Every step leaves less -/

theorem length_readUnit_lt {s rest : List Char} {unit : Nat} (h : readUnit s = .ok (unit, rest)) :
    rest.length < s.length := by
  unfold readUnit at h
  split at h
  · split at h
    · simp only [Except.ok.injEq, Prod.mk.injEq] at h
      simp only [← h.2, List.length_cons]; omega
    · cases h
  · split at h <;> cases h

theorem length_readTrailing_lt {leading : Nat} {s rest : List Char} {c : Char}
    (h : readTrailing leading s = .ok (c, rest)) : rest.length < s.length := by
  unfold readTrailing at h
  split at h
  · cases h
  · cases h
  · split at h
    · cases h
    · rename_i hu
      have := length_readUnit_lt hu
      split at h
      · simp only [Except.ok.injEq, Prod.mk.injEq] at h
        simp only [← h.2, List.length_cons]; omega
      · cases h
  · cases h

theorem length_readUnicodeEscape_lt {s rest : List Char} {c : Char}
    (h : readUnicodeEscape s = .ok (c, rest)) : rest.length < s.length := by
  unfold readUnicodeEscape at h
  split at h
  · cases h
  · rename_i hu
    have := length_readUnit_lt hu
    split at h
    · cases h
    · split at h
      · have := length_readTrailing_lt h; omega
      · simp only [Except.ok.injEq, Prod.mk.injEq] at h
        simp only [← h.2]; omega

theorem length_readEscape_lt {s rest : List Char} {c : Char} (h : readEscape s = .ok (c, rest)) :
    rest.length < s.length := by
  unfold readEscape at h
  split at h
  · cases h
  · split at h
    · have := length_readUnicodeEscape_lt h
      simp only [List.length_cons]; omega
    · split at h
      · simp only [Except.ok.injEq, Prod.mk.injEq] at h
        simp [← h.2]
      · cases h

theorem length_skipEscape_lt {s rest : List Char} (h : skipEscape s = .ok rest) :
    rest.length < s.length := by
  unfold skipEscape at h
  split at h
  · cases h
  · rename_i c r
    split at h
    · cases hu : readUnit r with
      | error fault => rw [hu] at h; cases h
      | ok p =>
        rw [hu] at h
        have := length_readUnit_lt hu
        cases h
        simp only [List.length_cons]; omega
    · split at h
      · cases h; simp
      · cases h

/-! ## Texts -/

/-- Reads the characters of a text up to its closing quote. -/
def readCharacters (s : List Char) : Except Fault (List Char × List Char) :=
  match s with
  | [] => .error .truncated
  | c :: rest =>
    if c = '"' then .ok ([], rest)
    else if c = '\\' then
      match h : readEscape rest with
      | .error fault => .error fault
      | .ok (a, rest') =>
        have := length_readEscape_lt h
        (readCharacters rest').map fun (text, rest) => (a :: text, rest)
    else if c < ' ' then .error .malformed
    else (readCharacters rest).map fun (text, rest) => (c :: text, rest)
  termination_by s.length

/-- Skips the characters of a text and its closing quote. -/
def skipCharacters (s : List Char) : Except Fault (List Char) :=
  match s with
  | [] => .error .truncated
  | c :: rest =>
    if c = '"' then .ok rest
    else if c = '\\' then
      match h : skipEscape rest with
      | .error fault => .error fault
      | .ok rest' =>
        have := length_skipEscape_lt h
        skipCharacters rest'
    else if c < ' ' then .error .malformed
    else skipCharacters rest
  termination_by s.length

theorem length_readCharacters_lt {s text rest : List Char}
    (h : readCharacters s = .ok (text, rest)) : rest.length < s.length := by
  fun_induction readCharacters s generalizing text with
  | case1 => cases h
  | case2 => cases h; simp
  | case3 => cases h
  | case4 rest' a r hr hlt _ ih =>
    cases hc : readCharacters r with
    | error fault => rw [hc] at h; cases h
    | ok p =>
      rw [hc] at h
      cases h
      have := ih hc
      simp only [List.length_cons]; omega
  | case5 => cases h
  | case6 c r _ _ _ ih =>
    cases hc : readCharacters r with
    | error fault => rw [hc] at h; cases h
    | ok p =>
      rw [hc] at h
      cases h
      have := ih hc
      simp only [List.length_cons]; omega

theorem length_skipCharacters_lt {s rest : List Char} (h : skipCharacters s = .ok rest) :
    rest.length < s.length := by
  fun_induction skipCharacters s with
  | case1 => cases h
  | case2 => cases h; simp
  | case3 => cases h
  | case4 r _ r' hr hlt ih =>
    have := ih h
    simp only [List.length_cons]; omega
  | case5 => cases h
  | case6 c r _ _ _ ih =>
    have := ih h
    simp only [List.length_cons]; omega

end Nominal.Json
