import Nominal.Json.Numeral
import Nominal.Json.Text
import Nominal.Text.Quoted

/-!
# JSON values

What can be done with a value whatever it is: it can be skipped, and it can be described in the
message that says that another kind of value was expected. A skipped value is read to its end; of a
value that is described, an array or object is not read any further than its bracket.
-/

namespace Nominal.Json

/-- Reads the given word. -/
def readWord : List Char → List Char → Except Fault (List Char)
  | [], s => .ok s
  | _ :: _, [] => .error .truncated
  | c :: word, d :: s => if c = d then readWord word s else .error .malformed

theorem length_readWord_le {word s rest : List Char} (h : readWord word s = .ok rest) :
    rest.length ≤ s.length := by
  fun_induction readWord word s with
  | case1 => cases h; simp
  | case2 => cases h
  | case3 c word s ih => have := ih h; simp only [List.length_cons]; omega
  | case4 => cases h

/-- Reads a colon, after blanks. -/
def readColon (s : List Char) : Except Fault (List Char) :=
  match skipBlanks s with
  | [] => .error .truncated
  | c :: rest => if c = ':' then .ok rest else .error .malformed

theorem length_readColon_lt {s rest : List Char} (h : readColon s = .ok rest) :
    rest.length < s.length := by
  have hs := length_skipBlanks_le s
  unfold readColon at h
  split at h
  · cases h
  · rename_i hr
    rw [hr] at hs
    simp only [List.length_cons] at hs
    split at h
    · cases h; omega
    · cases h

/-! ## Descriptions -/

/-- A numeral as messages name it. A number that is too large is no JSON. -/
def describeNumeral (s : List Char) : Except Fault String :=
  match Numeral.read .truncated s with
  | .error fault => .error fault
  | .ok (v, _) =>
    match v.value? with
    | some (.integer n) => .ok ("integer `" ++ toString n ++ "`")
    | some (.float x) => .ok ("floating point `" ++ floatText x ++ "`")
    | none => .error .malformed

/-- The value at the front of a text as messages name it. A scalar is read to its end, and may be
at fault itself. -/
def describe : List Char → Except Fault String
  | [] => .error .truncated
  | 'n' :: rest => (readWord ['u', 'l', 'l'] rest).map fun _ => "null"
  | 't' :: rest => (readWord ['r', 'u', 'e'] rest).map fun _ => "boolean `true`"
  | 'f' :: rest => (readWord ['a', 'l', 's', 'e'] rest).map fun _ => "boolean `false`"
  | '"' :: rest => (readCharacters rest).map fun p => "string " ++ quoted (String.ofList p.1)
  | '[' :: _ => .ok "sequence"
  | '\x7b' :: _ => .ok "map"
  | c :: rest =>
    if c = '-' ∨ c.isDigit then describeNumeral (c :: rest) else .error .malformed

/-- The fault of a value of another kind than the expected one. -/
def unexpected (expected : String) (s : List Char) : Fault :=
  match describe s with
  | .error fault => fault
  | .ok found => .mismatch ("invalid type: " ++ found ++ ", expected " ++ expected)

/-! ## Skipping -/

/-- Skips a numeral. One that is cut off is at fault even at the end of the text. -/
def skipNumeral (s : List Char) : Except Fault (List Char) :=
  (Numeral.read .malformed s).map (·.2)

/-- Skips a scalar that is no text. -/
def skipScalar : List Char → Except Fault (List Char)
  | 'n' :: rest => readWord ['u', 'l', 'l'] rest
  | 't' :: rest => readWord ['r', 'u', 'e'] rest
  | 'f' :: rest => readWord ['a', 'l', 's', 'e'] rest
  | c :: rest => if c = '-' ∨ c.isDigit then skipNumeral (c :: rest) else .error .malformed
  | [] => .error .truncated

theorem length_skipScalar_lt {s rest : List Char} (h : skipScalar s = .ok rest) :
    rest.length < s.length := by
  unfold skipScalar at h
  split at h
  · have := length_readWord_le h; simp only [List.length_cons]; omega
  · have := length_readWord_le h; simp only [List.length_cons]; omega
  · have := length_readWord_le h; simp only [List.length_cons]; omega
  · rename_i c r _ _ _
    split at h
    · simp only [skipNumeral] at h
      cases hn : Numeral.read .malformed (c :: r) with
      | error fault => rw [hn] at h; cases h
      | ok p =>
        rw [hn] at h
        cases h
        exact Numeral.length_read_lt (v := p.1) hn
    · cases h
  · cases h

namespace Reader

/-- Skips a member of an object: a key, a colon, and a value. -/
def skippedMember (value : Reader Unit) : Reader Unit where
  read s :=
    match skipBlanks s with
    | [] => .error .truncated
    | c :: rest =>
      if c = '"' then
        match skipCharacters rest with
        | .error fault => .error fault
        | .ok rest =>
          match readColon rest with
          | .error fault => .error fault
          | .ok rest => value.read rest
      else .error .malformed
  shortens {s _ rest} h := by
    have hs := length_skipBlanks_le s
    split at h
    · cases h
    · rename_i hr
      rw [hr] at hs
      simp only [List.length_cons] at hs
      split at h
      · split at h
        · cases h
        · rename_i hk
          have := length_skipCharacters_lt hk
          split at h
          · cases h
          · rename_i hc
            have := length_readColon_lt hc
            have := value.shortens h
            omega
      · cases h

/-- Skips a value in which brackets are nested less than `depth` deep. -/
def skipped : (depth : Nat) → Reader Unit
  | 0 => refuse .truncated
  | depth + 1 =>
    { read := fun s =>
        match skipBlanks s with
        | [] => .error .truncated
        | c :: rest =>
          if c = '"' then (skipCharacters rest).map fun rest => ((), rest)
          else if c = '[' then enclosed ']' (fun _ => skipped depth) () rest
          else if c = '\x7b' then enclosed '\x7d' (fun _ => skippedMember (skipped depth)) () rest
          else (skipScalar (c :: rest)).map fun rest => ((), rest)
      shortens := fun {s _ rest} h => by
        have hs := length_skipBlanks_le s
        split at h
        · cases h
        · rename_i c r hr
          rw [hr] at hs
          simp only [List.length_cons] at hs
          split at h
          · cases hk : skipCharacters r with
            | error fault => rw [hk] at h; cases h
            | ok rest' =>
              rw [hk] at h
              cases h
              have := length_skipCharacters_lt hk
              omega
          · split at h
            · have := length_enclosed_lt h; omega
            · split at h
              · have := length_enclosed_lt h; omega
              · cases hk : skipScalar (c :: r) with
                | error fault => rw [hk] at h; cases h
                | ok rest' =>
                  rw [hk] at h
                  cases h
                  have := length_skipScalar_lt hk
                  simp only [List.length_cons] at this
                  omega }

/-- Skips a value. Brackets cannot be nested deeper than the text is long. -/
def skip : Reader Unit where
  read s := (skipped (s.length + 1)).read s
  shortens h := (skipped _).shortens h

/-! ## Values of one kind -/

/-- Reads a text. -/
def text : Reader String where
  read s :=
    match skipBlanks s with
    | [] => .error .truncated
    | c :: rest =>
      if c = '"' then (readCharacters rest).map fun p => (String.ofList p.1, p.2)
      else .error (unexpected "a string" (c :: rest))
  shortens {s _ rest} h := by
    have hs := length_skipBlanks_le s
    split at h
    · cases h
    · rename_i c r hr
      rw [hr] at hs
      simp only [List.length_cons] at hs
      split at h
      · cases hk : readCharacters r with
        | error fault => rw [hk] at h; cases h
        | ok p =>
          rw [hk] at h
          cases h
          have := length_readCharacters_lt hk
          omega
      · cases h

variable {α : Type}

/-- Reads one more element in front of those that were read. -/
def element (item : Reader α) (latest : List α) : Reader (List α) :=
  item.map (· :: latest)

/-- Reads an array of equal elements. -/
def list (item : Reader α) : Reader (List α) where
  read s :=
    match skipBlanks s with
    | [] => .error .truncated
    | c :: rest =>
      if c = '[' then
        match enclosed ']' item.element [] rest with
        | .error fault => .error fault
        | .ok (latest, rest) => .ok (latest.reverse, rest)
      else .error (unexpected "a sequence" (c :: rest))
  shortens {s _ rest} h := by
    have hs := length_skipBlanks_le s
    split at h
    · cases h
    · rename_i hr
      rw [hr] at hs
      simp only [List.length_cons] at hs
      split at h
      · split at h
        · cases h
        · rename_i he
          have := length_enclosed_lt he
          cases h
          omega
      · cases h

/-- Reads a value, or `null` in its place. -/
def nullable (value : Reader α) : Reader (Option α) where
  read s :=
    match skipBlanks s with
    | [] => .error .truncated
    | c :: rest =>
      if c = 'n' then (readWord ['u', 'l', 'l'] rest).map fun rest => (none, rest)
      else (value.map some).read (c :: rest)
  shortens {s _ rest} h := by
    have hs := length_skipBlanks_le s
    split at h
    · cases h
    · rename_i c r hr
      rw [hr] at hs
      simp only [List.length_cons] at hs
      split at h
      · cases hk : readWord ['u', 'l', 'l'] r with
        | error fault => rw [hk] at h; cases h
        | ok rest' =>
          rw [hk] at h
          cases h
          have := length_readWord_le hk
          omega
      · have := (value.map some).shortens h
        simp only [List.length_cons] at this
        omega

end Reader
end Nominal.Json
