import Nominal.Json.Value

/-!
# Records in JSON

A record is written as an object with its fields as members, in any order and possibly with others
among them, or as an array of its fields in the order of the format. Fields are read into a draft,
which tells which of them it holds; from the finished draft the record is made, unless a field that
it needs is missing.
-/

namespace Nominal.Json

/-- A field of a record, and how it is read into the draft. -/
structure Field (σ : Type) where
  key : String
  isSet : σ → Bool
  value : σ → Reader σ

/-- The format of a record. -/
structure Format (σ α : Type) where
  /-- What messages call the record. -/
  title : String
  /-- The fields, in the order of the array form. -/
  fields : List (Field σ)
  /-- The draft that holds no field. -/
  blank : σ
  /-- The record that a draft describes, or the first field it misses. -/
  finish : σ → Except String α

/-! ## Wordings -/

/-- The message for a field that is given twice. -/
def duplicateText (key : String) : String := "duplicate field `" ++ key ++ "`"

/-- The message for a field that is not given. -/
def missingText (key : String) : String := "missing field `" ++ key ++ "`"

namespace Format

variable {σ α : Type}

/-- What messages call the record where another kind of value is found. -/
def expected (f : Format σ α) : String := "struct " ++ f.title

/-- The message for an array with fewer elements than the record needs. -/
def lengthText (f : Format σ α) (length : Nat) : String :=
  "invalid length " ++ toString length ++ ", expected " ++ f.expected ++ " with " ++
    toString f.fields.length ++ " elements"

/-! ## Reading -/

/-- Reads the colon and the value of a member into the draft, or past it if no field has its key. -/
def readMemberValue (f : Format σ α) (draft : σ) (key : List Char) (s : List Char) :
    Except Fault (σ × List Char) :=
  match f.fields.find? (·.key.toList = key) with
  | some field =>
    if field.isSet draft then .error (.mismatch (duplicateText field.key))
    else match readColon s with
      | .error fault => .error fault
      | .ok rest => (field.value draft).read rest
  | none =>
    match readColon s with
    | .error fault => .error fault
    | .ok rest =>
      match Reader.skip.read rest with
      | .error fault => .error fault
      | .ok ((), rest) => .ok (draft, rest)

theorem length_readMemberValue_lt {f : Format σ α} {draft draft' : σ} {key s rest : List Char}
    (h : f.readMemberValue draft key s = .ok (draft', rest)) : rest.length < s.length := by
  unfold readMemberValue at h
  split at h
  · rename_i field _
    split at h
    · cases h
    · split at h
      · cases h
      · rename_i hc
        have := length_readColon_lt hc
        have := (field.value draft).shortens h
        omega
  · split at h
    · cases h
    · rename_i hc
      have := length_readColon_lt hc
      split at h
      · cases h
      · rename_i hk
        have := Reader.skip.shortens hk
        cases h
        omega

/-- Reads a member of the object form. -/
def member (f : Format σ α) (draft : σ) : Reader σ where
  read s :=
    match skipBlanks s with
    | [] => .error .truncated
    | c :: rest =>
      if c = '"' then
        match readCharacters rest with
        | .error fault => .error fault
        | .ok (key, rest) => f.readMemberValue draft key rest
      else .error .malformed
  shortens {s _ rest} h := by
    have hs := length_skipBlanks_le s
    split at h
    · cases h
    · rename_i hr
      rw [hr] at hs
      simp only [List.length_cons] at hs
      split at h
      · split at h
        · cases h
        · rename_i hk
          have := length_readCharacters_lt hk
          have := length_readMemberValue_lt h
          omega
      · cases h

/-- Reads an element of the array form: the first of the fields that are left. There may be no more
elements than fields. -/
def element : σ × List (Field σ) → Reader (σ × List (Field σ))
  | (_, []) => .refuse .malformed
  | (draft, field :: left) => (field.value draft).map fun draft => (draft, left)

/-- Reads the members of the object form. -/
def readObject (f : Format σ α) (s : List Char) : Except Fault (α × List Char) :=
  match Reader.enclosed '\x7d' f.member f.blank s with
  | .error fault => .error fault
  | .ok (draft, rest) =>
    match f.finish draft with
    | .ok record => .ok (record, rest)
    | .error key => .error (.mismatch (missingText key))

/-- Reads the elements of the array form. -/
def readArray (f : Format σ α) (s : List Char) : Except Fault (α × List Char) :=
  match Reader.enclosed ']' element (f.blank, f.fields) s with
  | .error fault => .error fault
  | .ok ((draft, left), rest) =>
    match f.finish draft with
    | .ok record => .ok (record, rest)
    | .error _ => .error (.mismatch (f.lengthText (f.fields.length - left.length)))

/-- Reads a record. -/
def reader (f : Format σ α) : Reader α where
  read s :=
    match skipBlanks s with
    | [] => .error .truncated
    | c :: rest =>
      if c = '\x7b' then f.readObject rest
      else if c = '[' then f.readArray rest
      else .error (unexpected f.expected (c :: rest))
  shortens {s _ rest} h := by
    have hs := length_skipBlanks_le s
    split at h
    · cases h
    · rename_i hr
      rw [hr] at hs
      simp only [List.length_cons] at hs
      split at h
      · unfold readObject at h
        split at h
        · cases h
        · rename_i he
          have := Reader.length_enclosed_lt he
          split at h
          · cases h; omega
          · cases h
      · split at h
        · unfold readArray at h
          split at h
          · cases h
          · rename_i he
            have := Reader.length_enclosed_lt he
            split at h
            · cases h; omega
            · cases h
        · cases h

end Format
end Nominal.Json
