/-!
# Readers

A reader takes a value off the front of a text and leaves the rest. The text is read front to back
and the first problem wins, so what follows a problem is never looked at.

Everything that brackets enclose is read by one loop, `items`: the elements of an array and the
members of an object alike, whether they are kept or skipped.
-/

namespace Nominal.Json

/-- Why a text is not the value it should be. -/
inductive Fault where
  /-- The text is not JSON. -/
  | malformed
  /-- The text ends before the value does. -/
  | truncated
  /-- The text is JSON so far, but not of the form that is asked for. -/
  | mismatch (message : String)
  deriving DecidableEq, Repr

/-- The characters that may stand between any two tokens. -/
def isBlank (c : Char) : Bool :=
  c = ' ' || c = '\n' || c = '\r' || c = '\t'

/-- Skips blanks. -/
def skipBlanks (s : List Char) : List Char := s.dropWhile isBlank

theorem length_skipBlanks_le (s : List Char) : (skipBlanks s).length ≤ s.length :=
  (List.dropWhile_sublist _).length_le

/-- Takes a value off the front of a text. What it leaves is shorter, so readers can be repeated. -/
structure Reader (α : Type) where
  read : List Char → Except Fault (α × List Char)
  shortens : ∀ {s a rest}, read s = .ok (a, rest) → rest.length < s.length

namespace Reader

variable {α β σ : Type}

/-- Changes the value that a reader takes. -/
def map (f : α → β) (reader : Reader α) : Reader β where
  read s := match reader.read s with
    | .ok (a, rest) => .ok (f a, rest)
    | .error fault => .error fault
  shortens {s b rest} h := by
    split at h
    · rename_i a rest' h'
      simp only [Except.ok.injEq, Prod.mk.injEq] at h
      exact h.2 ▸ reader.shortens h'
    · cases h

/-- Refuses every text. -/
def refuse (fault : Fault) : Reader α where
  read _ := .error fault
  shortens h := by cases h

/-! ## What brackets enclose -/

/-- Reads items with commas between them, up to the bracket `close`. Each item is read in the state
that the items before it left. -/
def items (close : Char) (item : σ → Reader σ) (state : σ) (s : List Char) :
    Except Fault (σ × List Char) :=
  match h : (item state).read s with
  | .error fault => .error fault
  | .ok (state', r) =>
    match h' : skipBlanks r with
    | [] => .error .truncated
    | c :: rest =>
      if c = close then .ok (state', rest)
      else if c = ',' then
        -- The item took a character at least, and the comma is another one.
        have : rest.length < s.length := by
          have := (item state).shortens h
          have := length_skipBlanks_le r
          rw [h'] at this
          simp only [List.length_cons] at this
          omega
        items close item state' rest
      else .error .malformed
  termination_by s.length

theorem length_items_lt {close : Char} {item : σ → Reader σ} {state state' : σ}
    {s rest : List Char} (h : items close item state s = .ok (state', rest)) :
    rest.length < s.length := by
  fun_induction items close item state s with
  | case1 => cases h
  | case2 => cases h
  | case3 state s next r hread hskip rest' =>
    have := (item state).shortens hread
    have := length_skipBlanks_le r
    simp_all only [Except.ok.injEq, Prod.mk.injEq, List.length_cons]
    omega
  | case4 => simp_all only [forall_const]; omega
  | case5 => cases h

/-- How the loop goes on after an item. -/
theorem items_eq (close : Char) (item : σ → Reader σ) (state : σ) (s : List Char) :
    items close item state s =
      match (item state).read s with
      | .error fault => .error fault
      | .ok (state', r) =>
        match skipBlanks r with
        | [] => .error .truncated
        | c :: rest =>
          if c = close then .ok (state', rest)
          else if c = ',' then items close item state' rest
          else .error .malformed := by
  rw [items]
  split
  · rename_i h
    simp only [h]
  · rename_i h
    simp only [h]
    split <;> (rename_i h'; simp only [h'])

/-- Reads what follows an opening bracket: nothing, or items, and the bracket `close`. -/
def enclosed (close : Char) (item : σ → Reader σ) (state : σ) (s : List Char) :
    Except Fault (σ × List Char) :=
  match skipBlanks s with
  | [] => .error .truncated
  | c :: rest => if c = close then .ok (state, rest) else items close item state (c :: rest)

theorem length_enclosed_lt {close : Char} {item : σ → Reader σ} {state state' : σ}
    {s rest : List Char} (h : enclosed close item state s = .ok (state', rest)) :
    rest.length < s.length := by
  have hs := length_skipBlanks_le s
  unfold enclosed at h
  split at h
  · cases h
  · rename_i c r hr
    rw [hr] at hs
    simp only [List.length_cons] at hs
    split at h
    · simp only [Except.ok.injEq, Prod.mk.injEq] at h
      rw [← h.2]; omega
    · have := length_items_lt h
      simp only [List.length_cons] at this
      omega

end Reader
end Nominal.Json
