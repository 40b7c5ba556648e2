import Mathlib.Data.List.Forall2
import Nominal.Json.Text

/-!
# The grammar of JSON documents

Which texts stand for which values, said without reading them from front to back:

* `Separated` — what stands between two brackets;
* `Spells` — the ways to write a text; `Skippable` — what passes for a text that nobody looks at;
* `IsNumeral`, `IsScalar`, `AnyValue` — values that have to be JSON and nothing else;
* `EncodesText`, `EncodesList`, `EncodesNullable` — values of one kind;
* `FieldRule`, `EncodesRecord` — records, as objects or as arrays.

An encoding relates a text to a value. The text is the value alone, without blanks before or behind
it.
-/

namespace Nominal.Json

/-! ## Blanks, commas and brackets -/

/-- `Blanks s`: the text `s` may stand between any two tokens. -/
def Blanks (s : List Char) : Prop := ∀ c ∈ s, c ∈ [' ', '\n', '\r', '\t']

/-- `Separated pieces s`: the text `s` consists of the pieces, with blanks around each of them and a
comma between any two. -/
inductive Separated : List (List Char) → List Char → Prop where
  | none {blanks : List Char} : Blanks blanks → Separated [] blanks
  | one {before after : List Char} (piece : List Char) : Blanks before → Blanks after →
      Separated [piece] (before ++ piece ++ after)
  | more {before after s : List Char} {next : List Char} {pieces : List (List Char)}
      (piece : List Char) : Blanks before → Blanks after → Separated (next :: pieces) s →
      Separated (piece :: next :: pieces) (before ++ piece ++ after ++ ',' :: s)

/-- A member of an object as it is written: a key without its quotes, a value, and the blanks around
the colon between them. -/
structure Member where
  key : List Char
  before : List Char
  after : List Char
  value : List Char
  blanks_before : Blanks before
  blanks_after : Blanks after

/-- The text of a member. -/
def Member.text (m : Member) : List Char :=
  '"' :: m.key ++ '"' :: m.before ++ ':' :: m.after ++ m.value

/-! ## Texts -/

/-- `ShortEscape e c`: a backslash and `e` stand for `c`. -/
inductive ShortEscape : Char → Char → Prop where
  | quote : ShortEscape '"' '"'
  | backslash : ShortEscape '\\' '\\'
  | slash : ShortEscape '/' '/'
  | backspace : ShortEscape 'b' '\x08'
  | formFeed : ShortEscape 'f' '\x0c'
  | lineFeed : ShortEscape 'n' '\n'
  | carriageReturn : ShortEscape 'r' '\r'
  | tab : ShortEscape 't' '\t'

/-- `HexDigit c n`: the character `c` is the hexadecimal digit `n`, in lower or in upper case. -/
def HexDigit (c : Char) (n : Nat) : Prop :=
  n < 16 ∧ (c = n.digitChar ∨ c = n.digitChar.toUpper)

/-- `UnitEscape s unit`: the escape `s` stands for a UTF-16 unit. -/
inductive UnitEscape : List Char → Nat → Prop where
  | mk {a b c d : Char} {i j k l : Nat} :
      HexDigit a i → HexDigit b j → HexDigit c k → HexDigit d l →
      UnitEscape ['\\', 'u', a, b, c, d] (((i * 16 + j) * 16 + k) * 16 + l)

/-- The first of the two UTF-16 units of a character beyond the basic plane. -/
def leadingUnit (c : Char) : Nat := 0xD800 + (c.toNat - 0x10000) / 0x400

/-- The second of the two UTF-16 units of a character beyond the basic plane. -/
def trailingUnit (c : Char) : Nat := 0xDC00 + (c.toNat - 0x10000) % 0x400

/-- `CharEscape s c`: the escape `s` stands for the character `c`. -/
inductive CharEscape : List Char → Char → Prop where
  | short {e c : Char} : ShortEscape e c → CharEscape ['\\', e] c
  | unit {s : List Char} {c : Char} : c.toNat < 0x10000 → UnitEscape s c.toNat → CharEscape s c
  | units {s s' : List Char} {c : Char} : 0x10000 ≤ c.toNat → UnitEscape s (leadingUnit c) →
      UnitEscape s' (trailingUnit c) → CharEscape (s ++ s') c

/-- `Spells s chars`: between quotes, the text `s` stands for `chars`. Any character may be escaped,
and quotes, backslashes and control characters have to be. -/
inductive Spells : List Char → List Char → Prop where
  | nil : Spells [] []
  | plain {c : Char} {s chars : List Char} : c ≠ '"' → c ≠ '\\' → ' ' ≤ c →
      Spells s chars → Spells (c :: s) (c :: chars)
  | escaped {c : Char} {escape s chars : List Char} : CharEscape escape c →
      Spells s chars → Spells (escape ++ s) (c :: chars)

/-- `EscapeForm s`: the text `s` has the form of an escape. It may be that of a UTF-16 unit which
stands for no character. -/
inductive EscapeForm : List Char → Prop where
  | short {e c : Char} : ShortEscape e c → EscapeForm ['\\', e]
  | unit {s : List Char} {unit : Nat} : UnitEscape s unit → EscapeForm s

/-- `Skippable s`: between quotes, the text `s` has the form of a text. -/
inductive Skippable : List Char → Prop where
  | nil : Skippable []
  | plain {c : Char} {s : List Char} : c ≠ '"' → c ≠ '\\' → ' ' ≤ c →
      Skippable s → Skippable (c :: s)
  | escaped {escape s : List Char} : EscapeForm escape → Skippable s → Skippable (escape ++ s)

/-! ## Values of any kind -/

/-- `Digits s`: the text `s` is one digit or more. -/
def Digits (s : List Char) : Prop := s ≠ [] ∧ ∀ c ∈ s, c.isDigit = true

/-- `Fraction s`: the text `s` may follow the whole part of a numeral. -/
inductive Fraction : List Char → Prop where
  | none : Fraction []
  | point {digits : List Char} : Digits digits → Fraction ('.' :: digits)

/-- `Exponent s`: the text `s` may end a numeral. -/
inductive Exponent : List Char → Prop where
  | none : Exponent []
  | some {e : Char} {sign digits : List Char} : e ∈ ['e', 'E'] → sign ∈ [[], ['+'], ['-']] →
      Digits digits → Exponent (e :: sign ++ digits)

/-- `IsNumeral s`: the text `s` is a numeral. Only a zero alone may begin with a zero. -/
inductive IsNumeral : List Char → Prop where
  | mk {sign whole fraction exponent : List Char} : sign ∈ [[], ['-']] → Digits whole →
      (whole.head? = some '0' → whole = ['0']) → Fraction fraction → Exponent exponent →
      IsNumeral (sign ++ whole ++ fraction ++ exponent)

/-- `IsScalar v`: the text `v` is a word or a numeral. -/
inductive IsScalar : List Char → Prop where
  | word {v : List Char} :
      v ∈ [['n', 'u', 'l', 'l'], ['t', 'r', 'u', 'e'], ['f', 'a', 'l', 's', 'e']] → IsScalar v
  | numeral {v : List Char} : IsNumeral v → IsScalar v

/-- `AnyValue v`: the text `v` is a JSON value. -/
inductive AnyValue : List Char → Prop where
  | scalar {v : List Char} : IsScalar v → AnyValue v
  | text {s : List Char} : Skippable s → AnyValue ('"' :: s ++ ['"'])
  | array {elements : List (List Char)} {s : List Char} : Separated elements s →
      (∀ v ∈ elements, AnyValue v) → AnyValue ('[' :: s ++ [']'])
  | object {members : List Member} {s : List Char} : Separated (members.map Member.text) s →
      (∀ m ∈ members, Skippable m.key) → (∀ m ∈ members, AnyValue m.value) →
      AnyValue ('\x7b' :: s ++ ['\x7d'])

/-! ## Values of one kind -/

/-- An encoding: which texts are written for which values. -/
abbrev Encoding (α : Type) := List Char → α → Prop

variable {α : Type}

/-- Texts stand between quotes. -/
def EncodesText : Encoding String := fun v text =>
  ∃ s, Spells s text.toList ∧ v = '"' :: s ++ ['"']

/-- Lists are arrays of their members. -/
def EncodesList (item : Encoding α) : Encoding (List α) := fun v l =>
  ∃ elements s, Separated elements s ∧ List.Forall₂ item elements l ∧ v = '[' :: s ++ [']']

/-- An optional value may be `null`. -/
def EncodesNullable (value : Encoding α) : Encoding (Option α)
  | v, none => v = ['n', 'u', 'l', 'l']
  | v, some a => value v a

/-! ## Records -/

/-- A field of the records in `α`: its key, what it holds, how that is written, and what leaving it
out means, if it may be left out. -/
structure FieldRule (α : Type) where
  Value : Type
  key : String
  ofRecord : α → Value
  default? : Option Value := none
  Encodes : Encoding Value

/-- A field that has to be written. -/
def FieldRule.required {β : Type} (key : String) (Encodes : Encoding β) (ofRecord : α → β) :
    FieldRule α where
  Value := β
  key := key
  ofRecord := ofRecord
  Encodes := Encodes

/-- A field that means `absent` where it is left out. -/
def FieldRule.optional {β : Type} (key : String) (Encodes : Encoding β) (ofRecord : α → β)
    (absent : β) : FieldRule α where
  Value := β
  key := key
  ofRecord := ofRecord
  default? := some absent
  Encodes := Encodes

/-- `rule.Omits x`: the record `x` is written without the field. -/
def FieldRule.Omits (rule : FieldRule α) (x : α) : Prop := rule.default? = some (rule.ofRecord x)

/-- `rule.Writes v x`: the record `x` is written with the text `v` for the field. -/
def FieldRule.Writes (rule : FieldRule α) (v : List Char) (x : α) : Prop :=
  rule.Encodes v (rule.ofRecord x)

/-- `EncodesMembers rules members x`: an object with these members, each beside the key that it
spells, stands for the record `x`. -/
structure EncodesMembers (rules : List (FieldRule α)) (members : List (String × Member)) (x : α) :
    Prop where
  keys : ∀ m ∈ members, Spells m.2.key m.1.toList
  /-- No field is written twice. -/
  once : ∀ rule ∈ rules, (members.map (·.1)).count rule.key ≤ 1
  written : ∀ rule ∈ rules, ∀ m ∈ members, m.1 = rule.key → rule.Writes m.2.value x
  omitted : ∀ rule ∈ rules, rule.key ∉ members.map (·.1) → rule.Omits x
  /-- There may be other members, with any values. -/
  unknown : ∀ m ∈ members, m.1 ∉ rules.map (·.key) → AnyValue m.2.value

/-- `EncodesElements rules elements x`: an array of these elements stands for the record `x`. The
fields are written in their order, and the last ones may be left out. -/
inductive EncodesElements : List (FieldRule α) → List (List Char) → α → Prop where
  | omitted {rules : List (FieldRule α)} {x : α} : (∀ rule ∈ rules, rule.Omits x) →
      EncodesElements rules [] x
  | written {rule : FieldRule α} {rules : List (FieldRule α)} {v : List Char}
      {elements : List (List Char)} {x : α} : rule.Writes v x → EncodesElements rules elements x →
      EncodesElements (rule :: rules) (v :: elements) x

/-- Records are objects with their fields as members, or arrays of their fields. -/
inductive EncodesRecord (rules : List (FieldRule α)) : Encoding α where
  | object {members : List (String × Member)} {s : List Char} {x : α} :
      Separated (members.map (·.2.text)) s → EncodesMembers rules members x →
      EncodesRecord rules ('\x7b' :: s ++ ['\x7d']) x
  | array {elements : List (List Char)} {s : List Char} {x : α} :
      Separated elements s → EncodesElements rules elements x →
      EncodesRecord rules ('[' :: s ++ [']']) x

end Nominal.Json
