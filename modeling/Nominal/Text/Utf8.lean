/-!
# UTF-8

Texts as octets, and octets as texts. Every sequence of octets can be read: where it is not UTF-8,
each longest start of a character that is not completed, and each octet that cannot start one, is
read as one replacement character. `decode_encode` says that the octets of a text are read as it.
-/

namespace Nominal.Utf8

/-- The octets of a character: one below U+0080, two below U+0800, three below U+10000, else four.
The first octet tells how many follow, and each that follows carries six bits. -/
def encodeChar (c : Char) : List UInt8 :=
  let n := c.toNat
  if n < 0x80 then [n.toUInt8]
  else if n < 0x800 then [(0xC0 + n / 64).toUInt8, (0x80 + n % 64).toUInt8]
  else if n < 0x10000 then
    [(0xE0 + n / 4096).toUInt8, (0x80 + n / 64 % 64).toUInt8, (0x80 + n % 64).toUInt8]
  else
    [(0xF0 + n / 262144).toUInt8, (0x80 + n / 4096 % 64).toUInt8, (0x80 + n / 64 % 64).toUInt8,
      (0x80 + n % 64).toUInt8]

/-- The octets of a text. -/
def encode (text : String) : List UInt8 := text.toList.flatMap encodeChar

/-- What a first octet says: the bits it carries, how many octets follow, and the range that the
next of them has to be in. The range is narrower where a shorter form or no character would
follow. -/
structure Lead where
  bits : Nat
  owed : Nat
  low : Nat := 0x80
  high : Nat := 0xBF

/-- Reads a first octet, if it is one. -/
def lead? (b : Nat) : Option Lead :=
  if b < 0x80 then some { bits := b, owed := 0 }
  else if b < 0xC2 then none
  else if b < 0xE0 then some { bits := b - 0xC0, owed := 1 }
  else if b < 0xF0 then
    some { bits := b - 0xE0, owed := 2, low := if b = 0xE0 then 0xA0 else 0x80,
           high := if b = 0xED then 0x9F else 0xBF }
  else if b < 0xF5 then
    some { bits := b - 0xF0, owed := 3, low := if b = 0xF0 then 0x90 else 0x80,
           high := if b = 0xF4 then 0x8F else 0xBF }
  else none

/-- Reads the octets that are owed, the next one between `low` and `high`, as long as they fit.
Returns the bits gathered, how many octets are still owed, and the octets that are left. -/
def readOwed : (owed low high bits : Nat) → List UInt8 → Nat × Nat × List UInt8
  | 0, _, _, bits, octets => (bits, 0, octets)
  | owed + 1, _, _, bits, [] => (bits, owed + 1, [])
  | owed + 1, low, high, bits, b :: octets =>
    if low ≤ b.toNat ∧ b.toNat ≤ high then
      readOwed owed 0x80 0xBF (bits * 64 + (b.toNat - 0x80)) octets
    else (bits, owed + 1, b :: octets)

/-- Reading octets that are owed never makes more octets. -/
theorem length_readOwed_le (owed low high bits : Nat) (octets : List UInt8) :
    (readOwed owed low high bits octets).2.2.length ≤ octets.length := by
  fun_induction readOwed owed low high bits octets with
  | case3 owed low high bits b octets _ ih => simp only [List.length_cons]; omega
  | _ => simp

/-- Stands for octets that are not UTF-8. -/
def replacement : Char := '\uFFFD'

/-- The characters that octets stand for. -/
def decodeChars : List UInt8 → List Char
  | [] => []
  | b :: octets =>
    match lead? b.toNat with
    | none => replacement :: decodeChars octets
    | some lead =>
      match h : readOwed lead.owed lead.low lead.high lead.bits octets with
      | (bits, owed, rest) =>
        have : rest.length ≤ octets.length := by
          have := length_readOwed_le lead.owed lead.low lead.high lead.bits octets
          rwa [h] at this
        (if owed = 0 then Char.ofNat bits else replacement) :: decodeChars rest
  termination_by octets => octets.length

/-- The text that octets stand for. -/
def decode (octets : List UInt8) : String := String.ofList (decodeChars octets)

/-! ## Reading what was written -/

theorem encode_append (a b : String) : encode (a ++ b) = encode a ++ encode b := by
  simp [encode]

/-- Octets below 2⁸ keep their value. -/
theorem toNat_toUInt8 {n : Nat} (h : n < 256) : n.toUInt8.toNat = n := by
  simp only [Nat.toUInt8, UInt8.toNat_ofNat']; omega

theorem readOwed_succ {owed low high bits b : Nat} {octets : List UInt8} (hb : b < 256)
    (hlow : low ≤ b) (hhigh : b ≤ high) :
    readOwed (owed + 1) low high bits (b.toUInt8 :: octets) =
      readOwed owed 0x80 0xBF (bits * 64 + (b - 0x80)) octets := by
  simp only [readOwed, toNat_toUInt8 hb]
  rw [if_pos ⟨hlow, hhigh⟩]

theorem decodeChars_cons {b : Nat} {octets rest : List UInt8} {bits : Nat} (lead : Lead)
    (hb : b < 256) (hlead : lead? b = some lead)
    (hread : readOwed lead.owed lead.low lead.high lead.bits octets = (bits, 0, rest)) :
    decodeChars (b.toUInt8 :: octets) = Char.ofNat bits :: decodeChars rest := by
  rw [decodeChars, toNat_toUInt8 hb]
  simp [hlead, hread]

/-- Reading takes exactly the octets of a character. -/
theorem decodeChars_encodeChar (c : Char) (rest : List UInt8) :
    decodeChars (encodeChar c ++ rest) = c :: decodeChars rest := by
  have hc : c.toNat < 0xD800 ∨ 0xDFFF < c.toNat ∧ c.toNat < 0x110000 := c.valid
  suffices decodeChars (encodeChar c ++ rest) = Char.ofNat c.toNat :: decodeChars rest by
    rwa [Char.ofNat_toNat] at this
  unfold encodeChar
  generalize c.toNat = n at hc
  dsimp only
  -- One octet.
  split
  · apply decodeChars_cons { bits := n, owed := 0 } (by omega)
    · rw [lead?, if_pos (by omega)]
    · rfl
  -- Two octets; the first one is at least 0xC2, since `n` does not fit into one octet.
  split
  · apply decodeChars_cons { bits := n / 64, owed := 1 } (by omega)
    · rw [lead?, if_neg (by omega), if_neg (by omega), if_pos (by omega)]
      simp
    · simp only [List.append_eq, List.cons_append, List.nil_append]
      rw [readOwed_succ (by omega) (by omega) (by omega), readOwed]
      simp only [Prod.mk.injEq, and_true]
      omega
  -- Three octets; what narrows the second one is that `n` is no surrogate and needs three.
  split
  · apply decodeChars_cons {
      bits := n / 4096, owed := 2, low := if n / 4096 = 0 then 0xA0 else 0x80,
      high := if n / 4096 = 13 then 0x9F else 0xBF } (by omega)
    · rw [lead?, if_neg (by omega), if_neg (by omega), if_neg (by omega), if_pos (by omega)]
      simp only [Option.some.injEq, Lead.mk.injEq]
      refine ⟨by omega, trivial, ?_, ?_⟩ <;> split <;> split <;> omega
    · simp only [List.append_eq, List.cons_append, List.nil_append]
      rw [readOwed_succ (by omega) (by split <;> omega) (by split <;> omega),
        readOwed_succ (by omega) (by omega) (by omega), readOwed]
      simp only [Prod.mk.injEq, and_true]
      omega
  -- Four octets; what narrows the second one is that `n` is a character and needs four.
  · apply decodeChars_cons {
      bits := n / 262144, owed := 3, low := if n / 262144 = 0 then 0x90 else 0x80,
      high := if n / 262144 = 4 then 0x8F else 0xBF } (by omega)
    · rw [lead?, if_neg (by omega), if_neg (by omega), if_neg (by omega), if_neg (by omega),
        if_pos (by omega)]
      simp only [Option.some.injEq, Lead.mk.injEq]
      refine ⟨by omega, trivial, ?_, ?_⟩ <;> split <;> split <;> omega
    · simp only [List.append_eq, List.cons_append, List.nil_append]
      rw [readOwed_succ (by omega) (by split <;> omega) (by split <;> omega),
        readOwed_succ (by omega) (by omega) (by omega),
        readOwed_succ (by omega) (by omega) (by omega), readOwed]
      simp only [Prod.mk.injEq, and_true]
      omega

/-- The octets of a text are read as that text. -/
theorem decode_encode (text : String) : decode (encode text) = text := by
  have (cs : List Char) : decodeChars (cs.flatMap encodeChar) = cs := by
    induction cs with
    | nil => simp [decodeChars]
    | cons c cs ih => rw [List.flatMap_cons, decodeChars_encodeChar, ih]
  simp [decode, encode, this]

end Nominal.Utf8
