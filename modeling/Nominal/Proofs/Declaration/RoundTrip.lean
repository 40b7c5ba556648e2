import Nominal.Declaration.Printing
import Nominal.Proofs.Declaration.Documents

/-!
# Printed declarations

A printed declaration is one of the documents that stand for it: every printer writes what its
encoding asks for (`HierarchyDecl.encodes_print`). Documents that stand for a declaration are read
as that declaration, so printing and reading it gives the same declaration
(`HierarchyDecl.ofJson_toJson`), and printing what was read from some other document only has an
effect once.
-/

namespace Nominal

namespace Json

/-! ## Texts -/

/-- A control character is escaped by its number. -/
theorem unitEscape_of_lt {n : Nat} (h : n < 32) :
    UnitEscape ['\\', 'u', '0', '0', Nat.digitChar (n / 16), Nat.digitChar (n % 16)] n := by
  have hzero : HexDigit '0' 0 := ⟨by decide, .inl rfl⟩
  have hhigh : HexDigit (Nat.digitChar (n / 16)) (n / 16) := ⟨by omega, .inl rfl⟩
  have hlow : HexDigit (Nat.digitChar (n % 16)) (n % 16) := ⟨by omega, .inl rfl⟩
  have hunit : ((0 * 16 + 0) * 16 + n / 16) * 16 + n % 16 = n := by omega
  have hescape := UnitEscape.mk hzero hzero hhigh hlow
  rwa [hunit] at hescape

/-- A character is written as an escape, or as it is. -/
theorem escapeChar_cases (c : Char) : CharEscape (escapeChar c) c ∨
    escapeChar c = [c] ∧ c ≠ '"' ∧ c ≠ '\\' ∧ ' ' ≤ c := by
  unfold escapeChar
  split
  · exact .inl (.short .quote)
  · exact .inl (.short .backslash)
  · exact .inl (.short .backspace)
  · exact .inl (.short .formFeed)
  · exact .inl (.short .lineFeed)
  · exact .inl (.short .carriageReturn)
  · exact .inl (.short .tab)
  · rename_i hquote hbackslash _ _ _ _ _
    split
    · rename_i hlt
      have hlt' : c.toNat < 32 := hlt
      exact .inl (.unit (by omega) (unitEscape_of_lt hlt'))
    · rename_i hle
      exact .inr ⟨rfl, hquote, hbackslash, Char.not_lt.1 hle⟩

theorem spells_flatMap_escapeChar (chars : List Char) :
    Spells (chars.flatMap escapeChar) chars := by
  induction chars with
  | nil => exact .nil
  | cons c chars ih =>
      rw [List.flatMap_cons]
      rcases escapeChar_cases c with hescape | ⟨hplain, hquote, hbackslash, hle⟩
      · exact .escaped hescape ih
      · rw [hplain]
        exact .plain hquote hbackslash hle ih

theorem encodesText_printText (text : String) : EncodesText (printText text) text :=
  ⟨_, spells_flatMap_escapeChar text.toList, rfl⟩

/-! ## Arrays and objects -/

/-- Items are printed without blanks around them. -/
theorem separated_printItems : ∀ items, Separated items (printItems items)
  | [] => .none .nil
  | [item] => by
      have hone := Separated.one item .nil .nil
      rwa [List.nil_append, List.append_nil] at hone
  | item :: next :: items => by
      have hmore := Separated.more item .nil .nil (separated_printItems (next :: items))
      rwa [List.nil_append, List.append_nil] at hmore

variable {α : Type}

theorem encodesList_printArray {Encodes : Encoding α} {print : α → List Char}
    (h : ∀ a, Encodes (print a) a) (l : List α) :
    EncodesList Encodes (printArray (l.map print)) l := by
  refine ⟨l.map print, _, separated_printItems _, ?_, rfl⟩
  exact List.forall₂_map_left_iff.2 (List.forall₂_same.2 fun a _ => h a)

/-- A member as it is printed: its key and its value, without blanks. -/
def printedMember (member : String × List Char) : String × Member :=
  (member.1, {
    key := member.1.toList.flatMap escapeChar
    before := []
    after := []
    value := member.2
    blanks_before := .nil
    blanks_after := .nil })

theorem text_printedMember (member : String × List Char) :
    (printedMember member).2.text = printText member.1 ++ ':' :: member.2 := by
  simp [printedMember, Member.text, printText]

/-- A member of the one list has a partner in the other one. -/
theorem exists_of_forall₂ {β γ : Type _} {R : β → γ → Prop} {bs : List β} {cs : List γ}
    (h : List.Forall₂ R bs cs) {c : γ} (hc : c ∈ cs) : ∃ b ∈ bs, R b c := by
  induction h with
  | nil => cases hc
  | cons hfirst _ ih =>
      rcases List.mem_cons.1 hc with rfl | hc
      · exact ⟨_, List.mem_cons_self, hfirst⟩
      · rcases ih hc with ⟨b, hb, hrel⟩
        exact ⟨b, List.mem_cons_of_mem _ hb, hrel⟩

/-- `WritesAll rules members x`: the members are the fields of the record `x`, in their order. -/
abbrev WritesAll (rules : List (FieldRule α)) (members : List (String × List Char)) (x : α) : Prop :=
  List.Forall₂ (fun rule m => m.1 = rule.key ∧ rule.Writes m.2 x) rules members

section WritesAll

variable {rules : List (FieldRule α)} {members : List (String × List Char)} {x : α}

theorem WritesAll.map_key_eq (h : WritesAll rules members x) :
    members.map (·.1) = rules.map (·.key) := by
  induction h with
  | nil => rfl
  | cons hm _ ih => rw [List.map_cons, List.map_cons, hm.1, ih]

theorem WritesAll.exists_rule (h : WritesAll rules members x) {m : String × List Char}
    (hm : m ∈ members) : ∃ rule ∈ rules, m.1 = rule.key ∧ rule.Writes m.2 x :=
  exists_of_forall₂ h hm

/-- With all its fields as members, each of them once, a record is encoded. -/
theorem WritesAll.encodesMembers (h : WritesAll rules members x)
    (hnodup : (rules.map (·.key)).Nodup) :
    EncodesMembers rules (members.map printedMember) x := by
  have hkeys : (members.map printedMember).map (·.1) = rules.map (·.key) := by
    rw [← h.map_key_eq, List.map_map]
    rfl
  constructor
  case keys =>
    refine List.forall_mem_map.2 fun m _ => ?_
    exact spells_flatMap_escapeChar m.1.toList
  case once =>
    intro rule _
    rw [hkeys]
    exact List.nodup_iff_count_le_one.1 hnodup rule.key
  case written =>
    intro rule hrule
    refine List.forall_mem_map.2 fun m hm hkey => ?_
    rcases h.exists_rule hm with ⟨rule', hrule', hkey', hwrites⟩
    obtain rfl : rule' = rule :=
      List.inj_on_of_nodup_map hnodup hrule' hrule (hkey'.symm.trans hkey)
    exact hwrites
  case omitted =>
    intro rule hrule hnot
    rw [hkeys] at hnot
    exact absurd (List.mem_map_of_mem hrule) hnot
  case unknown =>
    refine List.forall_mem_map.2 fun m hm hnot => ?_
    rcases h.exists_rule hm with ⟨rule, hrule, hkey, -⟩
    exact absurd (List.mem_map.2 ⟨rule, hrule, hkey.symm⟩) hnot

theorem WritesAll.encodesRecord_printObject (h : WritesAll rules members x)
    (hnodup : (rules.map (·.key)).Nodup) : EncodesRecord rules (printObject members) x := by
  have htexts : (members.map printedMember).map (·.2.text) =
      members.map fun m => printText m.1 ++ ':' :: m.2 := by
    rw [List.map_map]
    exact List.map_congr_left fun m _ => text_printedMember m
  have hsep := separated_printItems ((members.map printedMember).map (·.2.text))
  have hobject := EncodesRecord.object hsep (h.encodesMembers hnodup)
  rw [htexts] at hobject
  exact hobject

end WritesAll
end Json

open Json

/-! ## Declarations -/

theorem encodes_printTexts (texts : List String) :
    EncodesList EncodesText (printTexts texts) texts :=
  encodesList_printArray encodesText_printText texts

theorem MethodDecl.encodes_print (m : MethodDecl) : Encodes m.print m := by
  refine WritesAll.encodesRecord_printObject ?_ (by decide)
  exact .cons ⟨rfl, encodesText_printText m.name⟩ <|
    .cons ⟨rfl, encodesText_printText m.returns⟩ <|
    .cons ⟨rfl, encodes_printTexts m.params⟩ .nil

theorem ClassDecl.encodes_print (c : ClassDecl) : Encodes c.print c := by
  refine WritesAll.encodesRecord_printObject ?_ (by decide)
  refine .cons ⟨rfl, encodesText_printText c.name⟩ <|
    .cons ⟨rfl, encodes_printTexts c.supertypes⟩ <|
    .cons ⟨rfl, ?constructor⟩ <|
    .cons ⟨rfl, encodesList_printArray MethodDecl.encodes_print c.methods⟩ .nil
  case constructor =>
    rcases c with ⟨name, supertypes, _ | params, methods⟩
    · exact rfl
    · exact encodes_printTexts params

namespace HierarchyDecl

/-- A printed hierarchy stands for the hierarchy. -/
theorem encodes_print (d : HierarchyDecl) : Encodes d.print d := by
  refine WritesAll.encodesRecord_printObject ?_ (by decide)
  exact .cons ⟨rfl, encodesList_printArray ClassDecl.encodes_print d.classes⟩ .nil

/-- What is printed is read as the hierarchy that was printed. -/
theorem readDocument_print (d : HierarchyDecl) : readDocument d.print = .ok d := by
  have hread := readDocument_complete .nil d.encodes_print .nil
  rwa [List.nil_append, List.append_nil] at hread

/-- A hierarchy is read back from its document; and whatever a hierarchy was read from, its document
is the same after it was read once more. -/
theorem ofJson_toJson (d : HierarchyDecl) :
    ofJson d.toJson = .ok d ∧
      ∀ document, ofJson document = .ok d → (ofJson d.toJson).map toJson = .ok d.toJson := by
  have hread : ofJson d.toJson = .ok d := by
    rw [ofJson, toJson, String.toList_ofList]
    exact d.readDocument_print
  refine ⟨hread, ?_⟩
  intro document _
  rw [hread]
  rfl

/-- Names that have to be escaped, an empty name, one beyond the basic plane, and the three ways to
declare a constructor. -/
def oddNames : HierarchyDecl where
  classes := [
    { name := "a \"quoted\\name\"\n\x01", declaredConstructor := some [] },
    { name := "", declaredConstructor := some ["\u0000", "Int"] },
    { name := "😀", methods := [{ name := "\t", returns := "\x7f/é" }] }]

theorem ofJson_toJson_oddNames : (∃ document, ofJson document = .ok oddNames) ∧
    (ofJson oddNames.toJson).map toJson = .ok oddNames.toJson := by
  have hread := (ofJson_toJson oddNames).1
  exact ⟨⟨oddNames.toJson, hread⟩, (ofJson_toJson oddNames).2 _ hread⟩

end HierarchyDecl
end Nominal
