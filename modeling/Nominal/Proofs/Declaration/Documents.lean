import Nominal.Declaration.Reading
import Nominal.Proofs.Json.Records

/-!
# The documents of declarations

Which JSON documents stand for which declaration. A hierarchy, a class and a method are records
(`HierarchyDecl.Encodes`, `ClassDecl.Encodes`, `MethodDecl.Encodes`); what has to be written is the
name of a class and of a method, and what a method returns. A document is accepted exactly if it is
such a record between blanks (`HierarchyDecl.ofJson_eq_ok_iff`).
-/

namespace Nominal

open Json

/-! ## Encodings -/

namespace MethodDecl

def nameRule : FieldRule MethodDecl := .required "name" EncodesText (·.name)

def returnsRule : FieldRule MethodDecl := .required "returns" EncodesText (·.returns)

def paramsRule : FieldRule MethodDecl :=
  .optional "params" (EncodesList EncodesText) (·.params) []

/-- How a method is written. -/
def Encodes : Encoding MethodDecl := EncodesRecord [nameRule, returnsRule, paramsRule]

end MethodDecl

namespace ClassDecl

def nameRule : FieldRule ClassDecl := .required "name" EncodesText (·.name)

def supertypesRule : FieldRule ClassDecl :=
  .optional "supertypes" (EncodesList EncodesText) (·.supertypes) []

def constructorRule : FieldRule ClassDecl :=
  .optional "constructor" (EncodesNullable (EncodesList EncodesText)) (·.declaredConstructor) none

def methodsRule : FieldRule ClassDecl :=
  .optional "methods" (EncodesList MethodDecl.Encodes) (·.methods) []

/-- How a class is written. -/
def Encodes : Encoding ClassDecl :=
  EncodesRecord [nameRule, supertypesRule, constructorRule, methodsRule]

end ClassDecl

namespace HierarchyDecl

def classesRule : FieldRule HierarchyDecl :=
  .optional "classes" (EncodesList ClassDecl.Encodes) (·.classes) []

/-- How a hierarchy is written. -/
def Encodes : Encoding HierarchyDecl := EncodesRecord [classesRule]

end HierarchyDecl

/-! ## Formats -/

namespace MethodDecl

/-- The places of the fields in the draft of a method. -/
def slots : List (Slot Draft MethodDecl) := [
  { toFieldRule := nameRule
    reader := Reader.text
    recognizes := Reader.text_recognizes
    get := (·.name)
    set := fun d name => { d with name := some name }
    get_set := fun _ _ => rfl },
  { toFieldRule := returnsRule
    reader := Reader.text
    recognizes := Reader.text_recognizes
    get := (·.returns)
    set := fun d returns => { d with returns := some returns }
    get_set := fun _ _ => rfl },
  { toFieldRule := paramsRule
    reader := Reader.text.list
    recognizes := Reader.text_recognizes.list
    get := (·.params)
    set := fun d params => { d with params := some params }
    get_set := fun _ _ => rfl }]

theorem Draft.finish_eq_ok_iff (d : Draft) (m : MethodDecl) :
    d.finish = .ok m ↔ ∀ slot ∈ slots, slot.Finished d m := by
  rcases d with ⟨_ | name, _ | returns, params⟩ <;> rcases m with ⟨name', returns', params'⟩ <;>
    cases params <;> simp [finish, slots, Slot.Finished, nameRule, returnsRule, paramsRule,
      FieldRule.required, FieldRule.optional]

theorem format_implements : format.Implements slots where
  fields_eq := rfl
  nodup := by decide
  get_blank := by
    simp only [slots, List.forall_mem_cons]
    exact ⟨rfl, rfl, rfl, List.forall_mem_nil _⟩
  get_set_of_ne := by
    intro slot hslot other hother hne d a
    simp only [slots, List.mem_cons, List.not_mem_nil, or_false] at hslot hother
    rcases hslot with rfl | rfl | rfl <;> rcases hother with rfl | rfl | rfl <;>
      first | rfl | exact absurd rfl hne
  finish_eq_ok_iff := Draft.finish_eq_ok_iff

theorem reader_recognizes : format.reader.Recognizes Encodes := format_implements.recognizes

end MethodDecl

namespace ClassDecl

/-- The parameters of a constructor do not begin like `null`. -/
theorem constructor_recognizes :
    Reader.text.list.nullable.Recognizes (EncodesNullable (EncodesList EncodesText)) := by
  refine Reader.text_recognizes.list.nullable ?_
  rintro _ params ⟨elements, s, -, -, rfl⟩
  simp

/-- The places of the fields in the draft of a class. -/
def slots : List (Slot Draft ClassDecl) := [
  { toFieldRule := nameRule
    reader := Reader.text
    recognizes := Reader.text_recognizes
    get := (·.name)
    set := fun d name => { d with name := some name }
    get_set := fun _ _ => rfl },
  { toFieldRule := supertypesRule
    reader := Reader.text.list
    recognizes := Reader.text_recognizes.list
    get := (·.supertypes)
    set := fun d supertypes => { d with supertypes := some supertypes }
    get_set := fun _ _ => rfl },
  { toFieldRule := constructorRule
    reader := Reader.text.list.nullable
    recognizes := constructor_recognizes
    get := (·.declaredConstructor)
    set := fun d params => { d with declaredConstructor := some params }
    get_set := fun _ _ => rfl },
  { toFieldRule := methodsRule
    reader := MethodDecl.format.reader.list
    recognizes := MethodDecl.reader_recognizes.list
    get := (·.methods)
    set := fun d methods => { d with methods := some methods }
    get_set := fun _ _ => rfl }]

theorem Draft.finish_eq_ok_iff (d : Draft) (c : ClassDecl) :
    d.finish = .ok c ↔ ∀ slot ∈ slots, slot.Finished d c := by
  rcases d with ⟨_ | name, _ | supertypes, _ | params, _ | methods⟩ <;>
    rcases c with ⟨name', supertypes', params', methods'⟩ <;>
    simp [finish, slots, Slot.Finished, nameRule, supertypesRule, constructorRule, methodsRule,
      FieldRule.required, FieldRule.optional]

theorem format_implements : format.Implements slots where
  fields_eq := rfl
  nodup := by decide
  get_blank := by
    simp only [slots, List.forall_mem_cons]
    exact ⟨rfl, rfl, rfl, rfl, List.forall_mem_nil _⟩
  get_set_of_ne := by
    intro slot hslot other hother hne d a
    simp only [slots, List.mem_cons, List.not_mem_nil, or_false] at hslot hother
    rcases hslot with rfl | rfl | rfl | rfl <;> rcases hother with rfl | rfl | rfl | rfl <;>
      first | rfl | exact absurd rfl hne
  finish_eq_ok_iff := Draft.finish_eq_ok_iff

theorem reader_recognizes : format.reader.Recognizes Encodes := format_implements.recognizes

end ClassDecl

namespace HierarchyDecl

/-- The place of the classes in the draft of a hierarchy. -/
def slots : List (Slot Draft HierarchyDecl) := [
  { toFieldRule := classesRule
    reader := ClassDecl.format.reader.list
    recognizes := ClassDecl.reader_recognizes.list
    get := (·.classes)
    set := fun d classes => { d with classes := some classes }
    get_set := fun _ _ => rfl }]

theorem Draft.finish_eq_ok_iff (d : Draft) (h : HierarchyDecl) :
    d.finish = .ok h ↔ ∀ slot ∈ slots, slot.Finished d h := by
  rcases d with ⟨_ | classes⟩ <;> rcases h with ⟨classes'⟩ <;>
    simp [finish, slots, Slot.Finished, classesRule, FieldRule.optional]

theorem format_implements : format.Implements slots where
  fields_eq := rfl
  nodup := by decide
  get_blank := by
    simp only [slots, List.forall_mem_cons]
    exact ⟨rfl, List.forall_mem_nil _⟩
  get_set_of_ne := by
    intro slot hslot other hother hne d a
    rw [List.mem_singleton.1 hslot, List.mem_singleton.1 hother] at hne
    exact absurd rfl hne
  finish_eq_ok_iff := Draft.finish_eq_ok_iff

theorem reader_recognizes : format.reader.Recognizes Encodes := format_implements.recognizes

/-! ## Documents -/

/-- A document that is read is a hierarchy between blanks. -/
theorem readDocument_sound {s : List Char} {d : HierarchyDecl} (h : readDocument s = .ok d) :
    ∃ before v after, Blanks before ∧ Encodes v d ∧ Blanks after ∧ s = before ++ v ++ after := by
  unfold readDocument at h
  split at h
  · cases h
  · rename_i d' after hread
    split at h
    · rename_i hskip
      cases h
      rcases reader_recognizes.sound hread with ⟨before, v, hbefore, hv, hs⟩
      exact ⟨before, v, after, hbefore, hv, skipBlanks_eq_nil_iff.1 hskip, hs⟩
    · cases h

/-- A hierarchy between blanks is read. -/
theorem readDocument_complete {before v after : List Char} {d : HierarchyDecl}
    (hbefore : Blanks before) (hv : Encodes v d) (hafter : Blanks after) :
    readDocument (before ++ v ++ after) = .ok d := by
  have hread := reader_recognizes.complete hbefore hv (.of_blanks hafter)
  simp only [readDocument, hread, skipBlanks_eq_nil_iff.2 hafter, if_true]

/-- Exactly the documents that encode a declaration are read as that declaration. -/
theorem ofJson_eq_ok_iff {document : String} {d : HierarchyDecl} :
    ofJson document = .ok d ↔ ∃ before v after, Blanks before ∧ Encodes v d ∧ Blanks after ∧
      document.toList = before ++ v ++ after := by
  constructor
  · exact readDocument_sound
  · rintro ⟨before, v, after, hbefore, hv, hafter, hdocument⟩
    rw [ofJson, hdocument]
    exact readDocument_complete hbefore hv hafter

example : (ofJson " [[[\"\\u0041\", [\"B\"], null]]]\n").toOption =
    some { classes := [{ name := "A", supertypes := ["B"] }] } := by decide +kernel

end HierarchyDecl
end Nominal
