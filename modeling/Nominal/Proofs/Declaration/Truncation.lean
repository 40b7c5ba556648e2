import Nominal.Proofs.Declaration.RoundTrip
import Nominal.Proofs.Json.Truncation

/-!
# Printed declarations that are cut off

A printed declaration that is cut off before its end is found to be cut off
(`HierarchyDecl.ofJson_of_toJson_eq_append`): no field is missed before the closing bracket, and no
part of a printed value is taken for another value. This is shown from the values of the fields
outwards, a record being awaited if the values of its members are
(`Format.Implements.awaits_printObject`).
-/

namespace Nominal

namespace Json

open Reader

variable {σ α : Type}

/-- `PrintsAll slots members x`: the members are the fields of the record `x`, in their order, and
their values are awaited. -/
abbrev PrintsAll (slots : List (Slot σ α)) (members : List (String × List Char)) (x : α) : Prop :=
  List.Forall₂ (fun slot m => m.1 = slot.key ∧ slot.Writes m.2 x ∧ slot.reader.Awaits m.2) slots
    members

variable {f : Format σ α} {slots : List (Slot σ α)} {members : List (String × List Char)} {x : α}

theorem PrintsAll.writesAll (h : PrintsAll slots members x) :
    WritesAll (slots.map (·.toFieldRule)) members x :=
  List.forall₂_map_left_iff.2 (h.imp fun _ _ hm => ⟨hm.1, hm.2.1⟩)

namespace Format.Implements

/-- A member is awaited if its value is. -/
theorem member_awaits (h : f.Implements slots) {slot : Slot σ α} (hslot : slot ∈ slots) {d : σ}
    (hget : slot.get d = none) {v : List Char} (hawaits : slot.reader.Awaits v) :
    (f.member d).Awaits (printText slot.key ++ ':' :: v) := by
  have hspells := spells_flatMap_escapeChar slot.key.toList
  have hsplit : printText slot.key ++ ':' :: v =
      '"' :: (slot.key.toList.flatMap escapeChar ++ ['"'] ++ ':' :: v) := rfl
  intro s hs
  rw [hsplit] at hs
  rcases cutOff_cons_iff.1 hs with rfl | ⟨r, rfl, hr⟩
  · rfl
  have hskip : skipBlanks ('"' :: r) = '"' :: r := skipBlanks_cons (by decide)
  rcases cutOff_append_iff.1 hr with hr | ⟨q, rfl, hq⟩
  · simp only [Format.member, hskip, if_true, readCharacters_of_cutOff hspells hr]
  -- The key is read; the cut is in front of the colon, or in the value.
  · have hkey : readCharacters (slot.key.toList.flatMap escapeChar ++ ['"'] ++ q) =
        .ok (slot.key.toList, q) :=
      readCharacters_eq_ok_iff.2 ⟨_, hspells, List.append_assoc _ _ _⟩
    have hfree : slot.field.isSet d = false := Option.isSome_eq_false_iff.2 (hget ▸ rfl)
    simp only [Format.member, hskip, if_true, hkey, readMemberValue, h.find?_fields hslot, hfree]
    rcases cutOff_cons_iff.1 hq with rfl | ⟨w, rfl, hw⟩
    · rfl
    · have hcolon : readColon (':' :: w) = .ok w := readColon_eq_ok_iff.2 ⟨[], .nil, rfl⟩
      simp only [hcolon]
      exact hawaits.map (slot.set d) w hw

/-- Members that are stored one after the other are taken one after the other. -/
theorem run_takes (h : f.Implements slots) {d d' : σ}
    (hawaits : ∀ m ∈ members, ∃ slot ∈ slots, slot.key = m.1 ∧ slot.reader.Awaits m.2)
    (hrun : Run (fun d m d' => Spells m.2.key m.1.toList ∧ Stores slots d m.1 m.2.value d') d
      (members.map printedMember) d') :
    Run (fun d v d' => (f.member d).Takes v d') d
      (members.map fun (key, value) => printText key ++ ':' :: value) d' := by
  induction members generalizing d with
  | nil =>
      obtain rfl := run_nil_iff.1 hrun
      exact .nil _
  | cons m members ih =>
      obtain ⟨next, ⟨hspells, hstores⟩, hrun⟩ := run_cons_iff.1 hrun
      obtain ⟨⟨slot, hslot, hkey, hvalue⟩, hawaits⟩ := List.forall_mem_cons.1 hawaits
      have hmember : (f.member d).Awaits (printText m.1 ++ ':' :: m.2) := by
        cases hstores with
        | known hslot' hkey' hget _ =>
            obtain rfl := h.eq_of_key_eq hslot' hslot (hkey'.trans hkey.symm)
            exact hkey ▸ h.member_awaits hslot hget hvalue
        -- No member is skipped: each of the keys is that of a slot.
        | unknown hunknown _ =>
            exact absurd (hkey ▸ List.mem_map_of_mem hslot) hunknown
      have htakes := (h.member_recognizes d).takes
        ⟨printedMember m, (text_printedMember m).symm, hspells, hstores⟩ hmember
      exact .cons htakes (ih hawaits hrun)

/-- A printed record is awaited if the values of its fields are. -/
theorem awaits_printObject (h : f.Implements slots) (hprints : PrintsAll slots members x) :
    f.reader.Awaits (printObject members) := by
  have hnodup : ((slots.map (·.toFieldRule)).map (·.key)).Nodup := by
    rw [List.map_map]
    exact h.nodup
  have hfills := h.fills_blank_iff.2 (hprints.writesAll.encodesMembers hnodup)
  obtain ⟨d, hstored, -⟩ := h.exists_run_members_iff.2 hfills
  have hawaits : ∀ m ∈ members, ∃ slot ∈ slots, slot.key = m.1 ∧ slot.reader.Awaits m.2 := by
    intro m hm
    obtain ⟨slot, hslot, hkey, -, hvalue⟩ := exists_of_forall₂ hprints hm
    exact ⟨slot, hslot, hkey.symm, hvalue⟩
  intro s hs
  rcases cutOff_cons_iff.1 hs with rfl | ⟨r, rfl, hr⟩
  · rfl
  · have henclosed := enclosed_awaits (by simp) (h.run_takes hawaits hstored) hr
    have hskip : skipBlanks ('\x7b' :: r) = '\x7b' :: r := skipBlanks_cons (by decide)
    simp only [Format.reader, hskip, if_true, Format.readObject, henclosed]

end Format.Implements

/-! ## Values of fields -/

theorem text_awaits_printText (text : String) : Reader.text.Awaits (printText text) :=
  text_awaits (encodesText_printText text)

theorem list_awaits_printTexts (texts : List String) :
    Reader.text.list.Awaits (printTexts texts) :=
  text_recognizes.list_awaits encodesText_printText text_awaits_printText texts

end Json

open Json

/-! ## Declarations -/

theorem MethodDecl.awaits_print (m : MethodDecl) : format.reader.Awaits m.print := by
  refine format_implements.awaits_printObject (x := m) ?_
  exact .cons ⟨rfl, encodesText_printText m.name, text_awaits_printText m.name⟩ <|
    .cons ⟨rfl, encodesText_printText m.returns, text_awaits_printText m.returns⟩ <|
    .cons ⟨rfl, encodes_printTexts m.params, list_awaits_printTexts m.params⟩ .nil

theorem ClassDecl.awaits_print (c : ClassDecl) : format.reader.Awaits c.print := by
  have hmethods := MethodDecl.reader_recognizes.list_awaits MethodDecl.encodes_print
    MethodDecl.awaits_print c.methods
  refine format_implements.awaits_printObject (x := c) ?_
  refine .cons ⟨rfl, encodesText_printText c.name, text_awaits_printText c.name⟩ <|
    .cons ⟨rfl, encodes_printTexts c.supertypes, list_awaits_printTexts c.supertypes⟩ <|
    .cons ⟨rfl, ?constructor⟩ <|
    .cons ⟨rfl, encodesList_printArray MethodDecl.encodes_print c.methods, hmethods⟩ .nil
  case constructor =>
    rcases c with ⟨name, supertypes, _ | params, methods⟩
    · exact ⟨rfl, Reader.nullable_awaits_null⟩
    · have hopens := Reader.text_recognizes.list.opens (encodes_printTexts params)
      refine ⟨encodes_printTexts params, (list_awaits_printTexts params).nullable hopens ?_⟩
      simp [printTexts, printArray]

namespace HierarchyDecl

theorem awaits_print (d : HierarchyDecl) : format.reader.Awaits d.print := by
  have hclasses := ClassDecl.reader_recognizes.list_awaits ClassDecl.encodes_print
    ClassDecl.awaits_print d.classes
  refine format_implements.awaits_printObject (x := d) ?_
  exact .cons ⟨rfl, encodesList_printArray ClassDecl.encodes_print d.classes, hclasses⟩ .nil

/-- Every printed hierarchy that is cut off before its end is refused for being cut off. -/
theorem ofJson_of_toJson_eq_append {d : HierarchyDecl} {document continuation : String}
    (hdocument : d.toJson = document ++ continuation) (hcut : continuation ≠ "") :
    ofJson document = .error .truncated := by
  have hcutOff : CutOff document.toList d.print := by
    refine ⟨continuation.toList, ?_, ?_⟩
    · exact fun hnil => hcut (String.toList_inj.1 hnil)
    · rw [← String.toList_append, ← hdocument, toJson, String.toList_ofList]
  have hread := d.awaits_print document.toList hcutOff
  rw [ofJson, readDocument, hread]

/-- A name cut off inside of an escape. -/
theorem ofJson_of_toJson_eq_append_escape :
    toJson { classes := [{ name := "\x01" }] } = "\x7b\"classes\":[\x7b\"name\":\"\\u0" ++
      "001\",\"supertypes\":[],\"constructor\":null,\"methods\":[]\x7d]\x7d" ∧
    ofJson "\x7b\"classes\":[\x7b\"name\":\"\\u0" = .error .truncated := by
  have hdocument : toJson { classes := [{ name := "\x01" }] } =
      "\x7b\"classes\":[\x7b\"name\":\"\\u0" ++
        "001\",\"supertypes\":[],\"constructor\":null,\"methods\":[]\x7d]\x7d" := by
    decide +kernel
  exact ⟨hdocument, ofJson_of_toJson_eq_append hdocument (by decide +kernel)⟩

end HierarchyDecl
end Nominal
