import Mathlib.Control.Monad.Basic
import Nominal.Declaration.Reading
import Nominal.Proofs.Json.ContinuedReaders

/-!
# The first problem in a document

A document that is refused is refused for the same reason however it goes on, unless it was cut off
or ends where a numeral may be open (`HierarchyDecl.ofJson_append_of_eq_error`). The values of all
fields last, so the records do, from methods to hierarchies. At the end of a document nothing but
blanks may stand, and what does stand there has a first character, too.
-/

namespace Nominal

open Json

/-! ## Declarations -/

theorem MethodDecl.reader_continues : format.reader.Continues format.reader := by
  refine Format.reader_continues ?_
  simp only [format, List.forall_mem_cons]
  refine ⟨fun d => ?name, fun d => ?returns, fun d => ?params, List.forall_mem_nil _⟩
  case name => exact Reader.text_continues.map _
  case returns => exact Reader.text_continues.map _
  case params => exact Reader.text_continues.list.map _

theorem ClassDecl.reader_continues : format.reader.Continues format.reader := by
  refine Format.reader_continues ?_
  simp only [format, List.forall_mem_cons]
  refine ⟨fun d => ?name, fun d => ?supertypes, fun d => ?constructor, fun d => ?methods,
    List.forall_mem_nil _⟩
  case name => exact Reader.text_continues.map _
  case supertypes => exact Reader.text_continues.list.map _
  case constructor => exact Reader.text_continues.list.nullable.map _
  case methods => exact MethodDecl.reader_continues.list.map _

namespace HierarchyDecl

theorem reader_continues : format.reader.Continues format.reader := by
  refine Format.reader_continues ?_
  simp only [format, List.forall_mem_cons]
  refine ⟨fun d => ?classes, List.forall_mem_nil _⟩
  case classes => exact ClassDecl.reader_continues.list.map _

/-! ## Documents -/

theorem readDocument_append_of_eq_error {t s : List Char} {fault : Fault}
    (hread : readDocument s = .error fault) (hfault : fault ≠ .truncated)
    (hlast : ∀ c ∈ s.getLast?, leavesOpen c = false) :
    readDocument (s ++ t) = .error fault := by
  have hs : Continued t s (s ++ t) := ⟨hlast, rfl⟩
  unfold readDocument at hread ⊢
  cases hrecord : format.reader.read s with
  | error fault' =>
      rw [hrecord] at hread
      cases hread
      rcases reader_continues.eq_error hs hrecord with rfl | hrecord'
      · exact absurd rfl hfault
      · rw [hrecord']
  | ok p =>
      -- A hierarchy was read; the fault is that something else than blanks stands behind it.
      obtain ⟨d, rest⟩ := p
      obtain ⟨rest', hrecord', hrest⟩ := reader_continues.exists_rest hs hrecord
      rw [hrecord] at hread
      rw [hrecord']
      dsimp only at hread ⊢
      cases hskip : Json.skipBlanks rest with
      | nil =>
          rw [hskip, if_pos rfl] at hread
          cases hread
      | cons c r =>
          rw [hskip, if_neg (List.cons_ne_nil c r)] at hread
          rw [(hrest.skipBlanks hskip).1, if_neg (List.cons_ne_nil c _)]
          exact hread

/-- The first problem in a document wins: if a document is refused, but not for being cut off, and
no numeral is open at its end, then it is refused for the same reason whatever it goes on with. -/
theorem ofJson_append_of_eq_error {document : String} {fault : Fault}
    (hread : ofJson document = .error fault) (hfault : fault ≠ .truncated)
    (hlast : ∀ c ∈ document.toList.getLast?, leavesOpen c = false) (continuation : String) :
    ofJson (document ++ continuation) = .error fault := by
  rw [ofJson, String.toList_append]
  exact readDocument_append_of_eq_error hread hfault hlast

/-- A key is given twice, once in escaped form, and the document ends right behind it. -/
theorem ofJson_append_of_duplicate :
    ofJson "\x7b\"classes\":[\x7b\"x\":1e5,\"na\\u006de\":\"A\",\"name\"" =
      .error (.mismatch "duplicate field `name`") ∧
    ofJson ("\x7b\"classes\":[\x7b\"x\":1e5,\"na\\u006de\":\"A\",\"name\"" ++ ":3.\x7d]") =
      .error (.mismatch "duplicate field `name`") := by
  have hread : ofJson "\x7b\"classes\":[\x7b\"x\":1e5,\"na\\u006de\":\"A\",\"name\"" =
      .error (.mismatch "duplicate field `name`") := by decide +kernel
  have hend : "\x7b\"classes\":[\x7b\"x\":1e5,\"na\\u006de\":\"A\",\"name\"".toList.getLast? =
      some '"' := by decide +kernel
  refine ⟨hread, ofJson_append_of_eq_error hread (by decide) ?_ ":3.\x7d]"⟩
  rw [hend]
  rintro _ ⟨⟩
  decide

/-- More digits change a numeral, and so the message that it is none of the classes. -/
example : ofJson "\x7b\"classes\":1" ≠ ofJson ("\x7b\"classes\":1" ++ "2") := by decide +kernel

end HierarchyDecl
end Nominal
