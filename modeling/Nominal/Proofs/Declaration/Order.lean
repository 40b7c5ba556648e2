import Mathlib.Data.List.Perm.Basic
import Nominal.Proofs.Typing.Agreement
import Nominal.Proofs.Typing.Closed

/-!
# The order of a declaration

Building goes through a declaration in its order and stops at the first problem, so which problem is
reported depends on the order. Whether there is one does not, and neither does what is built:
classes and methods may be declared in any order, and supertypes listed in any order and any number
of times (`HierarchyDecl.Reorders`).

The rules of `HierarchyDecl.Valid` do not mention the order, and the type system of a declaration
has its classes as they are declared, so both carry over (`Reorders.valid`,
`Reorders.matches_typeSystem`). Expressions are then checked alike (`check_of_agrees`).

Main statement: `build_of_reorders`.
-/

namespace Nominal

/-! ## Reordered declarations -/

/-- `c.Reorders c'`: the class `c'` is declared as `c` is, with its methods in any order and its
supertypes listed in any order and any number of times. -/
structure ClassDecl.Reorders (c c' : ClassDecl) : Prop where
  name : c'.name = c.name
  supertypes : ∀ name, name ∈ c'.supertypes ↔ name ∈ c.supertypes
  declaredConstructor : c'.declaredConstructor = c.declaredConstructor
  methods : c.methods.Perm c'.methods

/-- `d.Reorders d'`: the declaration `d'` has the classes of `d` in any order, each of them
reordered. -/
def HierarchyDecl.Reorders (d d' : HierarchyDecl) : Prop :=
  ∃ classes, d.classes.Perm classes ∧ List.Forall₂ ClassDecl.Reorders classes d'.classes

namespace ClassDecl.Reorders

theorem refl (c : ClassDecl) : c.Reorders c :=
  ⟨rfl, fun _ => Iff.rfl, rfl, .refl _⟩

variable {c c' : ClassDecl} (h : c.Reorders c')
include h

theorem symm : c'.Reorders c :=
  ⟨h.name.symm, fun name => (h.supertypes name).symm, h.declaredConstructor.symm, h.methods.symm⟩

theorem perm_methodNames : c.methodNames.Perm c'.methodNames :=
  h.methods.map _

theorem mem_signatureNames_iff (name : String) :
    name ∈ c'.signatureNames ↔ name ∈ c.signatureNames := by
  have hmethods := h.methods.symm.flatMap_right fun m => m.params ++ [m.returns]
  rw [ClassDecl.signatureNames, ClassDecl.signatureNames, h.declaredConstructor]
  exact (hmethods.append_left _).mem_iff

/-- The definition of a class is reordered as its declaration is. -/
theorem definition (table : Nat) (hnodup : c.methodNames.Nodup) :
    (c.definition table).Reorders (c'.definition table) := by
  refine ⟨?name, ?supertypes, ?declaredConstructor, h.methods.map _,
    c.nodup_methodNames_definition table hnodup⟩
  case name => rw [ClassDecl.definition, ClassDecl.definition, h.name]
  case supertypes =>
    intro id
    simp only [ClassDecl.definition, List.mem_eraseDups, List.mem_map, h.supertypes]
  case declaredConstructor =>
    rw [ClassDecl.definition, ClassDecl.definition, h.declaredConstructor]

end ClassDecl.Reorders

namespace HierarchyDecl.Reorders

variable {d d' : HierarchyDecl}

/-- Classes that are permuted and then reordered one by one may as well be permuted last. -/
theorem symm (h : d.Reorders d') : d'.Reorders d := by
  obtain ⟨classes, hperm, hclasses⟩ := h
  obtain ⟨classes', hclasses', hperm'⟩ := List.perm_comp_forall₂ hperm hclasses
  exact ⟨classes', hperm'.symm, (hclasses'.imp fun _ _ hc => hc.symm).flip⟩

theorem exists_class (h : d.Reorders d') {c : ClassDecl} (hc : c ∈ d.classes) :
    ∃ c' ∈ d'.classes, c.Reorders c' := by
  obtain ⟨classes, hperm, hclasses⟩ := h
  obtain ⟨i, hi, rfl⟩ := List.mem_iff_getElem.1 (hperm.mem_iff.1 hc)
  have hi' : i < d'.classes.length := hclasses.length_eq ▸ hi
  exact ⟨d'.classes[i], List.getElem_mem hi', hclasses.get hi hi'⟩

theorem perm_classNames (h : d.Reorders d') : d.classNames.Perm d'.classNames := by
  obtain ⟨classes, hperm, hclasses⟩ := h
  have hnames : classes.map (·.name) = d'.classNames := by
    rw [HierarchyDecl.classNames, ← List.forall₂_eq_eq_eq, List.forall₂_map_left_iff,
      List.forall₂_map_right_iff]
    exact hclasses.imp fun _ _ hc => hc.name.symm
  exact hnames ▸ hperm.map _

/-! ## What is built -/

/-- Every rule speaks of single classes and of the names that are declared, in no order. -/
theorem valid (h : d.Reorders d') (hvalid : d.Valid) : d'.Valid := by
  have hnames : ∀ name, name ∈ d'.classNames ↔ name ∈ d.classNames :=
    fun _ => h.perm_classNames.symm.mem_iff
  refine ⟨?unreserved, h.perm_classNames.nodup_iff.1 hvalid.classNames_nodup, ?supertypes,
    ?signatures, ?methodNames⟩
  case unreserved =>
    intro name hname
    exact hvalid.unreserved name ((hnames name).1 hname)
  case supertypes =>
    intro c' hc' name hname
    obtain ⟨c, hc, hreorders⟩ := h.symm.exists_class hc'
    have hlisted : name ∈ c.supertypes := (hreorders.supertypes name).2 hname
    exact (hnames name).2 (hvalid.supertypes c hc name hlisted)
  case signatures =>
    intro c' hc' name hname
    obtain ⟨c, hc, hreorders⟩ := h.symm.exists_class hc'
    have hreferred : name ∈ c.signatureNames := (hreorders.mem_signatureNames_iff name).2 hname
    rw [hnames]
    exact hvalid.signatures c hc name hreferred
  case methodNames =>
    intro c' hc'
    obtain ⟨c, hc, hreorders⟩ := h.symm.exists_class hc'
    exact hreorders.perm_methodNames.nodup_iff.2 (hvalid.methodNames_nodup c hc)

theorem exists_class?_typeSystem (h : d.Reorders d') (hvalid : d.Valid) {table : Nat} {id : ClassId}
    {definition : ClassDef} (hid : (d.typeSystem table).class? id = some definition) :
    ∃ definition', (d'.typeSystem table).class? id = some definition' ∧
      definition.Reorders definition' := by
  obtain ⟨c, hc, rfl, rfl⟩ := exists_definition_of_class? table hid
  obtain ⟨c', hc', hreorders⟩ := h.exists_class hc
  refine ⟨c'.definition table, ?_, hreorders.definition table (hvalid.methodNames_nodup c hc)⟩
  rw [← hreorders.name]
  exact (h.valid hvalid).class?_typeSystem table hc'

theorem matches_typeSystem (h : d.Reorders d') (hvalid : d.Valid) (table : Nat) :
    (d.typeSystem table).Matches ClassDef.Reorders (d'.typeSystem table) := by
  intro id
  cases hid : (d.typeSystem table).class? id with
  | some definition =>
      obtain ⟨definition', hid', hreorders⟩ := h.exists_class?_typeSystem hvalid hid
      rw [hid']
      exact .some hreorders
  | none =>
      cases hid' : (d'.typeSystem table).class? id with
      | none => exact .none
      | some definition' =>
          -- The class would be found in the first type system, too.
          obtain ⟨definition, hsome, -⟩ :=
            h.symm.exists_class?_typeSystem (h.valid hvalid) hid'
          rw [hid] at hsome
          cases hsome

/-- A name means a builtin type or a declared class, and both declare the same names. -/
theorem typeNamed?_typeSystem (h : d.Reorders d') (table : Nat) (name : String) :
    (d'.typeSystem table).typeNamed? name = (d.typeSystem table).typeNamed? name := by
  apply Option.ext
  intro t
  rw [typeNamed?_typeSystem_eq_some_iff, typeNamed?_typeSystem_eq_some_iff, means_iff, means_iff,
    h.perm_classNames.symm.mem_iff]

theorem perm_ids_typeSystem (h : d.Reorders d') (table : Nat) :
    (d.typeSystem table).ids.Perm (d'.typeSystem table).ids := by
  rw [ids_typeSystem, ids_typeSystem]
  exact h.perm_classNames.map _

end HierarchyDecl.Reorders

/-- A reordered declaration is accepted exactly if the declaration is, whatever was interned before.
If both are built in one table, then the type systems have the same classes, and each class has in
both the same name, constructor, methods and supertypes. So names stand for the same types, the same
arguments fit the same parameters, and every expression has the same static type and is checked with
the same outcome. -/
theorem build_of_reorders (d d' : HierarchyDecl) (h : d.Reorders d') (table table' : StringTable) :
    ((∃ ts, (d.build table).1 = .ok ts) ↔ ∃ ts', (d'.build table').1 = .ok ts') ∧
      ∀ ts ts', table'.id = table.id → (d.build table).1 = .ok ts → (d'.build table').1 = .ok ts' →
        ts.ids.Perm ts'.ids ∧ ts.Matches ClassDef.Reorders ts' ∧
        (∀ name, ts'.typeNamed? name = ts.typeNamed? name) ∧
        (∀ rule param arg, ts'.isAssignable rule param arg = ts.isAssignable rule param arg) ∧
        ∀ e : Expr, e.staticType ts' = e.staticType ts ∧ e.check ts' = e.check ts := by
  constructor
  · simp only [HierarchyDecl.build_eq_ok_iff, exists_and_left, exists_eq, and_true]
    exact ⟨h.valid, h.symm.valid⟩
  · intro ts ts' hid hbuild hbuild'
    obtain ⟨hvalid, rfl⟩ := HierarchyDecl.build_eq_ok_iff.1 hbuild
    obtain ⟨-, rfl⟩ := HierarchyDecl.build_eq_ok_iff.1 hbuild'
    rw [hid]
    have hmatches := h.matches_typeSystem hvalid table.id
    have hagrees := hmatches.imp fun _ _ hc => hc.agrees
    refine ⟨h.perm_ids_typeSystem table.id, hmatches, h.typeNamed?_typeSystem table.id,
      TypeSystem.isAssignable_of_agrees hagrees, ?_⟩
    intro e
    exact ⟨staticType_of_agrees hagrees e, check_of_agrees hagrees e⟩

/-- The classes of `shapes` from the last to the first, with the methods of `Square` in the other
order and its supertypes listed once. -/
def shapesReordered : HierarchyDecl where
  classes := [
    { name := "Shape", methods := [{ name := "square", returns := "Square" }] },
    { name := "Object" },
    { name := "Square", supertypes := ["Object", "Shape"],
      declaredConstructor := some ["double", "Shape"],
      methods := [{ name := "merge", returns := "Square", params := ["Square", "int"] },
        { name := "Shape", returns := "void" }] }]

theorem build_shapesReordered :
    shapes.Reorders shapesReordered ∧ ∃ ts ts', (shapes.build (.empty 0)).1 = .ok ts ∧
      (shapesReordered.build (shapes.build (.empty 0)).2).1 = .ok ts' ∧ ts ≠ ts' ∧
      ts.Matches ClassDef.Reorders ts' ∧ ∀ e : Expr, e.check ts' = e.check ts := by
  have hreorders : shapes.Reorders shapesReordered := by
    refine ⟨shapes.classes.reverse, (List.reverse_perm _).symm, ?_⟩
    refine .cons (.refl _) (.cons (.refl _) (.cons ⟨rfl, ?supertypes, rfl, .swap ..⟩ .nil))
    intro name
    simp only [List.mem_cons, List.not_mem_nil, or_false]
    tauto
  have hbuild : (shapes.build (.empty 0)).1 = .ok (shapes.typeSystem 0) := rfl
  have hbuild' : (shapesReordered.build (shapes.build (.empty 0)).2).1 =
      .ok (shapesReordered.typeSystem 0) := rfl
  obtain ⟨-, hsame⟩ :=
    build_of_reorders shapes shapesReordered hreorders (.empty 0) (shapes.build (.empty 0)).2
  obtain ⟨-, hmatches, -, -, hexpr⟩ := hsame _ _ rfl hbuild hbuild'
  exact ⟨hreorders, _, _, hbuild, hbuild', by decide, hmatches, fun e => (hexpr e).2⟩

end Nominal
