import Nominal.Proofs.Declaration.Description
import Nominal.Proofs.Typing.Rules

/-!
# Widening

A class fits itself and the classes that it lists as its supertypes, and what those list does not
count. In a type system that is built from a declaration the ids that a class lists are the names
that its own declaration lists (`mem_supertypes_definition_iff`), so widening can be read off two
declarations (`Valid.isAssignable_classIdOf_iff`), whatever the others are. The other types are not
related to classes at all, apart from the type of `null`.

Main statement: `isAssignable_iff_eq_or_mem_supertypes`.
-/

namespace Nominal

/-! ## Classes and other types -/

section Fits

variable {ts : TypeSystem} {rule : NullRule} {id supertype : ClassId} {c : ClassDef}

/-- A class fits another one along an edge of its own. -/
theorem fits_cls_iff (hc : ts.class? id = some c) :
    Fits ts rule (.cls id) (.cls supertype) ↔ id = supertype ∨ supertype ∈ c.supertypes := by
  constructor
  · intro h
    cases h with
    | same => exact .inl rfl
    | widened _ hc' hmem =>
        rcases Option.some.inj (hc.symm.trans hc') with rfl
        exact .inr hmem
  · rintro (rfl | hmem)
    · exact .same rule _
    · exact .widened rule hc hmem

/-- A parameter of a class type takes `null` by either rule. -/
theorem fits_null_cls (rule : NullRule) (id : ClassId) : Fits ts rule .null (.cls id) := by
  cases rule with
  | anyParameter => exact .anyNull _
  | referenceParameters => exact .referenceNull nofun nofun nofun

variable {t : Ty} (ht : ∀ id, t ≠ .cls id)
include ht

theorem fits_cls_iff_eq_null : Fits ts rule t (.cls id) ↔ t = .null := by
  constructor
  · intro h
    cases h with
    | same => exact absurd rfl (ht id)
    | @widened _ other => exact absurd rfl (ht other)
    | anyNull => rfl
    | referenceNull => rfl
  · rintro rfl
    exact fits_null_cls rule id

theorem not_cls_fits : ¬ Fits ts rule (.cls id) t := by
  intro h
  cases h with
  | same => exact ht id rfl
  | @widened _ _ supertype => exact ht supertype rfl

end Fits

/-! ## Declared classes -/

/-- A class lists the ids of the names that its declaration lists. Removing repetitions loses none
of them, and different names have different ids. -/
theorem mem_supertypes_definition_iff (table : Nat) (c : ClassDecl) (name : String) :
    classIdOf table name ∈ (c.definition table).supertypes ↔ name ∈ c.supertypes := by
  simp only [ClassDecl.definition, List.mem_eraseDups, List.mem_map, classIdOf_inj, exists_eq_right]

namespace HierarchyDecl

variable {d : HierarchyDecl}

/-- No two declared classes have one name. -/
theorem Valid.eq_of_name_eq (hvalid : d.Valid) {a c : ClassDecl} (ha : a ∈ d.classes)
    (hc : c ∈ d.classes) (h : a.name = c.name) : a = c :=
  List.inj_on_of_nodup_map hvalid.classNames_nodup ha hc h

theorem Valid.isAssignable_classIdOf_iff (hvalid : d.Valid) (table : Nat) (rule : NullRule)
    {a c : ClassDecl} (ha : a ∈ d.classes) (hc : c ∈ d.classes) :
    (d.typeSystem table).isAssignable rule (.cls (classIdOf table c.name))
        (.cls (classIdOf table a.name)) = true ↔
      a = c ∨ c.name ∈ a.supertypes := by
  have hnames : a.name = c.name ↔ a = c := by
    constructor
    · exact hvalid.eq_of_name_eq ha hc
    · rintro rfl
      rfl
  rw [isAssignable_iff_fits, fits_cls_iff (hvalid.class?_typeSystem table ha),
    mem_supertypes_definition_iff, classIdOf_inj, hnames]

end HierarchyDecl

/-- In a type system that is built from a declaration, every class stands under its name, and an
argument of the class `a` fits a parameter of the class `c` exactly if they are the same class or
the declaration of `a` itself lists the name of `c`. Of all types that are no classes, that of
`null` alone fits a class, and no class fits any of them. Calls of methods and of constructors agree
in this. -/
theorem isAssignable_iff_eq_or_mem_supertypes (d : HierarchyDecl) (table : StringTable)
    (ts : TypeSystem) (h : (d.build table).1 = .ok ts) (rule : NullRule) :
    (∀ c ∈ d.classes, ts.typeNamed? c.name = some (.cls (classIdOf table.id c.name))) ∧
      (∀ a ∈ d.classes, ∀ c ∈ d.classes,
        (ts.isAssignable rule (.cls (classIdOf table.id c.name))
            (.cls (classIdOf table.id a.name)) = true ↔
          a = c ∨ c.name ∈ a.supertypes)) ∧
      ∀ id t, (∀ other, t ≠ .cls other) →
        (ts.isAssignable rule (.cls id) t = true ↔ t = .null) ∧
          ts.isAssignable rule t (.cls id) = false := by
  obtain ⟨hvalid, rfl⟩ := HierarchyDecl.build_eq_ok_iff.1 h
  refine ⟨?named, ?classes, ?others⟩
  case named =>
    intro c hc
    have hname : c.name ∈ d.classNames := List.mem_map_of_mem hc
    exact (d.typeNamed?_typeSystem_eq_some_iff table.id _ _).2 (hvalid.means_cls table.id hname)
  case classes =>
    intro a ha c hc
    exact hvalid.isAssignable_classIdOf_iff table.id rule ha hc
  case others =>
    intro id t ht
    rw [isAssignable_iff_fits, ← Bool.not_eq_true, isAssignable_iff_fits]
    exact ⟨fits_cls_iff_eq_null ht, not_cls_fits ht⟩

/-- Every class of this ring lists the next one, `A` twice and `B` beside itself. -/
def supertypeRing : HierarchyDecl where
  classes := [
    { name := "A", supertypes := ["B", "B"] },
    { name := "B", supertypes := ["B", "C"] },
    { name := "C", supertypes := ["A"] }]

/-- An `A` fits `B` but not `C`, although `B` lists `C` and `C` lists `A` again. -/
theorem isAssignable_supertypeRing :
    ∃ ts, (supertypeRing.build (.empty 0)).1 = .ok ts ∧
      ts.isAssignable .anyParameter (.cls (classIdOf 0 "B")) (.cls (classIdOf 0 "A")) = true ∧
      ts.isAssignable .anyParameter (.cls (classIdOf 0 "C")) (.cls (classIdOf 0 "A")) = false ∧
      ts.isAssignable .anyParameter (.cls (classIdOf 0 "A")) .null = true ∧
      ts.isAssignable .anyParameter (.cls (classIdOf 0 "A")) .void = false := by
  have hbuild : (supertypeRing.build (.empty 0)).1 = .ok (supertypeRing.typeSystem 0) := rfl
  obtain ⟨-, hclasses, hothers⟩ :=
    isAssignable_iff_eq_or_mem_supertypes supertypeRing (.empty 0) _ hbuild .anyParameter
  have hto := hclasses { name := "A", supertypes := ["B", "B"] } (by decide)
  have hnull := (hothers (classIdOf 0 "A") .null nofun).1
  have hvoid := (hothers (classIdOf 0 "A") .void nofun).1
  refine ⟨_, hbuild, ?_, ?_, hnull.2 rfl, ?_⟩
  · exact (hto { name := "B", supertypes := ["B", "C"] } (by decide)).2 (by decide)
  · have hiff := hto { name := "C", supertypes := ["A"] } (by decide)
    rw [← Bool.not_eq_true]
    exact mt hiff.1 (by decide)
  · rw [← Bool.not_eq_true]
    exact mt hvoid.1 nofun

end Nominal
