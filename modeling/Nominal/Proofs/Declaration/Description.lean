import Mathlib.Data.List.Forall2
import Nominal.Proofs.Declaration.Acceptance
import Nominal.Proofs.Lists.Repetitions

/-!
# The hierarchy that is built

What a type system has to hold to be the one that a declaration describes, read off the declaration
without building anything:

* `HierarchyDecl.Means` — the type that a name means, wherever the class of that name is declared;
* `ClassDecl.Describes`, `HierarchyDecl.Describes` — the classes and their members, one by one.

Whatever is built from an accepted declaration is what the declaration describes
(`describes_of_build_eq_ok`).
-/

namespace Nominal

/-! ## What a declaration describes -/

/-- `d.Means table name t`: in the declaration `d`, whose names are interned in the table numbered
`table`, `name` means the type `t`. A builtin name means its own type, and any other the class that
is declared under it. -/
inductive HierarchyDecl.Means (table : Nat) (d : HierarchyDecl) : String → Ty → Prop where
  | int : Means table d "int" .int
  | boolean : Means table d "boolean" .boolean
  | double : Means table d "double" .double
  | void : Means table d "void" .void
  | cls {name : String} :
      name ∉ builtinNames → name ∈ d.classNames → Means table d name (.cls ⟨⟨table, name⟩⟩)

/-- `m.Describes table means method`: the method has the declared name and signature, where `means`
says what the names of types mean. -/
structure MethodDecl.Describes (table : Nat) (means : String → Ty → Prop) (m : MethodDecl)
    (method : Method) : Prop where
  name : method.name = ⟨table, m.name⟩
  params : List.Forall₂ means m.params method.params
  returns : means m.returns method.returns

/-- `c.Describes table means definition`: the class has the declared name and members, and no
others. -/
structure ClassDecl.Describes (table : Nat) (means : String → Ty → Prop) (c : ClassDecl)
    (definition : ClassDef) : Prop where
  name : definition.name = ⟨table, c.name⟩
  /-- A supertype that is listed twice counts once. -/
  supertypes : ∃ names, FirstOccurrences c.supertypes names ∧
    List.Forall₂ (fun name id => means name (.cls id)) names definition.supertypes
  declaredConstructor :
    Option.Rel (List.Forall₂ means) c.declaredConstructor definition.declaredConstructor
  methods : List.Forall₂ (MethodDecl.Describes table means) c.methods definition.methods
  methodNames_nodup : (definition.methods.map (·.name)).Nodup

/-- `d.Describes table ts`: the type system `ts` holds the declared classes and no others, each with
what is declared of it. -/
structure HierarchyDecl.Describes (table : Nat) (d : HierarchyDecl) (ts : TypeSystem) : Prop where
  /-- The classes are the declared names, in their order. -/
  ids : ts.classes.map (·.1) = d.classNames.map (fun name => ⟨⟨table, name⟩⟩)
  ids_nodup : (ts.classes.map (·.1)).Nodup
  definitions : ∀ c ∈ d.classes, ∃ definition, ts.class? ⟨⟨table, c.name⟩⟩ = some definition ∧
    c.Describes table (d.Means table) definition
  typeNamed : ∀ name t, ts.typeNamed? name = some t ↔ d.Means table name t

/-! ## The type system of a declaration -/

/-- Among entries with different ids, each one is found under its own id. -/
theorem find?_fst_eq_of_mem {entries : List (ClassId × ClassDef)}
    (hnodup : (entries.map (·.1)).Nodup) {entry : ClassId × ClassDef} (h : entry ∈ entries) :
    entries.find? (·.1 = entry.1) = some entry := by
  induction entries with
  | nil => cases h
  | cons other entries ih =>
      rw [List.map_cons, List.nodup_cons] at hnodup
      rcases hnodup with ⟨hother, hnodup⟩
      rcases List.mem_cons.1 h with rfl | hmem
      · simp
      · have hne : other.1 ≠ entry.1 := by
          intro heq
          exact hother (heq ▸ List.mem_map_of_mem hmem)
        rw [List.find?_cons_of_neg (by simpa using hne)]
        exact ih hnodup hmem

/-- Whatever is built comes from a valid declaration and is its type system. -/
theorem HierarchyDecl.build_eq_ok_iff {d : HierarchyDecl} {table : StringTable} {ts : TypeSystem} :
    (d.build table).1 = .ok ts ↔ d.Valid ∧ ts = d.typeSystem table.id := by
  rw [d.build_fst table, d.valid_iff_firstViolation_eq_none]
  cases firstViolation d.classNames d.steps with
  | some err => simp
  | none => simp [eq_comm]

section TypeSystem

variable (table : Nat) (d : HierarchyDecl)

theorem classIdOf_injective : Function.Injective (classIdOf table) :=
  fun _ _ => classIdOf_inj.1

theorem HierarchyDecl.typeSystem_declares : (d.typeSystem table).Declares table d.classNames := by
  have h := partialSystem_declares table d.classes []
  rw [List.append_nil] at h
  exact h

/-- A name that stands for a type means it. -/
theorem HierarchyDecl.means_typeOf {name : String}
    (h : name ∈ builtinNames ∨ name ∈ d.classNames) : d.Means table name (typeOf table name) := by
  by_cases hbuiltin : name ∈ builtinNames
  · simp only [builtinNames, List.mem_cons, List.not_mem_nil, or_false] at hbuiltin
    rcases hbuiltin with rfl | rfl | rfl | rfl
    · exact .int
    · exact .boolean
    · exact .double
    · exact .void
  · have hdeclared : name ∈ d.classNames := h.resolve_left hbuiltin
    rw [typeOf_eq_cls hbuiltin]
    exact .cls hbuiltin hdeclared

/-- A name means one type only, the one that it stands for. -/
theorem HierarchyDecl.means_iff {name : String} {t : Ty} :
    d.Means table name t ↔
      (name ∈ builtinNames ∨ name ∈ d.classNames) ∧ t = typeOf table name := by
  constructor
  · intro h
    cases h with
    | int => exact ⟨.inl (by simp [builtinNames]), rfl⟩
    | boolean => exact ⟨.inl (by simp [builtinNames]), rfl⟩
    | double => exact ⟨.inl (by simp [builtinNames]), rfl⟩
    | void => exact ⟨.inl (by simp [builtinNames]), rfl⟩
    | cls hbuiltin hdeclared =>
        rw [typeOf_eq_cls hbuiltin]
        exact ⟨.inr hdeclared, rfl⟩
  · rintro ⟨hname, rfl⟩
    exact d.means_typeOf table hname

theorem HierarchyDecl.typeNamed?_typeSystem_eq_some_iff (name : String) (t : Ty) :
    (d.typeSystem table).typeNamed? name = some t ↔ d.Means table name t := by
  rw [typeNamed?_of_declares (d.typeSystem_declares table), d.means_iff]
  split <;> simp [*, eq_comm]

/-- Names that all stand for types mean them one by one. -/
theorem HierarchyDecl.forall₂_means {names : List String}
    (h : ∀ name ∈ names, name ∈ builtinNames ∨ name ∈ d.classNames) :
    List.Forall₂ (d.Means table) names (names.map (typeOf table)) := by
  rw [List.forall₂_map_right_iff, List.forall₂_same]
  intro name hname
  exact d.means_typeOf table (h name hname)

variable {d}

/-- Of a valid declaration, every class stands under its own id. -/
theorem HierarchyDecl.Valid.class?_typeSystem (hvalid : d.Valid) {c : ClassDecl}
    (hc : c ∈ d.classes) :
    (d.typeSystem table).class? (classIdOf table c.name) = some (c.definition table) := by
  have hnodup : ((d.classes.map fun c => (classIdOf table c.name, c.definition table)).map
      (·.1)).Nodup := by
    have hids := hvalid.classNames_nodup.map (classIdOf_injective table)
    simpa [HierarchyDecl.classNames, Function.comp_def] using hids
  have hmem : (classIdOf table c.name, c.definition table) ∈
      d.classes.map fun c => (classIdOf table c.name, c.definition table) :=
    List.mem_map_of_mem hc
  have hfind := find?_fst_eq_of_mem hnodup hmem
  simp only [TypeSystem.class?, HierarchyDecl.typeSystem, partialSystem, List.map_nil,
    List.append_nil, hfind, Option.map_some]

/-- No class is called like a builtin type, so its name means the class. -/
theorem HierarchyDecl.Valid.means_cls (hvalid : d.Valid) {name : String} (h : name ∈ d.classNames) :
    d.Means table name (.cls (classIdOf table name)) :=
  .cls (not_mem_builtinNames (hvalid.unreserved name h)) h

/-- The supertypes of a class are the declared ones without their repetitions. -/
theorem HierarchyDecl.Valid.forall₂_supertypes (hvalid : d.Valid) {c : ClassDecl}
    (hc : c ∈ d.classes) :
    List.Forall₂ (fun name id => d.Means table name (.cls id)) c.supertypes.eraseDups
      (c.definition table).supertypes := by
  have hmap : (c.definition table).supertypes = c.supertypes.eraseDups.map (classIdOf table) :=
    eraseDups_map (classIdOf_injective table) c.supertypes
  rw [hmap, List.forall₂_map_right_iff, List.forall₂_same]
  intro name hname
  exact hvalid.means_cls table (hvalid.supertypes c hc name (List.mem_eraseDups.1 hname))

/-- Methods that are declared under different names are held under different names. -/
theorem ClassDecl.nodup_methodNames_definition (c : ClassDecl) (h : c.methodNames.Nodup) :
    (c.definition table).methodNames.Nodup := by
  have hnames : (c.definition table).methodNames =
      c.methodNames.map fun name => (⟨table, name⟩ : Symbol) := by
    simp [ClassDef.methodNames, ClassDecl.definition, MethodDecl.signature, ClassDecl.methodNames]
  rw [hnames]
  refine h.map ?_
  intro a b heq
  exact (Symbol.mk.inj heq).2

/-- Of a valid declaration, every class is defined as it is declared. -/
theorem HierarchyDecl.Valid.describes_definition (hvalid : d.Valid) {c : ClassDecl}
    (hc : c ∈ d.classes) : c.Describes table (d.Means table) (c.definition table) := by
  have hsignatures := hvalid.signatures c hc
  simp only [ClassDecl.signatureNames, List.forall_mem_append, List.forall_mem_flatMap] at hsignatures
  rcases hsignatures with ⟨hconstructor, hmethods⟩
  refine ⟨rfl, ⟨_, firstOccurrences_eraseDups c.supertypes, ?_⟩, ?_, ?_, ?_⟩
  · exact hvalid.forall₂_supertypes table hc
  · simp only [ClassDecl.definition]
    cases hdecl : c.declaredConstructor with
    | none => exact .none
    | some params =>
        rw [hdecl] at hconstructor
        exact .some (d.forall₂_means table hconstructor)
  · simp only [ClassDecl.definition]
    rw [List.forall₂_map_right_iff, List.forall₂_same]
    intro m hm
    rcases hmethods m hm with ⟨hparams, hreturns⟩
    have hreturns' := hreturns m.returns (List.mem_singleton_self _)
    exact ⟨rfl, d.forall₂_means table hparams, d.means_typeOf table hreturns'⟩
  · exact c.nodup_methodNames_definition table (hvalid.methodNames_nodup c hc)

end TypeSystem

/-- What is built from a declaration is the type system that the declaration describes. -/
theorem describes_of_build_eq_ok (d : HierarchyDecl) (table : StringTable) (ts : TypeSystem)
    (h : (d.build table).1 = .ok ts) : d.Describes table.id ts := by
  rcases HierarchyDecl.build_eq_ok_iff.1 h with ⟨hvalid, rfl⟩
  have hids : (d.typeSystem table.id).classes.map (·.1) = d.classNames.map (classIdOf table.id) :=
    d.typeSystem_declares table.id
  refine ⟨hids, ?_, ?_, d.typeNamed?_typeSystem_eq_some_iff table.id⟩
  · rw [hids]
    exact hvalid.classNames_nodup.map (classIdOf_injective table.id)
  · intro c hc
    exact ⟨c.definition table.id, hvalid.class?_typeSystem table.id hc,
      hvalid.describes_definition table.id hc⟩

/-- Two classes that refer to each other. `Square` is declared before `Shape`, lists it twice among
its supertypes, and has a method that is called like a class. -/
def shapes : HierarchyDecl where
  classes := [
    { name := "Square", supertypes := ["Shape", "Object", "Shape"],
      declaredConstructor := some ["double", "Shape"],
      methods := [{ name := "Shape", returns := "void" },
        { name := "merge", returns := "Square", params := ["Square", "int"] }] },
    { name := "Object" },
    { name := "Shape", methods := [{ name := "square", returns := "Square" }] }]

theorem describes_shapes :
    ∃ ts, (shapes.build (.empty 0)).1 = .ok ts ∧ shapes.Describes 0 ts := by
  have h : (shapes.build (.empty 0)).1 = .ok (shapes.typeSystem 0) := rfl
  exact ⟨_, h, describes_of_build_eq_ok shapes (.empty 0) _ h⟩

end Nominal
