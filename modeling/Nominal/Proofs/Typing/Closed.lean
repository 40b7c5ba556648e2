import Nominal.Proofs.Declaration.Description
import Nominal.Proofs.Typing.Weakening

/-!
# Closed type systems

In a closed type system everything that a class refers to is there: its supertypes are classes of
the type system, and its signatures hold types that a program can name, never the type of `null` or
an unknown type. What is built from a declaration is closed, since names are resolved when all
classes are declared (`HierarchyDecl.Valid.closed_typeSystem`).

Over a closed type system an unknown type can come out of one place only, the look-up of the
outermost method: all other types are written in the expression or stand in a signature
(`staticType_cases`).

Main statement: `closed_and_staticType_of_build_eq_ok`.
-/

namespace Nominal

/-! ## Types that can be named -/

/-- `ts.Nameable t`: a program over `ts` can name the type `t`, as it is builtin or a class of
`ts`. -/
inductive TypeSystem.Nameable (ts : TypeSystem) : Ty → Prop where
  | int : Nameable ts .int
  | boolean : Nameable ts .boolean
  | double : Nameable ts .double
  | void : Nameable ts .void
  | cls {id : ClassId} {c : ClassDef} : ts.class? id = some c → Nameable ts (.cls id)

namespace TypeSystem

variable {ts : TypeSystem}

theorem Nameable.ne_unknown {t : Ty} (h : ts.Nameable t) (x : Symbol) : t ≠ .unknown x := by
  rintro rfl
  cases h

theorem nameable_of_builtin? {name : String} {t : Ty} (h : Ty.builtin? name = some t) :
    ts.Nameable t := by
  unfold Ty.builtin? at h
  split at h
  · exact Option.some.inj h ▸ .int
  · exact Option.some.inj h ▸ .boolean
  · exact Option.some.inj h ▸ .double
  · exact Option.some.inj h ▸ .void
  · cases h

/-- Whatever a name stands for can be named. -/
theorem nameable_of_typeNamed? {name : String} {t : Ty} (h : ts.typeNamed? name = some t) :
    ts.Nameable t := by
  rcases Option.or_eq_some_iff.1 h with hbuiltin | ⟨_, hclass⟩
  · exact nameable_of_builtin? hbuiltin
  · rcases Option.map_eq_some_iff.1 hclass with ⟨entry, hentry, rfl⟩
    -- The entry was found by its text, and some entry is found by its id.
    have hsome : (ts.classes.find? (·.1 = entry.1)).isSome = true := by
      rw [List.find?_isSome]
      exact ⟨entry, List.mem_of_find?_eq_some hentry, by simp⟩
    rcases Option.isSome_iff_exists.1 hsome with ⟨found, hfound⟩
    have hfound' : ts.class? entry.1 = some found.2 := by
      rw [class?, hfound, Option.map_some]
    exact .cls hfound'

end TypeSystem

/-! ## Closedness -/

/-- The types in the signatures of a class: those of the constructor, and the parameters and results
of the methods. -/
def ClassDef.signatureTypes (c : ClassDef) : List Ty :=
  c.constructorParams ++ c.methods.flatMap fun m => m.params ++ [m.returns]

/-- `ts.Closed`: whatever a class of `ts` refers to can be found in `ts`. -/
structure TypeSystem.Closed (ts : TypeSystem) : Prop where
  supertypes : ∀ id c, ts.class? id = some c →
    ∀ supertype ∈ c.supertypes, ∃ d, ts.class? supertype = some d
  signatures : ∀ id c, ts.class? id = some c → ∀ t ∈ c.signatureTypes, ts.Nameable t

/-- A method of a closed type system returns a type that can be named. -/
theorem TypeSystem.Closed.nameable_returns {ts : TypeSystem} (hclosed : ts.Closed) {t : Ty}
    {name : Symbol} {m : Method} (h : ts.method? t name = some m) : ts.Nameable m.returns := by
  rcases Option.bind_eq_some_iff.1 h with ⟨c, hc, hm⟩
  have hmem : m ∈ c.methods := List.mem_of_find?_eq_some hm
  have htype : m.returns ∈ c.signatureTypes := by
    refine List.mem_append_right _ (List.mem_flatMap.2 ⟨m, hmem, ?_⟩)
    exact List.mem_append_right _ (List.mem_singleton_self _)
  cases t with
  | cls id => exact hclosed.signatures id c hc m.returns htype
  | _ => simp [resolve?] at hc

/-! ## What is built is closed -/

namespace HierarchyDecl

variable {d : HierarchyDecl} (table : Nat)

theorem ids_typeSystem (d : HierarchyDecl) :
    (d.typeSystem table).ids = d.classNames.map (classIdOf table) :=
  d.typeSystem_declares table

/-- Every class of the type system is a declared one. -/
theorem exists_definition_of_class? {id : ClassId} {definition : ClassDef}
    (h : (d.typeSystem table).class? id = some definition) :
    ∃ c ∈ d.classes, id = classIdOf table c.name ∧ definition = c.definition table := by
  rcases Option.map_eq_some_iff.1 h with ⟨entry, hentry, rfl⟩
  have hid : entry.1 = id := by simpa using List.find?_some hentry
  have hmem := List.mem_of_find?_eq_some hentry
  simp only [typeSystem, partialSystem, List.map_nil, List.append_nil] at hmem
  rcases List.mem_map.1 hmem with ⟨c, hc, rfl⟩
  exact ⟨c, hc, hid.symm, rfl⟩

/-- A class stands for itself where its name is declared. -/
theorem Valid.exists_class?_typeSystem (hvalid : d.Valid) {name : String}
    (h : name ∈ d.classNames) :
    ∃ c, (d.typeSystem table).class? (classIdOf table name) = some c := by
  rcases List.mem_map.1 h with ⟨c, hc, rfl⟩
  exact ⟨_, hvalid.class?_typeSystem table hc⟩

theorem Valid.nameable_of_means (hvalid : d.Valid) {name : String} {t : Ty}
    (h : d.Means table name t) : (d.typeSystem table).Nameable t := by
  cases h with
  | int => exact .int
  | boolean => exact .boolean
  | double => exact .double
  | void => exact .void
  | cls _ hdeclared =>
      rcases hvalid.exists_class?_typeSystem table hdeclared with ⟨c, hc⟩
      exact .cls hc

/-- The signatures of a class are those names that it declares. -/
theorem signatureTypes_definition (c : ClassDecl) :
    (c.definition table).signatureTypes = c.signatureNames.map (typeOf table) := by
  have hconstructor : (c.definition table).constructorParams =
      (c.declaredConstructor.getD []).map (typeOf table) := by
    cases h : c.declaredConstructor <;> simp [ClassDef.constructorParams, ClassDecl.definition, h]
  have hmethods : (c.definition table).methods = c.methods.map (·.signature table) := rfl
  simp [ClassDef.signatureTypes, ClassDecl.signatureNames, hconstructor, hmethods,
    MethodDecl.signature, List.flatMap_map, List.map_flatMap]

/-- The type system of a valid declaration is closed. -/
theorem Valid.closed_typeSystem (hvalid : d.Valid) : (d.typeSystem table).Closed := by
  constructor
  · intro id definition h supertype hsupertype
    rcases exists_definition_of_class? table h with ⟨c, hc, -, rfl⟩
    have hmem : supertype ∈ c.supertypes.map (classIdOf table) :=
      List.mem_eraseDups.1 hsupertype
    rcases List.mem_map.1 hmem with ⟨name, hname, rfl⟩
    exact hvalid.exists_class?_typeSystem table (hvalid.supertypes c hc name hname)
  · intro id definition h t ht
    rcases exists_definition_of_class? table h with ⟨c, hc, -, rfl⟩
    rw [signatureTypes_definition] at ht
    rcases List.mem_map.1 ht with ⟨name, hname, rfl⟩
    exact hvalid.nameable_of_means table (d.means_typeOf table (hvalid.signatures c hc name hname))

end HierarchyDecl

/-! ## Static types over a closed type system -/

/-- `e.ForallTypes p`: every type that the expression is written with has the property `p`. These
are the types of its variables and literals, and the types that it instantiates. -/
inductive Expr.ForallTypes (p : Ty → Prop) : Expr → Prop where
  | var {name : Symbol} {declared : Ty} : p declared → ForallTypes p (.var name declared)
  | lit {spelling : String} {type : Ty} : p type → ForallTypes p (.lit spelling type)
  | null : ForallTypes p .null
  | call {receiver : Expr} {method : Symbol} {args : List Expr} :
      ForallTypes p receiver → (∀ arg ∈ args, ForallTypes p arg) →
      ForallTypes p (.call receiver method args)
  | new {type : Ty} {args : List Expr} :
      p type → (∀ arg ∈ args, ForallTypes p arg) → ForallTypes p (.new type args)

section StaticType

variable {ts : TypeSystem}

/-- `ts.Writable t`: an expression over `ts` may be written with the type `t`, which is that of
`null` or the one that some name stands for. -/
def TypeSystem.Writable (ts : TypeSystem) (t : Ty) : Prop :=
  t = .null ∨ ∃ name, ts.typeNamed? name = some t

theorem TypeSystem.Writable.eq_null_or_nameable {t : Ty} (h : ts.Writable t) :
    t = .null ∨ ts.Nameable t := by
  rcases h with hnull | ⟨name, hname⟩
  · exact .inl hnull
  · exact .inr (nameable_of_typeNamed? hname)

/-- The static type of an expression is that of `null`, one that can be named, or the unknown type
of the outermost method, which is then not found. -/
theorem TypeSystem.Closed.staticType_cases (hclosed : ts.Closed) {e : Expr}
    (h : e.ForallTypes ts.Writable) :
    (e.staticType ts = .null ∨ ts.Nameable (e.staticType ts)) ∨
      ∃ receiver x args, e = .call receiver x args ∧
        ts.method? (receiver.staticType ts) x = none ∧ e.staticType ts = .unknown x := by
  cases h with
  | var hdeclared => exact .inl hdeclared.eq_null_or_nameable
  | lit htype => exact .inl htype.eq_null_or_nameable
  | null => exact .inl (.inl rfl)
  | new htype _ => exact .inl htype.eq_null_or_nameable
  | @call receiver x args _ _ =>
      -- Whatever the receiver is, its type is looked up, and a method returns a nameable type.
      cases hm : ts.method? (receiver.staticType ts) x with
      | none => exact .inr ⟨receiver, x, args, rfl, hm, by simp [Expr.staticType, hm]⟩
      | some m =>
          refine .inl (.inr ?_)
          have htype : (Expr.call receiver x args).staticType ts = m.returns := by
            simp [Expr.staticType, hm]
          rw [htype]
          exact hclosed.nameable_returns hm

/-- A call whose method is not found has an unknown type, so a well-typed call has none. -/
theorem WellTyped.method?_ne_none {receiver : Expr} {x : Symbol} {args : List Expr}
    (h : WellTyped ts (.call receiver x args)) :
    ts.method? (receiver.staticType ts) x ≠ none := by
  cases h with
  | call hr hc hm _ _ => simp [hr, TypeSystem.method?, TypeSystem.resolve?, hc, hm]

end StaticType

/-- A type system that is built from a declaration is closed. Over it, an expression that passes has
a type that can be named, or that of `null`; and any expression has an unknown type exactly if it is
a call whose own method is not found. -/
theorem closed_and_staticType_of_build_eq_ok (d : HierarchyDecl) (table : StringTable)
    (ts : TypeSystem) (h : (d.build table).1 = .ok ts) :
    ts.Closed ∧
      ∀ e : Expr, e.ForallTypes ts.Writable →
        (e.check ts = .ok () → e.staticType ts = .null ∨ ts.Nameable (e.staticType ts)) ∧
        ∀ x, e.staticType ts = .unknown x ↔
          ∃ receiver args, e = .call receiver x args ∧
            ts.method? (receiver.staticType ts) x = none := by
  rcases HierarchyDecl.build_eq_ok_iff.1 h with ⟨hvalid, rfl⟩
  have hclosed := hvalid.closed_typeSystem table.id
  refine ⟨hclosed, ?_⟩
  intro e htypes
  constructor
  · intro hcheck
    rcases hclosed.staticType_cases htypes with htype | ⟨receiver, x, args, rfl, hnone, _⟩
    · exact htype
    · exact absurd hnone (wellTyped_of_check hcheck).method?_ne_none
  · intro x
    constructor
    · intro hunknown
      rcases hclosed.staticType_cases htypes with
        (hnull | hname) | ⟨receiver, y, args, rfl, hnone, hy⟩
      · rw [hnull] at hunknown
        cases hunknown
      · exact absurd hunknown (hname.ne_unknown x)
      · rcases Ty.unknown.inj (hy.symm.trans hunknown) with rfl
        exact ⟨receiver, args, rfl, hnone⟩
    · rintro ⟨receiver, args, rfl, hnone⟩
      simp [Expr.staticType, hnone]

/-! ### Calls over two classes that refer to each other -/

/-- The call `shape.square().merge(new Square(1.5, null), 2)`. -/
def mergeCall : Expr :=
  .call (.call (.var ⟨0, "shape"⟩ (.cls ⟨⟨0, "Shape"⟩⟩)) ⟨0, "square"⟩ []) ⟨0, "merge"⟩
    [.new (.cls ⟨⟨0, "Square"⟩⟩) [.lit "1.5" .double, .null], .lit "2" .int]

/-- A call of `area` on a square, which has none, and a call on what that returns. -/
def areaCall : Expr := .call (.call mergeCall ⟨0, "area"⟩ []) ⟨0, "half"⟩ []

theorem closed_and_staticType_shapes :
    ∃ ts, (shapes.build (.empty 0)).1 = .ok ts ∧ ts.Closed ∧
      mergeCall.ForallTypes ts.Writable ∧ mergeCall.check ts = .ok () ∧
      ts.Nameable (mergeCall.staticType ts) ∧
      areaCall.ForallTypes ts.Writable ∧ areaCall.staticType ts = .unknown ⟨0, "half"⟩ := by
  have h : (shapes.build (.empty 0)).1 = .ok (shapes.typeSystem 0) := rfl
  rcases closed_and_staticType_of_build_eq_ok shapes (.empty 0) _ h with ⟨hclosed, htype⟩
  have hmerge : mergeCall.ForallTypes (shapes.typeSystem 0).Writable := by
    refine .call (.call (.var (.inr ⟨"Shape", rfl⟩)) (by simp)) ?_
    simp only [List.forall_mem_cons, List.not_mem_nil, false_implies, implies_true, and_true]
    refine ⟨.new (.inr ⟨"Square", rfl⟩) ?_, .lit (.inr ⟨"int", rfl⟩)⟩
    simp only [List.forall_mem_cons, List.not_mem_nil, false_implies, implies_true, and_true]
    exact ⟨.lit (.inr ⟨"double", rfl⟩), .null⟩
  have harea : areaCall.ForallTypes (shapes.typeSystem 0).Writable :=
    .call (.call hmerge (by simp)) (by simp)
  have hcheck : mergeCall.check (shapes.typeSystem 0) = .ok () := rfl
  have hnonnull : mergeCall.staticType (shapes.typeSystem 0) ≠ .null := by
    have hcls : mergeCall.staticType (shapes.typeSystem 0) = .cls ⟨⟨0, "Square"⟩⟩ := rfl
    rw [hcls]
    simp
  have hnone : (shapes.typeSystem 0).method? (.unknown ⟨0, "area"⟩) ⟨0, "half"⟩ = none := rfl
  exact ⟨_, h, hclosed, hmerge, hcheck, ((htype mergeCall hmerge).1 hcheck).resolve_left hnonnull,
    harea, ((htype areaCall harea).2 ⟨0, "half"⟩).2 ⟨_, _, rfl, hnone⟩⟩

end Nominal
