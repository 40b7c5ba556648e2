import Mathlib.Data.List.Basic
import Nominal.Proofs.Declaration.Course

/-!
# What names stand for

Once all classes are declared, a name stands for the builtin type of that name or else for the
declared class of that name, whichever classes are defined already. So what the members of a class
resolve to can be written down from the declaration alone (`MethodDecl.signature`,
`ClassDecl.definition`), and resolving them follows the steps of the class.
-/

namespace Nominal

/-! ## Types -/

theorem isSome_builtin?_iff {name : String} :
    (Ty.builtin? name).isSome = true ↔ name ∈ builtinNames := by
  unfold Ty.builtin?
  split <;> simp_all [builtinNames]

theorem builtin?_eq_none_iff {name : String} :
    Ty.builtin? name = none ↔ name ∉ builtinNames := by
  rw [← Option.not_isSome_iff_eq_none, isSome_builtin?_iff]

theorem isReserved_iff {name : String} : isReserved name = true ↔ name ∈ reservedNames := by
  simp [isReserved, isSome_builtin?_iff, reservedNames]

/-- A builtin type is no class. -/
theorem builtin?_ne_some_cls {name : String} {id : ClassId} :
    Ty.builtin? name ≠ some (.cls id) := by
  unfold Ty.builtin?
  split <;> simp

/-- The id of the class that is declared under `name`, its name interned in the table numbered
`table`. -/
def classIdOf (table : Nat) (name : String) : ClassId := ⟨⟨table, name⟩⟩

theorem classIdOf_inj {table : Nat} {name name' : String} :
    classIdOf table name = classIdOf table name' ↔ name = name' := by
  simp [classIdOf]

/-- The type that a declared name stands for. -/
def typeOf (table : Nat) (name : String) : Ty :=
  (Ty.builtin? name).getD (.cls (classIdOf table name))

/-- Any name that is not builtin stands for a class. -/
theorem typeOf_eq_cls {table : Nat} {name : String} (h : name ∉ builtinNames) :
    typeOf table name = .cls (classIdOf table name) := by
  rw [typeOf, builtin?_eq_none_iff.2 h, Option.getD_none]

/-- The classes of a type system stand under the ids of the declared names, in their order. -/
def TypeSystem.Declares (table : Nat) (declared : List String) (ts : TypeSystem) : Prop :=
  ts.classes.map (·.1) = declared.map (classIdOf table)

variable {table : Nat} {declared : List String} {ts : TypeSystem}

theorem find?_eq_name (declared : List String) (name : String) :
    declared.find? (· = name) = if name ∈ declared then some name else none := by
  induction declared with
  | nil => rfl
  | cons other declared ih =>
      by_cases h : other = name
      · simp [h]
      · simp [h, Ne.symm h, ih]

/-- Which type a name means depends on the declared names only. -/
theorem typeNamed?_of_declares (h : ts.Declares table declared) (name : String) :
    ts.typeNamed? name =
      if name ∈ builtinNames ∨ name ∈ declared then some (typeOf table name) else none := by
  have hclass : (ts.classes.find? (·.1.key.text = name)).map (fun entry => Ty.cls entry.1) =
      if name ∈ declared then some (.cls (classIdOf table name)) else none := by
    have hkeys : (ts.classes.find? (·.1.key.text = name)).map (·.1) =
        (declared.find? (· = name)).map (classIdOf table) := by
      have hmap : (ts.classes.map (·.1)).find? (·.key.text = name) =
          (declared.map (classIdOf table)).find? (·.key.text = name) := by rw [h]
      rw [List.find?_map, List.find?_map] at hmap
      exact hmap
    have hcls := congrArg (Option.map Ty.cls) hkeys
    rw [Option.map_map, find?_eq_name] at hcls
    rw [show (fun entry : ClassId × ClassDef => Ty.cls entry.1) = Ty.cls ∘ (·.1) from rfl, hcls]
    split <;> rfl
  unfold TypeSystem.typeNamed? typeOf
  rw [hclass]
  cases hb : Ty.builtin? name with
  | some t =>
      have hmem : name ∈ builtinNames := isSome_builtin?_iff.1 (by simp [hb])
      simp [hmem]
  | none =>
      have hmem : name ∉ builtinNames := by
        intro hmem
        have hsome := isSome_builtin?_iff.2 hmem
        simp [hb] at hsome
      simp [hmem]

/-! ## Resolving -/

theorem resolveName_of_declares (h : ts.Declares table declared) (name : String) :
    ts.resolveName name =
      verdict ((BuildStep.typeName name).violation declared) (typeOf table name) := by
  unfold TypeSystem.resolveName
  rw [typeNamed?_of_declares h]
  by_cases hname : name ∈ builtinNames ∨ name ∈ declared <;> simp [BuildStep.violation, hname]

theorem resolveNames_of_declares (h : ts.Declares table declared) (names : List String) :
    ts.resolveNames names =
      verdict (firstViolation declared (names.map .typeName)) (names.map (typeOf table)) := by
  have hfun : ts.resolveName =
      fun name => verdict ((BuildStep.typeName name).violation declared) (typeOf table name) := by
    funext name
    exact resolveName_of_declares h name
  rw [TypeSystem.resolveNames, hfun, mapM_verdict, firstViolation, List.findSome?_map]
  rfl

theorem resolveConstructorNames_of_declares (h : ts.Declares table declared)
    (names : Option (List String)) :
    ts.resolveConstructorNames names =
      verdict (firstViolation declared ((names.getD []).map .typeName))
        (names.map (·.map (typeOf table))) := by
  cases names with
  | none => rfl
  | some names =>
      rw [TypeSystem.resolveConstructorNames, resolveNames_of_declares h, map_verdict]
      rfl

/-- A supertype resolves to the declared class of its name. -/
theorem resolveSupertype_of_declares (h : ts.Declares table declared) (owner name : String) :
    ts.resolveSupertype owner name =
      verdict ((BuildStep.supertype owner name).violation declared) (classIdOf table name) := by
  unfold TypeSystem.resolveSupertype
  rw [resolveName_of_declares h]
  by_cases hbuiltin : name ∈ builtinNames
  -- A builtin name does resolve, but to no class.
  · rcases Option.isSome_iff_exists.1 (isSome_builtin?_iff.2 hbuiltin) with ⟨t, ht⟩
    have htype : typeOf table name = t := by simp [typeOf, ht]
    simp only [BuildStep.violation, hbuiltin, true_or, if_true, verdict_none, verdict_some, htype]
    cases t with
    | cls id => exact (builtin?_ne_some_cls ht).elim
    | _ => rfl
  · have htype : typeOf table name = .cls (classIdOf table name) := typeOf_eq_cls hbuiltin
    by_cases hmem : name ∈ declared
    · simp only [BuildStep.violation, hbuiltin, hmem, or_true, if_true, if_false, verdict_none,
        htype]
      rfl
    · simp only [BuildStep.violation, hbuiltin, hmem, or_self, if_false, verdict_some]
      rfl

theorem resolveSupertypes_of_declares (h : ts.Declares table declared) (owner : String)
    (names : List String) :
    ts.resolveSupertypes owner names =
      verdict (firstViolation declared (names.map (.supertype owner)))
        (names.map (classIdOf table)) := by
  have hfun : ts.resolveSupertype owner =
      fun name => verdict ((BuildStep.supertype owner name).violation declared)
        (classIdOf table name) := by
    funext name
    exact resolveSupertype_of_declares h owner name
  rw [TypeSystem.resolveSupertypes, hfun, mapM_verdict, firstViolation, List.findSome?_map]
  rfl

end Nominal
