import Nominal.Declaration.Build

/-!
# The steps of building a declaration

Which rules a declaration has to keep, and in which order they are looked at. Both are said by one
list: `HierarchyDecl.steps` names every step of the building in order, and `BuildStep.violation`
says what is wrong with one. The steps speak of names alone, so they can be read without the type
system that is built.

* `HierarchyDecl.Valid` — the rules without their order;
* `HierarchyDecl.FirstViolation` — the first step that violates a rule;
* `valid_iff_firstViolation_eq_none` — the two say the same about acceptance.
-/

namespace Nominal

/-! ## Names -/

/-- The names of the types that need no declaration. -/
def builtinNames : List String := ["int", "boolean", "double", "void"]

/-- The names that no class may take. -/
def reservedNames : List String := builtinNames ++ ["null"]

theorem not_mem_builtinNames {name : String} (h : name ∉ reservedNames) : name ∉ builtinNames :=
  fun hmem => h (List.mem_append_left _ hmem)

/-- Each name together with the names before it, the first of which are `earlier`. -/
def withEarlier (earlier : List String) : List String → List (List String × String)
  | [] => []
  | name :: names => (earlier, name) :: withEarlier (earlier ++ [name]) names

/-- No name is among those before it exactly if no name is repeated. -/
theorem forall_withEarlier_notMem_iff {earlier names : List String} :
    (∀ p ∈ withEarlier earlier names, p.2 ∉ p.1) ↔
      names.Nodup ∧ ∀ name ∈ names, name ∉ earlier := by
  induction names generalizing earlier with
  | nil => simp [withEarlier]
  | cons name names ih =>
      simp only [withEarlier, List.forall_mem_cons, ih, List.nodup_cons, List.mem_append,
        List.mem_singleton, not_or]
      constructor
      · rintro ⟨hname, hnodup, hrest⟩
        refine ⟨⟨?_, hnodup⟩, hname, ?_⟩
        · intro hmem
          exact (hrest name hmem).2 rfl
        · intro other hmem
          exact (hrest other hmem).1
      · rintro ⟨⟨hmem, hnodup⟩, hname, hrest⟩
        refine ⟨hname, hnodup, ?_⟩
        intro other hother
        refine ⟨hrest other hother, ?_⟩
        rintro rfl
        exact hmem hother

theorem forall_withEarlier_nil_notMem_iff {names : List String} :
    (∀ p ∈ withEarlier [] names, p.2 ∉ p.1) ↔ names.Nodup := by
  rw [forall_withEarlier_notMem_iff]
  simp

theorem map_snd_withEarlier (earlier names : List String) :
    (withEarlier earlier names).map (·.2) = names := by
  induction names generalizing earlier with
  | nil => rfl
  | cons name names ih => simp [withEarlier, ih]

/-! ## Steps -/

/-- A step of the building. -/
inductive BuildStep where
  /-- The name of a class or a method is interned. -/
  | intern (name : String)
  /-- A class is added behind the classes called `earlier`. -/
  | className (earlier : List String) (name : String)
  /-- A supertype of the class `owner` is resolved. -/
  | supertype (owner name : String)
  /-- The type of a parameter or a result is resolved. -/
  | typeName (name : String)
  /-- A method is added to the class `owner` behind the methods called `earlier`. -/
  | methodName (owner : String) (earlier : List String) (name : String)
  deriving DecidableEq, Repr

/-- What is wrong with a step, if anything is, when the classes called `declared` are declared. -/
def BuildStep.violation (declared : List String) : BuildStep → Option HierarchyError
  | .intern _ => none
  | .className earlier name =>
    if name ∈ reservedNames then some (.reservedTypeName name)
    else if name ∈ earlier then some (.classAlreadyDeclared name)
    else none
  | .supertype owner name =>
    if name ∈ builtinNames then some (.invalidSupertype owner name)
    else if name ∈ declared then none
    else some (.typeDoesNotExist name)
  | .typeName name =>
    if name ∈ builtinNames ∨ name ∈ declared then none
    else some (.typeDoesNotExist name)
  | .methodName owner earlier name =>
    if name ∈ earlier then some (.methodAlreadyDeclared owner name)
    else none

/-- The first violation in a list of steps. -/
def firstViolation (declared : List String) (steps : List BuildStep) : Option HierarchyError :=
  steps.findSome? (·.violation declared)

namespace MethodDecl

/-- A method's name is interned before its parameters and what it returns are resolved. -/
def steps (m : MethodDecl) : List BuildStep :=
  .intern m.name :: (m.params.map .typeName ++ [.typeName m.returns])

end MethodDecl

namespace ClassDecl

/-- The names of the methods as they are declared. -/
def methodNames (c : ClassDecl) : List String := c.methods.map (·.name)

/-- The steps that resolve the members of a class: supertypes, constructor, methods. -/
def resolutionSteps (c : ClassDecl) : List BuildStep :=
  c.supertypes.map (.supertype c.name) ++ (c.declaredConstructor.getD []).map .typeName ++
    c.methods.flatMap MethodDecl.steps

/-- The steps that add methods to the class `owner` behind those called `earlier`. -/
def methodNameSteps (owner : String) (earlier names : List String) : List BuildStep :=
  (withEarlier earlier names).map fun (earlier, name) => .methodName owner earlier name

/-- All signatures of a class are resolved before its methods are added. -/
def steps (c : ClassDecl) : List BuildStep :=
  c.resolutionSteps ++ methodNameSteps c.name [] c.methodNames

/-- The names that the signatures of a class refer to. -/
def signatureNames (c : ClassDecl) : List String :=
  c.declaredConstructor.getD [] ++ c.methods.flatMap fun m => m.params ++ [m.returns]

end ClassDecl

namespace HierarchyDecl

/-- The names of the classes as they are declared. -/
def classNames (d : HierarchyDecl) : List String := d.classes.map (·.name)

/-- The steps that add classes behind those called `earlier`. -/
def classNameSteps (earlier names : List String) : List BuildStep :=
  (withEarlier earlier names).flatMap fun (earlier, name) => [.intern name, .className earlier name]

/-- All classes are added before the members of any of them. -/
def steps (d : HierarchyDecl) : List BuildStep :=
  classNameSteps [] d.classNames ++ d.classes.flatMap ClassDecl.steps

/-- `d.FirstViolation err`: some step of `d` violates a rule, as `err` says, and none before it
does. -/
def FirstViolation (d : HierarchyDecl) (err : HierarchyError) : Prop :=
  ∃ before step after, d.steps = before ++ step :: after ∧
    (∀ earlier ∈ before, earlier.violation d.classNames = none) ∧
    step.violation d.classNames = some err

/-- The rules that a declaration has to keep. -/
structure Valid (d : HierarchyDecl) : Prop where
  unreserved : ∀ name ∈ d.classNames, name ∉ reservedNames
  classNames_nodup : d.classNames.Nodup
  supertypes : ∀ c ∈ d.classes, ∀ name ∈ c.supertypes, name ∈ d.classNames
  signatures : ∀ c ∈ d.classes, ∀ name ∈ c.signatureNames,
    name ∈ builtinNames ∨ name ∈ d.classNames
  methodNames_nodup : ∀ c ∈ d.classes, c.methodNames.Nodup

end HierarchyDecl

/-! ## Validity -/

section Kept

variable {declared earlier : List String} {owner name : String}

@[simp] theorem violation_intern : (BuildStep.intern name).violation declared = none := rfl

theorem violation_className_eq_none_iff :
    (BuildStep.className earlier name).violation declared = none ↔
      name ∉ reservedNames ∧ name ∉ earlier := by
  by_cases hreserved : name ∈ reservedNames <;> by_cases hmem : name ∈ earlier <;>
    simp [BuildStep.violation, hreserved, hmem]

theorem violation_supertype_eq_none_iff :
    (BuildStep.supertype owner name).violation declared = none ↔
      name ∉ builtinNames ∧ name ∈ declared := by
  by_cases hbuiltin : name ∈ builtinNames <;> by_cases hmem : name ∈ declared <;>
    simp [BuildStep.violation, hbuiltin, hmem]

theorem violation_typeName_eq_none_iff :
    (BuildStep.typeName name).violation declared = none ↔
      name ∈ builtinNames ∨ name ∈ declared := by
  by_cases hname : name ∈ builtinNames ∨ name ∈ declared <;> simp [BuildStep.violation, hname]

theorem violation_methodName_eq_none_iff :
    (BuildStep.methodName owner earlier name).violation declared = none ↔ name ∉ earlier := by
  by_cases hmem : name ∈ earlier <;> simp [BuildStep.violation, hmem]

end Kept

theorem firstViolation_eq_none_iff {declared : List String} {steps : List BuildStep} :
    firstViolation declared steps = none ↔ ∀ step ∈ steps, step.violation declared = none :=
  List.findSome?_eq_none_iff

/-- The class names are in order if none is reserved and none is repeated. -/
theorem HierarchyDecl.forall_classNameSteps_iff {declared names : List String} :
    (∀ step ∈ classNameSteps [] names, step.violation declared = none) ↔
      (∀ name ∈ names, name ∉ reservedNames) ∧ names.Nodup := by
  simp only [classNameSteps, List.forall_mem_flatMap, List.forall_mem_cons, List.not_mem_nil,
    false_implies, implies_true, violation_intern, violation_className_eq_none_iff, true_and,
    and_true]
  rw [← forall_withEarlier_nil_notMem_iff]
  constructor
  · intro h
    refine ⟨?_, fun p hp => (h p hp).2⟩
    intro name hname
    rw [← map_snd_withEarlier [] names, List.mem_map] at hname
    rcases hname with ⟨p, hp, rfl⟩
    exact (h p hp).1
  · rintro ⟨hunreserved, hfresh⟩ p hp
    refine ⟨hunreserved p.2 ?_, hfresh p hp⟩
    rw [← map_snd_withEarlier [] names]
    exact List.mem_map_of_mem hp

/-- Methods are in order if none is repeated. -/
theorem ClassDecl.forall_methodNameSteps_iff {declared names : List String} {owner : String} :
    (∀ step ∈ methodNameSteps owner [] names, step.violation declared = none) ↔ names.Nodup := by
  rw [← forall_withEarlier_nil_notMem_iff]
  simp only [methodNameSteps, List.forall_mem_map, violation_methodName_eq_none_iff]

/-- The members of a class can be resolved if its supertypes are declared classes and its signatures
refer to types that exist. -/
theorem ClassDecl.forall_resolutionSteps_iff {declared : List String} (c : ClassDecl) :
    (∀ step ∈ c.resolutionSteps, step.violation declared = none) ↔
      (∀ name ∈ c.supertypes, name ∉ builtinNames ∧ name ∈ declared) ∧
        ∀ name ∈ c.signatureNames, name ∈ builtinNames ∨ name ∈ declared := by
  simp only [resolutionSteps, MethodDecl.steps, signatureNames, List.forall_mem_append,
    List.forall_mem_map, List.forall_mem_flatMap, List.forall_mem_cons, List.not_mem_nil,
    violation_supertype_eq_none_iff, violation_typeName_eq_none_iff, violation_intern, true_and,
    and_true, and_assoc, false_implies, implies_true]

/-- A declaration is valid exactly if none of its steps violates a rule. -/
theorem HierarchyDecl.valid_iff_firstViolation_eq_none (d : HierarchyDecl) :
    d.Valid ↔ firstViolation d.classNames d.steps = none := by
  simp only [firstViolation_eq_none_iff, HierarchyDecl.steps, ClassDecl.steps,
    List.forall_mem_append, List.forall_mem_flatMap, forall_classNameSteps_iff,
    ClassDecl.forall_resolutionSteps_iff, ClassDecl.forall_methodNameSteps_iff, and_assoc]
  constructor
  · intro h
    refine ⟨h.unreserved, h.classNames_nodup, ?_⟩
    intro c hc
    -- No class is called like a builtin type, so no supertype is one.
    refine ⟨?_, h.signatures c hc, h.methodNames_nodup c hc⟩
    intro name hname
    have hdeclared := h.supertypes c hc name hname
    exact ⟨not_mem_builtinNames (h.unreserved name hdeclared), hdeclared⟩
  · rintro ⟨hunreserved, hnodup, hclasses⟩
    refine ⟨hunreserved, hnodup, ?_, ?_, ?_⟩
    · intro c hc name hname
      exact ((hclasses c hc).1 name hname).2
    · intro c hc
      exact (hclasses c hc).2.1
    · intro c hc
      exact (hclasses c hc).2.2

/-- The first violation of a declaration is that of the first step that violates a rule. -/
theorem HierarchyDecl.firstViolation_eq_some_iff (d : HierarchyDecl) (err : HierarchyError) :
    firstViolation d.classNames d.steps = some err ↔ d.FirstViolation err := by
  rw [firstViolation, List.findSome?_eq_some_iff]
  constructor
  · rintro ⟨before, step, after, hsteps, hstep, hbefore⟩
    exact ⟨before, step, after, hsteps, hbefore, hstep⟩
  · rintro ⟨before, step, after, hsteps, hbefore, hstep⟩
    exact ⟨before, step, after, hsteps, hstep, hbefore⟩

end Nominal
