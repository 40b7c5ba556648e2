import Nominal.Proofs.Declaration.Resolution

/-!
# The members of a declared class

What a class is defined as is written down from its declaration (`ClassDecl.definition`): every
name stands for its type, a supertype that is listed twice counts once. Resolving the members and
adding them to the class follows the steps of the class and comes to that definition.
-/

namespace Nominal

/-! ## What a class declares -/

/-- The signature that a method is declared with. -/
def MethodDecl.signature (table : Nat) (m : MethodDecl) : Method where
  name := ⟨table, m.name⟩
  params := m.params.map (typeOf table)
  returns := typeOf table m.returns

namespace ClassDecl

/-- The members of a class as they are declared. -/
def members (table : Nat) (c : ClassDecl) : Members where
  supertypes := c.supertypes.map (classIdOf table)
  declaredConstructor := c.declaredConstructor.map (·.map (typeOf table))
  methods := c.methods.map (·.signature table)

/-- The definition that a class is declared to have. -/
def definition (table : Nat) (c : ClassDecl) : ClassDef where
  name := ⟨table, c.name⟩
  supertypes := (c.supertypes.map (classIdOf table)).eraseDups
  declaredConstructor := c.declaredConstructor.map (·.map (typeOf table))
  methods := c.methods.map (·.signature table)

/-- Adding methods interns nothing. -/
theorem interned?_eq_none_of_mem_methodNameSteps {owner : String} {earlier names : List String}
    {step : BuildStep} (h : step ∈ methodNameSteps owner earlier names) :
    step.interned? = none := by
  rcases List.mem_map.1 h with ⟨p, _, rfl⟩
  rfl

end ClassDecl

/-! ## Resolving -/

section Resolve

variable {table : Nat} {declared : List String} {ts : TypeSystem}

theorem MethodDecl.resolve_follows (h : ts.Declares table declared) (m : MethodDecl) :
    Follows declared table (m.resolve ts) m.steps (m.signature table) := by
  have hparams : Follows declared table (liftM (ts.resolveNames m.params))
      (m.params.map .typeName) (m.params.map (typeOf table)) := by
    refine .lift ?_ (resolveNames_of_declares h m.params)
    simp [BuildStep.interned?]
  have hreturns : Follows declared table (liftM (ts.resolveName m.returns))
      [.typeName m.returns] (typeOf table m.returns) := by
    refine .lift (by simp [BuildStep.interned?]) ?_
    rw [resolveName_of_declares h, firstViolation_singleton]
  have hsteps : m.steps =
      [.intern m.name] ++ (m.params.map .typeName ++ ([.typeName m.returns] ++ [])) := rfl
  rw [hsteps]
  exact (Follows.internName m.name).bind fun _ =>
    hparams.bind fun _ => hreturns.bind fun _ => .pure (m.signature table)

theorem ClassDecl.resolve_follows (h : ts.Declares table declared) (c : ClassDecl) :
    Follows declared table (c.resolve ts) c.resolutionSteps (c.members table) := by
  have hsupertypes : Follows declared table (liftM (ts.resolveSupertypes c.name c.supertypes))
      (c.supertypes.map (.supertype c.name)) (c.supertypes.map (classIdOf table)) := by
    refine .lift ?_ (resolveSupertypes_of_declares h c.name c.supertypes)
    simp [BuildStep.interned?]
  have hconstructor :
      Follows declared table (liftM (ts.resolveConstructorNames c.declaredConstructor))
        ((c.declaredConstructor.getD []).map .typeName)
        (c.declaredConstructor.map (·.map (typeOf table))) := by
    refine .lift ?_ (resolveConstructorNames_of_declares h c.declaredConstructor)
    simp [BuildStep.interned?]
  have hmethods : Follows declared table (c.methods.mapM (MethodDecl.resolve ts))
      (c.methods.flatMap MethodDecl.steps) (c.methods.map (·.signature table)) :=
    .mapM fun m _ => m.resolve_follows h
  have hsteps : c.resolutionSteps =
      c.supertypes.map (.supertype c.name) ++ ((c.declaredConstructor.getD []).map .typeName ++
        (c.methods.flatMap MethodDecl.steps ++ [])) := by
    simp [ClassDecl.resolutionSteps]
  rw [hsteps]
  exact hsupertypes.bind fun _ =>
    hconstructor.bind fun _ => hmethods.bind fun _ => .pure (c.members table)

end Resolve

/-! ## Adding -/

/-- Supertypes are added behind those that were seen, each once. -/
theorem foldl_addSupertype (c : ClassDef) (seen supertypes : List ClassId) :
    supertypes.foldl ClassDef.addSupertype { c with supertypes := seen.eraseDups } =
      { c with supertypes := (seen ++ supertypes).eraseDups } := by
  induction supertypes generalizing seen with
  | nil => rw [List.append_nil, List.foldl_nil]
  | cons supertype supertypes ih =>
      have hstep : ClassDef.addSupertype { c with supertypes := seen.eraseDups } supertype =
          { c with supertypes := (seen ++ [supertype]).eraseDups } := by
        rw [List.eraseDups_append]
        by_cases hmem : supertype ∈ seen <;>
          simp [ClassDef.addSupertype, List.removeAll, List.eraseDups_cons, hmem]
      rw [List.foldl_cons, hstep, ih]
      simp

section AddMethod

variable (table : Nat) (declared : List String) (c : ClassDef) (done : List MethodDecl)

/-- A method is refused exactly if one that was declared before it has its name. -/
theorem addMethod_signature (m : MethodDecl) :
    ClassDef.addMethod { c with methods := done.map (·.signature table) } (m.signature table) =
      verdict
        ((BuildStep.methodName c.name.text (done.map (·.name)) m.name).violation declared)
        { c with methods := (done ++ [m]).map (·.signature table) } := by
  by_cases hmem : m.name ∈ done.map (·.name)
  · have hsome :
        ((done.map (·.signature table)).find? (·.name = ⟨table, m.name⟩)).isSome = true := by
      simpa [MethodDecl.signature] using hmem
    rcases Option.isSome_iff_exists.1 hsome with ⟨found, hfound⟩
    simp only [ClassDef.addMethod, ClassDef.method?, BuildStep.violation, hmem, if_true,
      verdict_some]
    rw [show (m.signature table).name = ⟨table, m.name⟩ from rfl, hfound]
  · have hnone : (done.map (·.signature table)).find? (·.name = ⟨table, m.name⟩) = none := by
      simpa [MethodDecl.signature] using hmem
    simp only [ClassDef.addMethod, ClassDef.method?, BuildStep.violation, hmem, if_false,
      verdict_none]
    rw [show (m.signature table).name = ⟨table, m.name⟩ from rfl, hnone, List.map_append]
    rfl

/-- Methods are added behind those that are there, up to the first name that is repeated. -/
theorem foldlM_addMethod (methods : List MethodDecl) :
    (methods.map (·.signature table)).foldlM ClassDef.addMethod
        { c with methods := done.map (·.signature table) } =
      verdict
        (firstViolation declared (ClassDecl.methodNameSteps c.name.text (done.map (·.name))
          (methods.map (·.name))))
        { c with methods := (done ++ methods).map (·.signature table) } := by
  induction methods generalizing done with
  | nil =>
      rw [List.append_nil]
      rfl
  | cons m methods ih =>
      have hsteps : ClassDecl.methodNameSteps c.name.text (done.map (·.name))
          ((m :: methods).map (·.name)) =
            .methodName c.name.text (done.map (·.name)) m.name ::
              ClassDecl.methodNameSteps c.name.text ((done ++ [m]).map (·.name))
                (methods.map (·.name)) := by
        simp [ClassDecl.methodNameSteps, withEarlier]
      have happend : done ++ m :: methods = done ++ [m] ++ methods := by simp
      rw [List.map_cons, List.foldlM_cons, hsteps, firstViolation_cons, happend,
        addMethod_signature table declared]
      exact verdict_bind fun _ => ih (done ++ [m])

end AddMethod

/-- A class that is only known by name becomes what it is declared as, unless a method is
repeated. -/
theorem addMembers_fresh (table : Nat) (declared : List String) (c : ClassDecl) :
    (ClassDef.fresh ⟨table, c.name⟩).addMembers (c.members table) =
      verdict (firstViolation declared (ClassDecl.methodNameSteps c.name [] c.methodNames))
        (c.definition table) := by
  have hsupertypes :
      (c.members table).supertypes.foldl ClassDef.addSupertype (.fresh ⟨table, c.name⟩) =
        { ClassDef.fresh ⟨table, c.name⟩ with supertypes := (c.definition table).supertypes } :=
    foldl_addSupertype (.fresh ⟨table, c.name⟩) [] _
  have hmethods := foldlM_addMethod table declared (c.definition table) [] c.methods
  unfold ClassDef.addMembers
  rw [hsupertypes]
  simp only [ClassDecl.members, ClassDecl.definition] at hmethods ⊢
  -- Without a declared constructor none is set, as in the definition.
  cases hconstructor : c.declaredConstructor with
  | none =>
      rw [hconstructor] at hmethods
      exact hmethods
  | some params =>
      rw [hconstructor] at hmethods
      exact hmethods

end Nominal
