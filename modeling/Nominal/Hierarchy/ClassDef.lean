import Nominal.Hierarchy.Error
import Nominal.Hierarchy.Ty

/-!
# Class definitions

What a class says about itself: its supertypes, its constructor and its methods. Nothing is
inherited, so a definition can be read without those of its supertypes.
-/

namespace Nominal

/-- A method signature. -/
structure Method where
  name : Symbol
  params : List Ty
  returns : Ty
  deriving DecidableEq, Repr

/-- A class definition. Its `name` is what messages call it and may change; supertypes are in the
order they were added. -/
structure ClassDef where
  name : Symbol
  supertypes : List ClassId := []
  declaredConstructor : Option (List Ty) := none
  methods : List Method := []
  deriving DecidableEq, Repr

namespace ClassDef

/-- A class of which only the name is known yet. -/
def fresh (name : Symbol) : ClassDef := { name }

/-- Puts `supertype` behind the others unless it is one of them. -/
def addSupertype (c : ClassDef) (supertype : ClassId) : ClassDef :=
  if supertype ∈ c.supertypes then c
  else { c with supertypes := c.supertypes ++ [supertype] }

/-- Declares the constructor, in place of an earlier one. -/
def setConstructor (c : ClassDef) (params : List Ty) : ClassDef :=
  { c with declaredConstructor := some params }

/-- The parameters of the constructor. A class that declares none is constructed without any. -/
def constructorParams (c : ClassDef) : List Ty :=
  c.declaredConstructor.getD []

/-- The method of that name, if the class itself declares one. -/
def method? (c : ClassDef) (name : Symbol) : Option Method :=
  c.methods.find? (·.name = name)

/-- Adds a method, unless the class has one of that name: the first declaration stays. -/
def addMethod (c : ClassDef) (m : Method) : Except HierarchyError ClassDef :=
  match c.method? m.name with
  | some _ => .error (.methodAlreadyDeclared c.name.text m.name.text)
  | none => .ok { c with methods := c.methods ++ [m] }

/-- Changes what messages call the class. -/
def rename (c : ClassDef) (name : Symbol) : ClassDef := { c with name }

/-- The names of the methods. -/
def methodNames (c : ClassDef) : List Symbol := c.methods.map (·.name)

/-- The methods in the order of listings. -/
def listedMethods (c : ClassDef) : List Method :=
  c.methods.mergeSort fun a b => a.name.listedBefore b.name

/-! ## What a change changes -/

theorem mem_supertypes_addSupertype (c : ClassDef) (supertype id : ClassId) :
    id ∈ (c.addSupertype supertype).supertypes ↔ id ∈ c.supertypes ∨ id = supertype := by
  unfold addSupertype
  split
  · rename_i h
    constructor
    · exact .inl
    · rintro (h' | rfl)
      · exact h'
      · exact h
  · simp

@[simp] theorem method?_addSupertype (c : ClassDef) (supertype : ClassId) (name : Symbol) :
    (c.addSupertype supertype).method? name = c.method? name := by
  unfold addSupertype method?
  split <;> rfl

@[simp] theorem method?_setConstructor (c : ClassDef) (params : List Ty) (name : Symbol) :
    (c.setConstructor params).method? name = c.method? name := rfl

@[simp] theorem method?_rename (c : ClassDef) (newName name : Symbol) :
    (c.rename newName).method? name = c.method? name := rfl

theorem addMethod_eq_ok_iff {c c' : ClassDef} {m : Method} :
    c.addMethod m = .ok c' ↔
      c.method? m.name = none ∧ c' = { c with methods := c.methods ++ [m] } := by
  unfold addMethod
  cases c.method? m.name <;> simp [eq_comm]

/-- A method that was added is found under its name, and nothing else changes. -/
theorem method?_addMethod {c c' : ClassDef} {m : Method} (h : c.addMethod m = .ok c')
    (name : Symbol) : c'.method? name = if name = m.name then some m else c.method? name := by
  obtain ⟨hnew, rfl⟩ := addMethod_eq_ok_iff.1 h
  simp only [method?, List.find?_append] at *
  -- The new method stands last, behind methods of other names.
  split
  · rename_i hname
    subst hname
    rw [hnew]
    simp
  · rename_i hname
    simp [Ne.symm hname]

end ClassDef
end Nominal
