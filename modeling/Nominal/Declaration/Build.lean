import Nominal.Declaration.Basic
import Nominal.Hierarchy.TypeSystem
import Nominal.Names.StringTable
import Nominal.Typing.LogRecord

/-!
# Building a type system from its declaration

Building takes two passes. The first adds every declared class without its members, so that the
second may resolve any name, whichever class it is declared in. In the second pass the supertypes,
the constructor and the method signatures of a class are resolved one after the other, and only
then added to it. The first problem stops the building.

Names that are declared are interned on the way, names that are only referred to are not. What was
interned before a problem stays in the string table.
-/

namespace Nominal

/-- A step of the building: it interns names, and may be refused. -/
abbrev Building := ExceptT HierarchyError (StateM StringTable)

/-- Interns a declared name. -/
def internName (name : String) : Building Symbol :=
  modifyGet (·.intern name)

/-! ## Resolving names -/

namespace TypeSystem

/-- The type that a name stands for. -/
def resolveName (ts : TypeSystem) (name : String) : Except HierarchyError Ty :=
  match ts.typeNamed? name with
  | some t => .ok t
  | none => .error (.typeDoesNotExist name)

/-- The types that a list of names stands for. -/
def resolveNames (ts : TypeSystem) (names : List String) : Except HierarchyError (List Ty) :=
  names.mapM ts.resolveName

/-- The constructor parameters that a list of names stands for, if there is one. -/
def resolveConstructorNames (ts : TypeSystem) :
    Option (List String) → Except HierarchyError (Option (List Ty))
  | none => .ok none
  | some names => (ts.resolveNames names).map some

/-- The class that a supertype of `className` stands for. -/
def resolveSupertype (ts : TypeSystem) (className name : String) :
    Except HierarchyError ClassId := do
  match ← ts.resolveName name with
  | .cls id => pure id
  | _ => throw (.invalidSupertype className name)

/-- The classes that the supertypes of `className` stand for. -/
def resolveSupertypes (ts : TypeSystem) (className : String) (names : List String) :
    Except HierarchyError (List ClassId) :=
  names.mapM (ts.resolveSupertype className)

end TypeSystem

/-! ## The members of a class -/

/-- The members of a class, their names resolved. -/
structure Members where
  supertypes : List ClassId
  declaredConstructor : Option (List Ty)
  methods : List Method

/-- Interns a method's name, then resolves its parameters and what it returns. -/
def MethodDecl.resolve (ts : TypeSystem) (m : MethodDecl) : Building Method := do
  let name ← internName m.name
  let params ← ts.resolveNames m.params
  let returns ← ts.resolveName m.returns
  pure { name, params, returns }

/-- Resolves the supertypes, the constructor and the methods of a class, in this order. -/
def ClassDecl.resolve (ts : TypeSystem) (c : ClassDecl) : Building Members := do
  let supertypes ← ts.resolveSupertypes c.name c.supertypes
  let declaredConstructor ← ts.resolveConstructorNames c.declaredConstructor
  let methods ← c.methods.mapM (MethodDecl.resolve ts)
  pure { supertypes, declaredConstructor, methods }

/-- Adds the members to a class. A repeated method is refused. -/
def ClassDef.addMembers (c : ClassDef) (members : Members) : Except HierarchyError ClassDef :=
  let c := members.supertypes.foldl ClassDef.addSupertype c
  let c := match members.declaredConstructor with
    | some params => c.setConstructor params
    | none => c
  members.methods.foldlM ClassDef.addMethod c

/-! ## The two passes -/

namespace HierarchyDecl

/-- Adds the declared classes without their members, and returns their ids in the same order. -/
def declareClasses (ts : TypeSystem) : List ClassDecl → Building (List ClassId × TypeSystem)
  | [] => pure ([], ts)
  | c :: rest => do
    let name ← internName c.name
    let (id, ts) ← ts.addClass (.fresh name)
    let (ids, ts) ← declareClasses ts rest
    pure (id :: ids, ts)

/-- Resolves the members of the classes and adds them, class by class. -/
def defineClasses (ts : TypeSystem) : List (ClassId × ClassDecl) → Building TypeSystem
  | [] => pure ts
  | (id, c) :: rest => do
    let members ← c.resolve ts
    let ts ← ts.update id (·.addMembers members)
    defineClasses ts rest

/-- Both passes over a declaration. -/
def building (d : HierarchyDecl) : Building TypeSystem := do
  let (ids, ts) ← declareClasses .empty d.classes
  defineClasses ts (ids.zip d.classes)

/-- The type system that a declaration describes, or its first problem; and the string table with
the names that were reached. -/
def build (d : HierarchyDecl) (table : StringTable) :
    Except HierarchyError TypeSystem × StringTable :=
  d.building.run.run table

/-- What building leaves in the log, by its outcome. -/
def buildLog : Except HierarchyError TypeSystem → List LogRecord
  | .ok ts => [.built ts.size]
  | .error _ => []

end HierarchyDecl
end Nominal
