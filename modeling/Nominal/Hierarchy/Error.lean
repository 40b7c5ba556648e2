/-!
# Errors of the class hierarchy

Why a class, a method, a supertype or a type name was refused. Errors carry texts, as they outlive
the hierarchy they come from.
-/

namespace Nominal

/-- A refused change to a class hierarchy. -/
inductive HierarchyError where
  | classAlreadyDeclared (name : String)
  | reservedTypeName (name : String)
  | methodAlreadyDeclared (className methodName : String)
  | invalidSupertype (className supertype : String)
  | typeDoesNotExist (name : String)
  /-- A change to a class that the hierarchy does not hold. -/
  | danglingId
  deriving DecidableEq, Repr

namespace HierarchyError

/-- The wording of an error. -/
def message : HierarchyError → String
  | .classAlreadyDeclared name => "redefinition of class '" ++ name ++ "'"
  | .reservedTypeName name =>
    "'" ++ name ++ "' is a builtin type and cannot be declared as a class"
  | .methodAlreadyDeclared className methodName =>
    "redefinition of method '" ++ methodName ++ "' in class '" ++ className ++ "'"
  | .invalidSupertype className supertype =>
    "class '" ++ className ++ "' cannot have '" ++ supertype ++ "' as a supertype, only classes can"
  | .typeDoesNotExist name => "type '" ++ name ++ "' does not exist"
  | .danglingId => "Ids always point to existing classes"

end HierarchyError
end Nominal
