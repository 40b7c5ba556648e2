/-!
# Declarations

A class hierarchy as it is written down: classes and methods that refer to types by name. What the
names mean is settled when the hierarchy is built.
-/

namespace Nominal

/-- A method as it is declared. -/
structure MethodDecl where
  name : String
  returns : String
  params : List String := []
  deriving DecidableEq, Repr

/-- A class as it is declared. Without a constructor it is constructed without arguments. -/
structure ClassDecl where
  name : String
  supertypes : List String := []
  declaredConstructor : Option (List String) := none
  methods : List MethodDecl := []
  deriving DecidableEq, Repr

/-- A class hierarchy as it is declared. -/
structure HierarchyDecl where
  classes : List ClassDecl := []
  deriving DecidableEq, Repr

/-- The hierarchy that declares nothing. -/
def HierarchyDecl.empty : HierarchyDecl := {}

end Nominal
