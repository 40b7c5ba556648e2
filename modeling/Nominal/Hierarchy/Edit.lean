import Nominal.Hierarchy.TypeSystem

/-!
# Changes to a type system

The five ways a type system can change, as data, so that a history of changes can be replayed. A
change that is refused leaves the type system as it was.
-/

namespace Nominal

/-- A change to a type system. -/
inductive Edit where
  | addClass (definition : ClassDef)
  | addSupertype (target supertype : ClassId)
  | setConstructor (target : ClassId) (params : List Ty)
  | addMethod (target : ClassId) (method : Method)
  | rename (target : ClassId) (name : Symbol)
  deriving DecidableEq, Repr

namespace Edit

/-- The type system after a change, or why the change is refused. -/
def apply (ts : TypeSystem) : Edit → Except HierarchyError TypeSystem
  | .addClass c => (ts.addClass c).map (·.2)
  | .addSupertype target supertype => ts.update target fun c => .ok (c.addSupertype supertype)
  | .setConstructor target params => ts.update target fun c => .ok (c.setConstructor params)
  | .addMethod target m => ts.update target (·.addMethod m)
  | .rename target name => ts.update target fun c => .ok (c.rename name)

/-- The type system that a change leaves behind, whether it was refused or not. -/
def step (ts : TypeSystem) (edit : Edit) : TypeSystem :=
  match edit.apply ts with
  | .ok ts' => ts'
  | .error _ => ts

/-- The type system after a history of changes. -/
def run (ts : TypeSystem) (history : List Edit) : TypeSystem :=
  history.foldl step ts

end Edit
end Nominal
