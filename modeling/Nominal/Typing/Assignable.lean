import Nominal.Hierarchy.TypeSystem

/-!
# Assignability

When an argument fits a parameter: if the types are equal, if the argument's class itself lists the
parameter's, or if the argument is `null` and the parameter takes it. Widening is one level deep.
-/

namespace Nominal

/-- Which parameters take `null`. Method calls and constructor calls differ in this. -/
inductive NullRule where
  /-- Every parameter, even one of a primitive type. -/
  | anyParameter
  /-- Every parameter that is not of a primitive type. -/
  | referenceParameters
  deriving DecidableEq, Repr

/-- Whether a parameter of type `param` takes `null`. -/
def NullRule.takesNull (param : Ty) : NullRule → Bool
  | .anyParameter => true
  | .referenceParameters => !param.isPrimitive

/-- Whether an argument of type `arg` may be passed for a parameter of type `param`. -/
def TypeSystem.isAssignable (ts : TypeSystem) (rule : NullRule) (param arg : Ty) : Bool :=
  arg == param || ts.isDirectSupertype param arg || (arg.isNull && rule.takesNull param)

end Nominal
