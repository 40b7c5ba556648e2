import Nominal.Expr.Basic
import Nominal.Hierarchy.TypeSystem

/-!
# Static types

The type of an expression at compile time. It is read off the expression without validating it: of
a call it needs the receiver's type and the signature, never the arguments.
-/

namespace Nominal

/-- The compile-time type of an expression. A call of a method that the receiver's type does not
declare has the unknown type of that method's name. -/
def Expr.staticType (ts : TypeSystem) : Expr → Ty
  | .var _ declared => declared
  | .lit _ type => type
  | .null => .null
  | .call receiver method _ =>
    match ts.method? (receiver.staticType ts) method with
    | some m => m.returns
    | none => .unknown method
  | .new type _ => type

end Nominal
