import Nominal.Hierarchy.Ty

/-!
# Expressions

Calls of methods and constructors over variables and literals. Every name is resolved already:
a variable comes with its declared type, and a literal with the type of its value.
-/

namespace Nominal

/-- An expression. -/
inductive Expr where
  /-- A variable, with the type it was declared with. -/
  | var (name : Symbol) (declared : Ty)
  /-- A literal as it is spelled, with the type of its value. -/
  | lit (spelling : String) (type : Ty)
  | null
  /-- The call `receiver.method(args)`. -/
  | call (receiver : Expr) (method : Symbol) (args : List Expr)
  /-- The construction `new type(args)`. -/
  | new (type : Ty) (args : List Expr)
  deriving Repr

namespace Expr

/-! ## Equality -/

mutual

/-- Decides whether two expressions are the same tree. -/
def decEq : (a b : Expr) → Decidable (a = b)
  | .var n t, .var m u =>
    if h : n = m ∧ t = u then .isTrue (by rw [h.1, h.2]) else .isFalse (by simpa using h)
  | .lit v t, .lit w u =>
    if h : v = w ∧ t = u then .isTrue (by rw [h.1, h.2]) else .isFalse (by simpa using h)
  | .null, .null => .isTrue rfl
  | .call r m as, .call s n bs =>
    match decEq r s, decEqList as bs with
    | .isTrue hr, .isTrue has =>
      if h : m = n then .isTrue (by rw [hr, h, has]) else .isFalse (by simp [h])
    | .isFalse hr, _ => .isFalse (by simp [hr])
    | _, .isFalse has => .isFalse (by simp [has])
  | .new t as, .new u bs =>
    match decEqList as bs with
    | .isTrue has => if h : t = u then .isTrue (by rw [h, has]) else .isFalse (by simp [h])
    | .isFalse has => .isFalse (by simp [has])
  | .var .., .lit .. | .var .., .null | .var .., .call .. | .var .., .new ..
  | .lit .., .var .. | .lit .., .null | .lit .., .call .. | .lit .., .new ..
  | .null, .var .. | .null, .lit .. | .null, .call .. | .null, .new ..
  | .call .., .var .. | .call .., .lit .. | .call .., .null | .call .., .new ..
  | .new .., .var .. | .new .., .lit .. | .new .., .null | .new .., .call .. =>
    .isFalse (by simp)

/-- Decides whether two argument lists are the same. -/
def decEqList : (as bs : List Expr) → Decidable (as = bs)
  | [], [] => .isTrue rfl
  | a :: as, b :: bs =>
    match decEq a b, decEqList as bs with
    | .isTrue h, .isTrue hs => .isTrue (by rw [h, hs])
    | .isFalse h, _ => .isFalse (by simp [h])
    | _, .isFalse hs => .isFalse (by simp [hs])
  | [], _ :: _ | _ :: _, [] => .isFalse (by simp)

end

instance : DecidableEq Expr := decEq

/-! ## Printing -/

mutual

/-- An expression as it is written in a program. -/
def text : Expr → String
  | .var name _ => name.text
  | .lit spelling _ => spelling
  | .null => "null"
  | .call receiver method args =>
    receiver.text ++ "." ++ method.text ++ "(" ++ String.intercalate ", " (texts args) ++ ")"
  | .new type args => "new " ++ type.text ++ "(" ++ String.intercalate ", " (texts args) ++ ")"

/-- The arguments of a call, each as it is written. -/
def texts : List Expr → List String
  | [] => []
  | e :: es => e.text :: texts es

end

end Expr
end Nominal
