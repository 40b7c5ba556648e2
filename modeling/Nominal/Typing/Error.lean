/-!
# Type errors

The rules a call can violate. An error carries the texts of the types and names it is about, so it
can be reported without the hierarchy.
-/

namespace Nominal

/-- What a call invokes, as messages call it. -/
inductive Callee where
  | method (type name : String)
  | constructor (type : String)
  deriving DecidableEq, Repr

/-- A callee as messages print it. -/
def Callee.text : Callee → String
  | .method type name => type ++ "." ++ name ++ "()"
  | .constructor type => type ++ " constructor"

/-- Type names as messages list them, such as `(int, String)`. -/
def typeListText (types : List String) : String :=
  "(" ++ String.intercalate ", " types ++ ")"

/-- The first rule that an expression violates. -/
inductive TypeError where
  /-- A method is called on a plain value. -/
  | notInstantiableReceiver (type : String)
  /-- The type declares no such method; `suggestion` is one of its methods with a similar name. -/
  | unknownMethod (type method : String) (suggestion : Option String)
  /-- Something else than a class is constructed. -/
  | notInstantiableType (type : String)
  | arityMismatch (callee : Callee) (expected actual : Nat)
  | argumentTypeMismatch (callee : Callee) (expected actual : List String)
  deriving DecidableEq, Repr

/-- The rule that was violated, without what it was violated by. -/
inductive TypeErrorKind where
  | notInstantiableReceiver
  | unknownMethod
  | notInstantiableType
  | arityMismatch
  | argumentTypeMismatch
  deriving DecidableEq, Repr

namespace TypeErrorKind

/-- Every kind once. -/
def all : List TypeErrorKind :=
  [.notInstantiableReceiver, .unknownMethod, .notInstantiableType, .arityMismatch,
    .argumentTypeMismatch]

/-- The name of a kind. -/
def name : TypeErrorKind → String
  | .notInstantiableReceiver => "NotInstantiableReceiver"
  | .unknownMethod => "UnknownMethod"
  | .notInstantiableType => "NotInstantiableType"
  | .arityMismatch => "ArityMismatch"
  | .argumentTypeMismatch => "ArgumentTypeMismatch"

end TypeErrorKind

namespace TypeError

/-- The kind of an error. -/
def kind : TypeError → TypeErrorKind
  | .notInstantiableReceiver .. => .notInstantiableReceiver
  | .unknownMethod .. => .unknownMethod
  | .notInstantiableType .. => .notInstantiableType
  | .arityMismatch .. => .arityMismatch
  | .argumentTypeMismatch .. => .argumentTypeMismatch

/-- The wording of an error. -/
def message : TypeError → String
  | .notInstantiableReceiver type => "Type " ++ type ++ " does not have methods"
  | .unknownMethod type method _ => type ++ " has no method named " ++ method
  | .notInstantiableType type => "Type " ++ type ++ " is not instantiable"
  | .arityMismatch callee expected actual =>
    "Wrong number of arguments for " ++ callee.text ++ ": expected " ++ toString expected ++
      ", got " ++ toString actual
  | .argumentTypeMismatch callee expected actual =>
    callee.text ++ " expects arguments of type " ++ typeListText expected ++ ", but got " ++
      typeListText actual

/-- The name that was most likely meant in the place of an unknown one. -/
def suggestion? : TypeError → Option String
  | .unknownMethod _ _ suggestion => suggestion
  | _ => none

end TypeError
end Nominal
