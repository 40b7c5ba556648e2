import Nominal.Names.Symbol

/-!
# Types

The types an expression can have at compile time. A class type is known by its id alone, so a type
can be compared and printed without the hierarchy it belongs to.
-/

namespace Nominal

/-- The id of a class: the symbol it was declared under, which never changes. -/
structure ClassId where
  key : Symbol
  deriving DecidableEq, Repr

/-- A compile-time type. -/
inductive Ty where
  | int
  | boolean
  | double
  | void
  /-- The type of the `null` literal, which no program can name. -/
  | null
  /-- Instances of a class. -/
  | cls (id : ClassId)
  /-- What a call of a method that does not exist would return. -/
  | unknown (method : Symbol)
  deriving DecidableEq, Repr

namespace Ty

/-- The type a program names without declaring it. -/
def builtin? : String → Option Ty
  | "int" => some .int
  | "boolean" => some .boolean
  | "double" => some .double
  | "void" => some .void
  | _ => none

/-- The types of plain values. `void` is only ever returned, so it is none of them. -/
def primitives : List Ty := [.int, .boolean, .double]

/-- Whether a type is one of the `primitives`. -/
def isPrimitive : Ty → Bool
  | .int | .boolean | .double => true
  | _ => false

/-- Whether a type is the type of the `null` literal. -/
def isNull : Ty → Bool
  | .null => true
  | _ => false

/-- A type as messages print it. -/
def text : Ty → String
  | .int => "int"
  | .boolean => "boolean"
  | .double => "double"
  | .void => "void"
  | .null => "null"
  | .cls id => id.key.text
  | .unknown method => "?" ++ method.text

end Ty

/-- Names that no class may take: those of the builtin types and of the `null` literal. -/
def isReserved (name : String) : Bool :=
  (Ty.builtin? name).isSome || name == "null"

end Nominal
