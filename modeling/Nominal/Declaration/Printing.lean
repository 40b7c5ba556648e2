import Nominal.Declaration.Basic

/-!
# Printing declarations

The compact JSON form of a declaration: every field is written, in the order of its format, and no
blanks are. A constructor that is not declared is `null`. In a text only the quote, the backslash
and control characters are escaped.
-/

namespace Nominal

namespace Json

/-- A character as it stands in a JSON text. -/
def escapeChar (c : Char) : List Char :=
  match c with
  | '"' => ['\\', '"']
  | '\\' => ['\\', '\\']
  | '\x08' => ['\\', 'b']
  | '\x0c' => ['\\', 'f']
  | '\n' => ['\\', 'n']
  | '\r' => ['\\', 'r']
  | '\t' => ['\\', 't']
  | c =>
    if c < ' ' then
      ['\\', 'u', '0', '0', Nat.digitChar (c.toNat / 16), Nat.digitChar (c.toNat % 16)]
    else [c]

/-- A JSON text. -/
def printText (text : String) : List Char :=
  '"' :: text.toList.flatMap escapeChar ++ ['"']

/-- What stands between brackets: the items, with commas between them. -/
def printItems : List (List Char) → List Char
  | [] => []
  | [item] => item
  | item :: items => item ++ ',' :: printItems items

/-- A JSON array of printed elements. -/
def printArray (elements : List (List Char)) : List Char :=
  '[' :: printItems elements ++ [']']

/-- A JSON object of keys and printed values. -/
def printObject (members : List (String × List Char)) : List Char :=
  '\x7b' :: printItems (members.map fun (key, value) => printText key ++ ':' :: value) ++ ['\x7d']

/-- A JSON array of texts. -/
def printTexts (texts : List String) : List Char := printArray (texts.map printText)

end Json

open Json

/-- A method as it is written. -/
def MethodDecl.print (m : MethodDecl) : List Char :=
  printObject [
    ("name", printText m.name),
    ("returns", printText m.returns),
    ("params", printTexts m.params)]

/-- A class as it is written. -/
def ClassDecl.print (c : ClassDecl) : List Char :=
  printObject [
    ("name", printText c.name),
    ("supertypes", printTexts c.supertypes),
    ("constructor", match c.declaredConstructor with
      | none => ['n', 'u', 'l', 'l']
      | some params => printTexts params),
    ("methods", printArray (c.methods.map MethodDecl.print))]

/-- A hierarchy as it is written. -/
def HierarchyDecl.print (d : HierarchyDecl) : List Char :=
  printObject [("classes", printArray (d.classes.map ClassDecl.print))]

/-- A hierarchy as a JSON document. -/
def HierarchyDecl.toJson (d : HierarchyDecl) : String := String.ofList d.print

end Nominal
