import Nominal.Declaration.Basic
import Nominal.Json.Record

/-!
# Reading declarations

The JSON form of a declaration. A hierarchy, a class and a method are records; a class needs its
name, a method its name and what it returns, and everything else may be left out. Only the
constructor of a class may be `null`, which is the same as leaving it out.
-/

namespace Nominal

open Json (Field Format Reader Fault)

/-! ## Drafts -/

/-- The fields of a method that were read so far. -/
structure MethodDecl.Draft where
  name : Option String := none
  returns : Option String := none
  params : Option (List String) := none

/-- The fields of a class that were read so far. -/
structure ClassDecl.Draft where
  name : Option String := none
  supertypes : Option (List String) := none
  declaredConstructor : Option (Option (List String)) := none
  methods : Option (List MethodDecl) := none

/-- The fields of a hierarchy that were read so far. -/
structure HierarchyDecl.Draft where
  classes : Option (List ClassDecl) := none

/-! ## Formats -/

namespace MethodDecl

/-- The method that a draft describes. -/
def Draft.finish (d : Draft) : Except String MethodDecl :=
  match d.name, d.returns with
  | none, _ => .error "name"
  | some _, none => .error "returns"
  | some name, some returns => .ok { name, returns, params := d.params.getD [] }

/-- How a method is written. -/
def format : Format Draft MethodDecl where
  title := "MethodDecl"
  blank := {}
  fields := [
    { key := "name", isSet := (·.name.isSome),
      value := fun d => Reader.text.map fun name => { d with name := some name } },
    { key := "returns", isSet := (·.returns.isSome),
      value := fun d => Reader.text.map fun returns => { d with returns := some returns } },
    { key := "params", isSet := (·.params.isSome),
      value := fun d => Reader.text.list.map fun params => { d with params := some params } }]
  finish := Draft.finish

end MethodDecl

namespace ClassDecl

/-- The class that a draft describes. -/
def Draft.finish (d : Draft) : Except String ClassDecl :=
  match d.name with
  | none => .error "name"
  | some name => .ok {
      name
      supertypes := d.supertypes.getD []
      declaredConstructor := d.declaredConstructor.getD none
      methods := d.methods.getD [] }

/-- How a class is written. -/
def format : Format Draft ClassDecl where
  title := "ClassDecl"
  blank := {}
  fields := [
    { key := "name", isSet := (·.name.isSome),
      value := fun d => Reader.text.map fun name => { d with name := some name } },
    { key := "supertypes", isSet := (·.supertypes.isSome),
      value := fun d => Reader.text.list.map fun supertypes =>
        { d with supertypes := some supertypes } },
    { key := "constructor", isSet := (·.declaredConstructor.isSome),
      value := fun d => Reader.text.list.nullable.map fun params =>
        { d with declaredConstructor := some params } },
    { key := "methods", isSet := (·.methods.isSome),
      value := fun d => MethodDecl.format.reader.list.map fun methods =>
        { d with methods := some methods } }]
  finish := Draft.finish

end ClassDecl

namespace HierarchyDecl

/-- The hierarchy that a draft describes. -/
def Draft.finish (d : Draft) : Except String HierarchyDecl :=
  .ok { classes := d.classes.getD [] }

/-- How a hierarchy is written. -/
def format : Format Draft HierarchyDecl where
  title := "HierarchyDecl"
  blank := {}
  fields := [
    { key := "classes", isSet := (·.classes.isSome),
      value := fun d => ClassDecl.format.reader.list.map fun classes =>
        { d with classes := some classes } }]
  finish := Draft.finish

/-- Reads the characters of a whole document: a hierarchy, and nothing but blanks after it. -/
def readDocument (s : List Char) : Except Fault HierarchyDecl :=
  match format.reader.read s with
  | .error fault => .error fault
  | .ok (d, rest) => if Json.skipBlanks rest = [] then .ok d else .error .malformed

/-- Reads a JSON document. -/
def ofJson (document : String) : Except Fault HierarchyDecl := readDocument document.toList

end HierarchyDecl
end Nominal
