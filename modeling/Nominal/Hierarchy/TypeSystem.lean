import Nominal.Hierarchy.ClassDef

/-!
# Type systems

A type system holds the declared classes, each under the symbol it was declared with. Builtin types
are not stored in it. Everything is looked up on exactly the given type: neither methods nor
supertypes are inherited.
-/

namespace Nominal

/-- The declared classes in the order of their declaration, each with its id. -/
structure TypeSystem where
  classes : List (ClassId × ClassDef) := []
  deriving DecidableEq, Repr

namespace TypeSystem

/-- The type system without classes. -/
def empty : TypeSystem := {}

/-- The definition behind an id. -/
def class? (ts : TypeSystem) (id : ClassId) : Option ClassDef :=
  (ts.classes.find? (·.1 = id)).map (·.2)

/-- The number of classes. -/
def size (ts : TypeSystem) : Nat := ts.classes.length

/-- Adds a class under its name, and returns its id. Reserved names are refused first, then symbols
that are taken. -/
def addClass (ts : TypeSystem) (c : ClassDef) : Except HierarchyError (ClassId × TypeSystem) :=
  if isReserved c.name.text then .error (.reservedTypeName c.name.text)
  else match ts.class? ⟨c.name⟩ with
    | some _ => .error (.classAlreadyDeclared c.name.text)
    | none => .ok (⟨c.name⟩, { classes := ts.classes ++ [(⟨c.name⟩, c)] })

/-- Puts another definition in the place of the one behind `id`. -/
def replace (ts : TypeSystem) (id : ClassId) (c : ClassDef) : TypeSystem :=
  { classes := ts.classes.map fun entry => if entry.1 = id then (id, c) else entry }

/-- Changes the definition behind `id`; if the change is refused, nothing changes. -/
def update (ts : TypeSystem) (id : ClassId) (change : ClassDef → Except HierarchyError ClassDef) :
    Except HierarchyError TypeSystem :=
  match ts.class? id with
  | none => .error .danglingId
  | some c => (change c).map (ts.replace id)

/-- The type that a program means by `name`: a builtin type, or the class declared under it. -/
def typeNamed? (ts : TypeSystem) (name : String) : Option Ty :=
  (Ty.builtin? name).or
    ((ts.classes.find? (·.1.key.text = name)).map fun entry => .cls entry.1)

/-- The definition behind a type, if it is a class of this type system. -/
def resolve? (ts : TypeSystem) : Ty → Option ClassDef
  | .cls id => ts.class? id
  | _ => none

/-- The method of that name that the type itself declares. -/
def method? (ts : TypeSystem) (t : Ty) (name : Symbol) : Option Method :=
  (ts.resolve? t).bind (·.method? name)

/-- The constructor parameters of a class type; no other type can be constructed. -/
def constructor? (ts : TypeSystem) (t : Ty) : Option (List Ty) :=
  (ts.resolve? t).map (·.constructorParams)

/-- Whether `t` itself lists `supertype`. Supertypes of its supertypes do not count. -/
def isDirectSupertype (ts : TypeSystem) (supertype t : Ty) : Bool :=
  match supertype, ts.resolve? t with
  | .cls id, some c => id ∈ c.supertypes
  | _, _ => false

/-- The classes with their ids, in the order of listings. -/
def listedClasses (ts : TypeSystem) : List (ClassId × ClassDef) :=
  ts.classes.mergeSort fun a b => a.1.key.listedBefore b.1.key

/-! ## What a change changes -/

variable {ts ts' : TypeSystem} {id : ClassId} {c : ClassDef}

@[simp] theorem class?_empty (id : ClassId) : empty.class? id = none := rfl

theorem addClass_eq_ok_iff : ts.addClass c = .ok (id, ts') ↔
    isReserved c.name.text = false ∧ ts.class? ⟨c.name⟩ = none ∧ id = ⟨c.name⟩ ∧
      ts' = { classes := ts.classes ++ [(⟨c.name⟩, c)] } := by
  unfold addClass
  by_cases hr : isReserved c.name.text = true
  · simp [hr]
  · cases hc : ts.class? ⟨c.name⟩ with
    | none => simp [hr, eq_comm]
    | some d => simp [hr]

/-- A class that was added is found under its id, and nothing else changes. -/
theorem class?_addClass (h : ts.addClass c = .ok (id, ts')) (id' : ClassId) :
    ts'.class? id' = if id' = id then some c else ts.class? id' := by
  obtain ⟨_, hnew, rfl, rfl⟩ := addClass_eq_ok_iff.1 h
  simp only [class?, List.find?_append, Option.map_eq_none_iff] at *
  by_cases hid : id' = ⟨c.name⟩
  · subst hid
    rw [hnew]
    simp
  · simp [hid, Ne.symm hid]

/-- Replacing a definition changes what its id stands for, if it stands for anything. -/
theorem class?_replace (ts : TypeSystem) (id : ClassId) (c : ClassDef) (id' : ClassId) :
    (ts.replace id c).class? id' =
      if id' = id then (ts.class? id).map fun _ => c else ts.class? id' := by
  obtain ⟨classes⟩ := ts
  simp only [class?, replace]
  induction classes with
  | nil => simp
  | cons e l ih =>
    obtain ⟨k, d⟩ := e
    by_cases hk : k = id
    -- The first entry is replaced, so only ids other than its own reach the rest.
    · subst hk
      by_cases hi : id' = k
      · simp [hi]
      · simpa [hi, Ne.symm hi] using ih
    · by_cases hi : id' = k
      · subst hi
        simp [hk]
      · simpa [hk, Ne.symm hi, List.find?_cons] using ih

theorem update_eq_ok_iff {change : ClassDef → Except HierarchyError ClassDef} :
    ts.update id change = .ok ts' ↔
      ∃ d d', ts.class? id = some d ∧ change d = .ok d' ∧ ts' = ts.replace id d' := by
  unfold update
  cases ts.class? id with
  | none => simp
  | some d => cases hd : change d <;> simp [hd, Except.map, eq_comm]

end TypeSystem
end Nominal
