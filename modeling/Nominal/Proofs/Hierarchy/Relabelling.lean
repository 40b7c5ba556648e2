import Mathlib.Data.List.Basic
import Nominal.Hierarchy.TypeSystem

/-!
# Other symbols for the same classes

A type system can be relabelled: every symbol in it is replaced, the ids of its classes included.
As long as different symbols stay different, each lookup finds the relabelled definition of what it
found before, since symbols are only ever compared for being the same. What two symbols look like
does not matter: what is declared under one symbol has no part in looking up another one
(`TypeSystem.class?_dropClass`, `ClassDef.method?_dropMethod`), even if their texts are the same.
-/

namespace Nominal

variable {ρ : Symbol → Symbol}

/-! ## Relabelled definitions -/

def ClassId.relabel (ρ : Symbol → Symbol) (id : ClassId) : ClassId := ⟨ρ id.key⟩

def Ty.relabel (ρ : Symbol → Symbol) : Ty → Ty
  | .cls id => .cls (id.relabel ρ)
  | .unknown method => .unknown (ρ method)
  | .int => .int
  | .boolean => .boolean
  | .double => .double
  | .void => .void
  | .null => .null

def Method.relabel (ρ : Symbol → Symbol) (m : Method) : Method where
  name := ρ m.name
  params := m.params.map (Ty.relabel ρ)
  returns := m.returns.relabel ρ

def ClassDef.relabel (ρ : Symbol → Symbol) (c : ClassDef) : ClassDef where
  name := ρ c.name
  supertypes := c.supertypes.map (ClassId.relabel ρ)
  declaredConstructor := c.declaredConstructor.map (List.map (Ty.relabel ρ))
  methods := c.methods.map (Method.relabel ρ)

/-- The type system with `ρ` applied to every symbol in it. -/
def TypeSystem.relabel (ρ : Symbol → Symbol) (ts : TypeSystem) : TypeSystem where
  classes := ts.classes.map (Prod.map (ClassId.relabel ρ) (ClassDef.relabel ρ))

/-! ## Replacing nothing -/

theorem Ty.relabel_id : Ty.relabel id = id := by
  funext t
  cases t <;> rfl

theorem ClassDef.relabel_id : ClassDef.relabel id = id := by
  have hids : ClassId.relabel id = id := rfl
  have hmethods : Method.relabel id = id := by
    funext m
    simp only [Method.relabel, Ty.relabel_id, List.map_id, id]
  funext c
  simp only [ClassDef.relabel, hids, hmethods, Ty.relabel_id, List.map_id, List.map_id_fun,
    Option.map_id, id]

@[simp] theorem TypeSystem.relabel_id (ts : TypeSystem) : ts.relabel id = ts := by
  have hids : ClassId.relabel id = id := rfl
  rw [relabel, hids, ClassDef.relabel_id, Prod.map_id, List.map_id]

/-! ## Lookups -/

@[simp] theorem Ty.isPrimitive_relabel (t : Ty) : (t.relabel ρ).isPrimitive = t.isPrimitive := by
  cases t <;> rfl

@[simp] theorem Ty.isNull_relabel (t : Ty) : (t.relabel ρ).isNull = t.isNull := by
  cases t <;> rfl

@[simp] theorem ClassDef.constructorParams_relabel (c : ClassDef) :
    (c.relabel ρ).constructorParams = c.constructorParams.map (Ty.relabel ρ) := by
  rcases c with ⟨name, supertypes, _ | params, methods⟩ <;> rfl

section Injective

variable (hρ : Function.Injective ρ)
include hρ

theorem ClassId.relabel_injective : Function.Injective (ClassId.relabel ρ) := by
  rintro ⟨a⟩ ⟨b⟩ h
  exact congrArg ClassId.mk (hρ (congrArg ClassId.key h))

theorem Ty.relabel_injective : Function.Injective (Ty.relabel ρ) := by
  intro t u h
  cases t <;> cases u <;> first
    | rfl
    | exact congrArg Ty.cls (ClassId.relabel_injective hρ (Ty.cls.inj h))
    | exact congrArg Ty.unknown (hρ (Ty.unknown.inj h))
    | cases h

theorem ClassDef.method?_relabel (c : ClassDef) (name : Symbol) :
    (c.relabel ρ).method? (ρ name) = (c.method? name).map (Method.relabel ρ) := by
  rw [method?, method?, ClassDef.relabel, List.find?_map]
  congr 2
  funext m
  exact decide_eq_decide.2 hρ.eq_iff

namespace TypeSystem

variable (ts : TypeSystem)

theorem class?_relabel (id : ClassId) :
    (ts.relabel ρ).class? (id.relabel ρ) = (ts.class? id).map (ClassDef.relabel ρ) := by
  have hentry : ((fun entry : ClassId × ClassDef => decide (entry.1 = id.relabel ρ)) ∘
      Prod.map (ClassId.relabel ρ) (ClassDef.relabel ρ)) = fun entry => decide (entry.1 = id) := by
    funext entry
    exact decide_eq_decide.2 (ClassId.relabel_injective hρ).eq_iff
  rw [class?, class?, relabel, List.find?_map, hentry, Option.map_map, Option.map_map]
  rfl

theorem resolve?_relabel (t : Ty) :
    (ts.relabel ρ).resolve? (t.relabel ρ) = (ts.resolve? t).map (ClassDef.relabel ρ) := by
  cases t with
  | cls id => exact class?_relabel hρ ts id
  | _ => rfl

theorem method?_relabel (t : Ty) (name : Symbol) :
    (ts.relabel ρ).method? (t.relabel ρ) (ρ name) = (ts.method? t name).map (Method.relabel ρ) := by
  rw [method?, method?, resolve?_relabel hρ]
  cases ts.resolve? t with
  | none => rfl
  | some c => exact c.method?_relabel hρ name

theorem constructor?_relabel (t : Ty) :
    (ts.relabel ρ).constructor? (t.relabel ρ) =
      (ts.constructor? t).map (List.map (Ty.relabel ρ)) := by
  rw [constructor?, constructor?, resolve?_relabel hρ]
  cases ts.resolve? t with
  | none => rfl
  | some c => exact congrArg some c.constructorParams_relabel

theorem isDirectSupertype_relabel (supertype t : Ty) :
    (ts.relabel ρ).isDirectSupertype (supertype.relabel ρ) (t.relabel ρ) =
      ts.isDirectSupertype supertype t := by
  unfold isDirectSupertype
  rw [resolve?_relabel hρ]
  cases supertype with
  | cls id =>
      cases ts.resolve? t with
      | none => rfl
      | some c =>
          exact decide_eq_decide.2 (List.mem_map_of_injective (ClassId.relabel_injective hρ))
  | _ => rfl

end TypeSystem
end Injective

/-! ## Symbols with the same text -/

/-- The class without what it declares under `name`. -/
def ClassDef.dropMethod (c : ClassDef) (name : Symbol) : ClassDef :=
  { c with methods := c.methods.filter (·.name ≠ name) }

/-- The type system without what it declares under `id`. -/
def TypeSystem.dropClass (ts : TypeSystem) (id : ClassId) : TypeSystem where
  classes := ts.classes.filter (·.1 ≠ id)

/-- What is declared under another symbol has no part in a lookup. -/
theorem ClassDef.method?_dropMethod {a b : Symbol} (hne : a ≠ b) (c : ClassDef) :
    (c.dropMethod a).method? b = c.method? b := by
  rw [method?, method?, dropMethod, List.find?_filter]
  congr 1
  funext m
  by_cases hb : m.name = b
  · simp [hb, hne.symm]
  · simp [hb]

theorem TypeSystem.class?_dropClass {a b : ClassId} (hne : a ≠ b) (ts : TypeSystem) :
    (ts.dropClass a).class? b = ts.class? b := by
  rw [class?, class?, dropClass, List.find?_filter]
  congr 2
  funext entry
  by_cases hb : entry.1 = b
  · simp [hb, hne.symm]
  · simp [hb]

end Nominal
