import Mathlib.Data.List.Forall2
import Nominal.Proofs.Expr.Tree
import Nominal.Typing.Check

/-!
# The typing rules

What it means for an expression to be well typed, without saying how to find out:

* `Fits` — when an argument of one type may be passed for a parameter of another;
* `Invokes` — what a call invokes, once it is resolved;
* `Unresolvable` — why a call cannot be resolved;
* `WellTyped` — the typing judgment, with one rule for each form of expression.

No rule asks for the receiver of a call to be well typed: it enters by its static type alone.
Every node is a leaf, an unresolvable call or a call that invokes something (`node_cases`), and the
three exclude each other.
-/

namespace Nominal

/-! ## Arguments and parameters -/

/-- `Fits ts rule arg param`: an argument of type `arg` may be passed for a parameter of type
`param` of a call that treats `null` by `rule`. -/
inductive Fits (ts : TypeSystem) : NullRule → Ty → Ty → Prop where
  | same (rule : NullRule) (t : Ty) : Fits ts rule t t
  /-- Widening goes along one declared edge. -/
  | widened (rule : NullRule) {id supertype : ClassId} {c : ClassDef} :
      ts.class? id = some c → supertype ∈ c.supertypes → Fits ts rule (.cls id) (.cls supertype)
  | anyNull (param : Ty) : Fits ts .anyParameter .null param
  | referenceNull {param : Ty} :
      param ≠ .int → param ≠ .boolean → param ≠ .double → Fits ts .referenceParameters .null param

variable {ts : TypeSystem}

theorem isPrimitive_iff {t : Ty} : t.isPrimitive = true ↔ t ∈ Ty.primitives := by
  cases t <;> simp [Ty.isPrimitive, Ty.primitives]

theorem isPrimitive_eq_false_iff {t : Ty} :
    t.isPrimitive = false ↔ t ≠ .int ∧ t ≠ .boolean ∧ t ≠ .double := by
  rw [← Bool.not_eq_true, isPrimitive_iff]
  simp [Ty.primitives]

theorem isNull_iff {t : Ty} : t.isNull = true ↔ t = .null := by
  cases t <;> simp [Ty.isNull]

theorem isDirectSupertype_iff {supertype t : Ty} :
    ts.isDirectSupertype supertype t = true ↔
      ∃ id superId c, t = .cls id ∧ supertype = .cls superId ∧ ts.class? id = some c ∧
        superId ∈ c.supertypes := by
  cases supertype <;> cases t <;> simp [TypeSystem.isDirectSupertype, TypeSystem.resolve?]
  case cls.cls superId id =>
    cases ts.class? id <;> simp

/-- Null may be passed exactly for the parameters that its rule lets it stand for. -/
theorem fits_null_of_takesNull {rule : NullRule} {param : Ty} (h : rule.takesNull param = true) :
    Fits ts rule .null param := by
  cases rule with
  | anyParameter => exact .anyNull param
  | referenceParameters =>
      have hp : param.isPrimitive = false := by simpa [NullRule.takesNull] using h
      rcases isPrimitive_eq_false_iff.1 hp with ⟨hi, hb, hd⟩
      exact .referenceNull hi hb hd

/-- The assignability test decides whether an argument fits. -/
theorem isAssignable_iff_fits {rule : NullRule} {param arg : Ty} :
    ts.isAssignable rule param arg = true ↔ Fits ts rule arg param := by
  simp only [TypeSystem.isAssignable, Bool.or_eq_true, Bool.and_eq_true, beq_iff_eq,
    isDirectSupertype_iff, isNull_iff]
  constructor
  · rintro ((rfl | ⟨id, superId, c, rfl, rfl, hc, hmem⟩) | ⟨rfl, hnull⟩)
    · exact .same rule arg
    · exact .widened rule hc hmem
    · exact fits_null_of_takesNull hnull
  · intro h
    cases h with
    | same => exact .inl (.inl rfl)
    | widened _ hc hmem => exact .inl (.inr ⟨_, _, _, rfl, rfl, hc, hmem⟩)
    | anyNull => exact .inr ⟨rfl, rfl⟩
    | referenceNull hi hb hd =>
        have hp : param.isPrimitive = false := isPrimitive_eq_false_iff.2 ⟨hi, hb, hd⟩
        exact .inr ⟨rfl, by simp [NullRule.takesNull, hp]⟩

/-! ## Calls -/

/-- `Invokes ts e target`: the call `e` is resolved, and `target` is what it invokes. -/
inductive Invokes (ts : TypeSystem) : Expr → CallTarget → Prop where
  | method {receiver : Expr} {name : Symbol} {args : List Expr} {id : ClassId} {c : ClassDef}
      {m : Method} :
      receiver.staticType ts = .cls id → ts.class? id = some c → c.method? name = some m →
      Invokes ts (.call receiver name args)
        ⟨.method id.key.text name.text, m.params, .anyParameter⟩
  | constructor {args : List Expr} {id : ClassId} {c : ClassDef} :
      ts.class? id = some c →
      Invokes ts (.new (.cls id) args)
        ⟨.constructor id.key.text, c.constructorParams, .referenceParameters⟩

/-- `Unresolvable ts e err`: there is nothing that the call `e` could invoke, and `err` says why. -/
inductive Unresolvable (ts : TypeSystem) : Expr → TypeError → Prop where
  | primitiveReceiver {receiver : Expr} {name : Symbol} {args : List Expr} :
      receiver.staticType ts ∈ Ty.primitives →
      Unresolvable ts (.call receiver name args)
        (.notInstantiableReceiver (receiver.staticType ts).text)
  | unknownMethod {receiver : Expr} {name : Symbol} {args : List Expr} :
      receiver.staticType ts ∉ Ty.primitives →
      (∀ id c, receiver.staticType ts = .cls id → ts.class? id = some c → c.method? name = none) →
      Unresolvable ts (.call receiver name args)
        (.unknownMethod (receiver.staticType ts).text name.text
          ((ts.suggestMethod (receiver.staticType ts) name).map (·.text)))
  | noClass {type : Ty} {args : List Expr} :
      (∀ id, type = .cls id → ts.class? id = none) →
      Unresolvable ts (.new type args) (.notInstantiableType type.text)

/-- A variable, a literal or `null`. -/
def Expr.IsLeaf : Expr → Prop
  | .var .. | .lit .. | .null => True
  | .call .. | .new .. => False

/-- Every node is a leaf, or a call that can or cannot be resolved. -/
theorem node_cases (ts : TypeSystem) (e : Expr) :
    e.IsLeaf ∨ (∃ err, Unresolvable ts e err) ∨ ∃ target, Invokes ts e target := by
  cases e with
  | var name declared => exact .inl trivial
  | lit spelling type => exact .inl trivial
  | null => exact .inl trivial
  | call receiver name args =>
      right
      by_cases hprim : receiver.staticType ts ∈ Ty.primitives
      · exact .inl ⟨_, .primitiveReceiver hprim⟩
      by_cases hm : ∃ id c m, receiver.staticType ts = .cls id ∧ ts.class? id = some c ∧
          c.method? name = some m
      · rcases hm with ⟨id, c, m, hr, hc, hm⟩
        exact .inr ⟨_, .method hr hc hm⟩
      · refine .inl ⟨_, .unknownMethod hprim ?_⟩
        intro id c hr hc
        rw [Option.eq_none_iff_forall_ne_some]
        intro m hm'
        exact hm ⟨id, c, m, hr, hc, hm'⟩
  | new type args =>
      right
      by_cases hc : ∃ id c, type = .cls id ∧ ts.class? id = some c
      · rcases hc with ⟨id, c, rfl, hc⟩
        exact .inr ⟨_, .constructor hc⟩
      · refine .inl ⟨_, .noClass ?_⟩
        intro id hid
        rw [Option.eq_none_iff_forall_ne_some]
        intro c hc'
        exact hc ⟨id, c, hid, hc'⟩

/-- A call invokes one thing only. -/
theorem Invokes.unique {e : Expr} {target target' : CallTarget} (h : Invokes ts e target)
    (h' : Invokes ts e target') : target = target' := by
  cases h with
  | method hr hc hm =>
      cases h' with
      | method hr' hc' hm' =>
          have hid := Ty.cls.inj (hr.symm.trans hr')
          subst hid
          have hcls := Option.some.inj (hc.symm.trans hc')
          subst hcls
          have hmeth := Option.some.inj (hm.symm.trans hm')
          rw [hmeth]
  | constructor hc =>
      cases h' with
      | constructor hc' => rw [Option.some.inj (hc.symm.trans hc')]

/-- A call that cannot be resolved invokes nothing. -/
theorem Unresolvable.not_invokes {e : Expr} {err : TypeError} {target : CallTarget}
    (h : Unresolvable ts e err) : ¬ Invokes ts e target := by
  intro hinv
  cases hinv with
  | method hr hc hm =>
      cases h with
      | primitiveReceiver hprim =>
          rw [hr] at hprim
          simp [Ty.primitives] at hprim
      | unknownMethod _ hnone =>
          have hno := hnone _ _ hr hc
          rw [hno] at hm
          cases hm
  | constructor hc =>
      cases h with
      | noClass hnone =>
          have hno := hnone _ rfl
          rw [hno] at hc
          cases hc

/-! ## The typing judgment -/

/-- `WellTyped ts e`: the expression `e` keeps every rule of the type system. -/
inductive WellTyped (ts : TypeSystem) : Expr → Prop where
  | var (name : Symbol) (declared : Ty) : WellTyped ts (.var name declared)
  | lit (spelling : String) (type : Ty) : WellTyped ts (.lit spelling type)
  | null : WellTyped ts .null
  /-- The receiver's class itself declares the method, with one parameter for each argument. -/
  | call {receiver : Expr} {name : Symbol} {args : List Expr} {id : ClassId} {c : ClassDef}
      {m : Method} :
      receiver.staticType ts = .cls id → ts.class? id = some c → c.method? name = some m →
      (∀ arg ∈ args, WellTyped ts arg) →
      List.Forall₂ (Fits ts .anyParameter) (args.map (Expr.staticType ts)) m.params →
      WellTyped ts (.call receiver name args)
  /-- The constructor of the class has one parameter for each argument. -/
  | new {args : List Expr} {id : ClassId} {c : ClassDef} :
      ts.class? id = some c →
      (∀ arg ∈ args, WellTyped ts arg) →
      List.Forall₂ (Fits ts .referenceParameters) (args.map (Expr.staticType ts))
        c.constructorParams →
      WellTyped ts (.new (.cls id) args)

/-- All rules for leaves at once. -/
theorem WellTyped.of_isLeaf {e : Expr} (h : e.IsLeaf) : WellTyped ts e := by
  cases e with
  | var name declared => exact .var name declared
  | lit spelling type => exact .lit spelling type
  | null => exact .null
  | call receiver name args => exact h.elim
  | new type args => exact h.elim

/-- Both rules for calls at once: what the call invokes accepts its arguments. -/
theorem WellTyped.of_invokes {e : Expr} {target : CallTarget} (hinv : Invokes ts e target)
    (hargs : ∀ arg ∈ e.args, WellTyped ts arg)
    (hfits : List.Forall₂ (Fits ts target.nullRule) (e.args.map (Expr.staticType ts))
      target.params) : WellTyped ts e := by
  cases hinv with
  | method hr hc hm => exact .call hr hc hm hargs hfits
  | constructor hc => exact .new hc hargs hfits

/-- The rules read backwards: a well-typed node is a leaf, or a call of something that accepts its
arguments. -/
theorem WellTyped.isLeaf_or_invokes {e : Expr} (h : WellTyped ts e) :
    e.IsLeaf ∨ ∃ target, Invokes ts e target ∧ (∀ arg ∈ e.args, WellTyped ts arg) ∧
      List.Forall₂ (Fits ts target.nullRule) (e.args.map (Expr.staticType ts)) target.params := by
  cases h with
  | var name declared => exact .inl trivial
  | lit spelling type => exact .inl trivial
  | null => exact .inl trivial
  | call hr hc hm hargs hfits => exact .inr ⟨_, .method hr hc hm, hargs, hfits⟩
  | new hc hargs hfits => exact .inr ⟨_, .constructor hc, hargs, hfits⟩

end Nominal
