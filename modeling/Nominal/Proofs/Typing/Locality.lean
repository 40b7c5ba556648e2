import Nominal.Proofs.Typing.Agreement

/-!
# Adding a method is local

Nothing is inherited, so a method that is added to a class shows only where a method is called on
that very class. The class keeps its supertypes and its constructor, and every other type is
resolved to the same definition as before (`TypeSystem.SameButMethods`). Therefore an expression in
which no receiver is of that class keeps its static type, and is validated in the same steps
(`validate_of_sameButMethods`). As receivers keep their static types, too, the condition on them
holds along chains of calls.
-/

namespace Nominal

/-- `e.ForallReceivers p`: every receiver of a method call in `e`, also of a call inside of a
receiver, has the property `p`. -/
inductive Expr.ForallReceivers (p : Expr → Prop) : Expr → Prop where
  | var (name : Symbol) (declared : Ty) : ForallReceivers p (.var name declared)
  | lit (spelling : String) (type : Ty) : ForallReceivers p (.lit spelling type)
  | null : ForallReceivers p .null
  | call {receiver : Expr} {method : Symbol} {args : List Expr} :
      p receiver → ForallReceivers p receiver → (∀ arg ∈ args, ForallReceivers p arg) →
      ForallReceivers p (.call receiver method args)
  | new {type : Ty} {args : List Expr} :
      (∀ arg ∈ args, ForallReceivers p arg) → ForallReceivers p (.new type args)

theorem Expr.ForallReceivers.of_mem_args {p : Expr → Prop} {e arg : Expr}
    (h : e.ForallReceivers p) (harg : arg ∈ e.args) : arg.ForallReceivers p := by
  cases h with
  | call _ _ hargs => exact hargs arg harg
  | new hargs => exact hargs arg harg
  | _ => cases harg

namespace TypeSystem

/-- `ts.SameButMethods owner ts'`: the two type systems differ at most in the methods of the class
`owner`. -/
structure SameButMethods (ts : TypeSystem) (owner : ClassId) (ts' : TypeSystem) : Prop where
  resolve?_of_ne : ∀ {t}, t ≠ .cls owner → ts'.resolve? t = ts.resolve? t
  definitions : ts.Matches (fun c c' => ∃ methods, c' = { c with methods }) ts'

variable {ts ts' : TypeSystem} {owner : ClassId}

theorem sameButMethods_of_addMethod {m : Method}
    (h : (Edit.addMethod owner m).apply ts = .ok ts') : ts.SameButMethods owner ts' := by
  obtain ⟨d, d', hd, hadd, rfl⟩ := update_eq_ok_iff.1 h
  obtain ⟨-, rfl⟩ := ClassDef.addMethod_eq_ok_iff.1 hadd
  constructor
  case resolve?_of_ne =>
    intro t ht
    cases t with
    | cls id =>
        have hne : id ≠ owner := fun heq => ht (heq ▸ rfl)
        rw [resolve?, resolve?, class?_replace, if_neg hne]
    | _ => rfl
  case definitions =>
    intro id
    rw [class?_replace]
    split
    · rename_i heq
      rw [heq, hd]
      exact .some ⟨_, rfl⟩
    · cases ts.class? id with
      | none => exact .none
      | some c => exact .some ⟨c.methods, rfl⟩

namespace SameButMethods

variable (h : ts.SameButMethods owner ts')
include h

theorem method?_of_ne {t : Ty} (ht : t ≠ .cls owner) (name : Symbol) :
    ts'.method? t name = ts.method? t name := by
  rw [method?, method?, h.resolve?_of_ne ht]

theorem resolveMethod_of_ne {t : Ty} (ht : t ≠ .cls owner) (name : Symbol) :
    ts'.resolveMethod t name = ts.resolveMethod t name := by
  simp only [resolveMethod, method?, suggestMethod, h.resolve?_of_ne ht]

theorem resolveConstructor_eq (t : Ty) : ts'.resolveConstructor t = ts.resolveConstructor t := by
  have hparams : ts'.constructor? t = ts.constructor? t :=
    h.definitions.constructor?_eq (fun _ _ ⟨_, hc⟩ => hc ▸ rfl) t
  rw [resolveConstructor, resolveConstructor, hparams]

theorem isAssignable_eq (rule : NullRule) (param arg : Ty) :
    ts'.isAssignable rule param arg = ts.isAssignable rule param arg :=
  h.definitions.isAssignable_eq (fun _ _ ⟨_, hc⟩ _ => hc ▸ Iff.rfl) rule param arg

end SameButMethods
end TypeSystem

/-! ## Expressions -/

section Expr

variable {ts ts' : TypeSystem} {owner : ClassId} {e : Expr}

theorem staticType_of_sameButMethods (h : ts.SameButMethods owner ts')
    (hreceivers : e.ForallReceivers fun receiver => receiver.staticType ts ≠ .cls owner) :
    e.staticType ts' = e.staticType ts := by
  induction e with
  | call receiver name args ih _ =>
      cases hreceivers with
      | call hreceiver hinside _ =>
          simp only [Expr.staticType, ih hinside, h.method?_of_ne hreceiver]
  | _ => rfl

/-- If no method is called on the class, its methods have no part in validating the expression. -/
theorem validate_of_sameButMethods (h : ts.SameButMethods owner ts')
    (hreceivers : e.ForallReceivers fun receiver => receiver.staticType ts ≠ .cls owner) :
    e.validate ts' = e.validate ts := by
  induction e using Expr.induction_args with
  | node e ih =>
      refine validate_congr_system h.isAssignable_eq h.resolveConstructor_eq ?call ?types ?args
      case call =>
        rintro receiver name args rfl
        cases hreceivers with
        | call hreceiver hinside _ =>
            exact ⟨staticType_of_sameButMethods h hinside, h.resolveMethod_of_ne hreceiver name⟩
      case types =>
        exact fun arg harg => staticType_of_sameButMethods h (hreceivers.of_mem_args harg)
      case args =>
        exact fun arg harg => ih arg harg (hreceivers.of_mem_args harg)

end Expr

/-- Adding a method to a class is local: an expression that calls no method on that class has the
same static type as before, and checking it has the same outcome, suggestions included. -/
theorem staticType_and_check_of_addMethod {ts ts' : TypeSystem} {owner : ClassId} {m : Method}
    {e : Expr} (hadd : (Edit.addMethod owner m).apply ts = .ok ts')
    (hreceivers : e.ForallReceivers fun receiver => receiver.staticType ts ≠ .cls owner) :
    e.staticType ts' = e.staticType ts ∧ e.check ts' = e.check ts := by
  have h := TypeSystem.sameButMethods_of_addMethod hadd
  refine ⟨staticType_of_sameButMethods h hreceivers, ?_⟩
  rw [Expr.check, Expr.check, validate_of_sameButMethods h hreceivers]

/-! ### A method that is added to a supertype -/

/-- The class `Point` with `covers(Shape)`, below `Shape` with the given methods. -/
def coveringPoint (shapeMethods : List Method) : TypeSystem where
  classes :=
    [(⟨⟨0, "Shape"⟩⟩, { name := ⟨0, "Shape"⟩, methods := shapeMethods }),
      (⟨⟨0, "Point"⟩⟩, {
        name := ⟨0, "Point"⟩
        supertypes := [⟨⟨0, "Shape"⟩⟩]
        methods := [⟨⟨0, "covers"⟩, [.cls ⟨⟨0, "Shape"⟩⟩], .cls ⟨⟨0, "Point"⟩⟩⟩] })]

/-- The call `p.covers(p).cover()` on a `Point`. -/
def coverCall : Expr :=
  .call (.call (.var ⟨0, "p"⟩ (.cls ⟨⟨0, "Point"⟩⟩)) ⟨0, "covers"⟩
    [.var ⟨0, "p"⟩ (.cls ⟨⟨0, "Point"⟩⟩)]) ⟨0, "cover"⟩ []

/-- A method `cover()` of `Shape` is not found on a `Point`, and `covers` is still suggested. -/
theorem check_coverCall :
    (Edit.addMethod ⟨⟨0, "Shape"⟩⟩ ⟨⟨0, "cover"⟩, [], .void⟩).apply (coveringPoint []) =
        .ok (coveringPoint [⟨⟨0, "cover"⟩, [], .void⟩]) ∧
      coverCall.check (coveringPoint [⟨⟨0, "cover"⟩, [], .void⟩]) =
        .error (.unknownMethod "Point" "cover" (some "covers")) := by
  have hadd : (Edit.addMethod ⟨⟨0, "Shape"⟩⟩ ⟨⟨0, "cover"⟩, [], .void⟩).apply (coveringPoint []) =
      .ok (coveringPoint [⟨⟨0, "cover"⟩, [], .void⟩]) := rfl
  have hreceivers : coverCall.ForallReceivers fun receiver =>
      receiver.staticType (coveringPoint []) ≠ .cls ⟨⟨0, "Shape"⟩⟩ := by
    refine .call (by decide) (.call (by decide) (.var _ _) ?_) (List.forall_mem_nil _)
    exact List.forall_mem_singleton.2 (.var _ _)
  have hcheck : coverCall.check (coveringPoint []) =
      .error (.unknownMethod "Point" "cover" (some "covers")) := by decide
  exact ⟨hadd, (staticType_and_check_of_addMethod hadd hreceivers).2.trans hcheck⟩

end Nominal
