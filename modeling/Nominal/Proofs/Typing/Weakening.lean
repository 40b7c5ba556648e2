import Nominal.Proofs.Hierarchy.Extension
import Nominal.Proofs.Typing.Checker

/-!
# Weakening

Extending a type system never breaks a well-typed expression. Static types alone do not have this
property: a call that names no method has an unknown type, and a new method may turn it into
another one. What saves well-typed expressions is that the receiver of a well-typed call has a
class as its static type, and a class can only come out of look-ups that all succeeded
(`staticType_eq_cls_of_extends`). Those look-ups keep their results.

Main statement: `check_run_eq_ok_and_staticType_run`.
-/

namespace Nominal

variable {ts ts' : TypeSystem}

/-! ## Static types -/

/-- The static type of a call that names a method is what the method returns. -/
theorem staticType_call {receiver : Expr} {name : Symbol} {args : List Expr} {id : ClassId}
    {c : ClassDef} {m : Method} (hr : receiver.staticType ts = .cls id)
    (hc : ts.class? id = some c) (hm : c.method? name = some m) :
    (Expr.call receiver name args).staticType ts = m.returns := by
  simp [Expr.staticType, hr, TypeSystem.method?, TypeSystem.resolve?, hc, hm]

/-- A call has a class as its static type only if it names a method of its receiver's class. -/
theorem exists_method_of_staticType_call {receiver : Expr} {name : Symbol} {args : List Expr}
    {id : ClassId} (h : (Expr.call receiver name args).staticType ts = .cls id) :
    ∃ receiverId c m, receiver.staticType ts = .cls receiverId ∧ ts.class? receiverId = some c ∧
      c.method? name = some m ∧ m.returns = .cls id := by
  simp only [Expr.staticType] at h
  cases hm : ts.method? (receiver.staticType ts) name with
  | none => simp [hm] at h
  | some m =>
      have hreturns : m.returns = .cls id := by simpa [hm] using h
      cases hr : receiver.staticType ts with
      | cls receiverId =>
          rw [hr] at hm
          simp only [TypeSystem.method?, TypeSystem.resolve?, Option.bind_eq_some_iff] at hm
          rcases hm with ⟨c, hc, hm⟩
          exact ⟨receiverId, c, m, rfl, hc, hm, hreturns⟩
      | _ => simp [hr, TypeSystem.method?, TypeSystem.resolve?] at hm

/-- A class that an expression has as its static type stays its static type. Every call on the way
down through the receivers names a method, so this is an induction along that chain. -/
theorem staticType_eq_cls_of_extends (hext : ts.Evolves ClassDef.Extends ts') {e : Expr}
    {id : ClassId} (h : e.staticType ts = .cls id) : e.staticType ts' = .cls id := by
  induction e generalizing id with
  | var name declared => exact h
  | lit spelling type => exact h
  | null => exact h
  | new type args _ => exact h
  | call receiver name args ih _ =>
      rcases exists_method_of_staticType_call h with ⟨receiverId, c, m, hr, hc, hm, hreturns⟩
      rcases hext receiverId c hc with ⟨c', hc', hcc'⟩
      rw [staticType_call (ih hr) hc' (hcc'.methods name m hm), hreturns]

/-- A well-typed expression keeps its static type. -/
theorem WellTyped.staticType_of_extends (hext : ts.Evolves ClassDef.Extends ts') {e : Expr}
    (h : WellTyped ts e) : e.staticType ts' = e.staticType ts := by
  cases h with
  | var name declared => rfl
  | lit spelling type => rfl
  | null => rfl
  | new _ _ _ => rfl
  | call hr hc hm _ _ =>
      rcases hext _ _ hc with ⟨c', hc', hcc'⟩
      have hr' := staticType_eq_cls_of_extends hext hr
      rw [staticType_call hr hc hm, staticType_call hr' hc' (hcc'.methods _ _ hm)]

/-! ## Well-typed expressions -/

/-- An argument that fits a parameter goes on fitting it. -/
theorem Fits.of_extends (hext : ts.Evolves ClassDef.Extends ts') {rule : NullRule} {param arg : Ty}
    (h : Fits ts rule arg param) : Fits ts' rule arg param := by
  cases h with
  | same => exact .same rule param
  | widened _ hc hmem =>
      rcases hext _ _ hc with ⟨c', hc', hcc'⟩
      exact .widened rule hc' (hcc'.supertypes.subset hmem)
  | anyNull => exact .anyNull param
  | referenceNull hi hb hd => exact .referenceNull hi hb hd

/-- Arguments that fit go on fitting, as their static types stay the same. -/
theorem forall₂_fits_of_extends (hext : ts.Evolves ClassDef.Extends ts') {rule : NullRule}
    {params : List Ty} {args : List Expr} (hargs : ∀ arg ∈ args, WellTyped ts arg)
    (h : List.Forall₂ (Fits ts rule) (args.map (Expr.staticType ts)) params) :
    List.Forall₂ (Fits ts' rule) (args.map (Expr.staticType ts')) params := by
  have htypes : args.map (Expr.staticType ts') = args.map (Expr.staticType ts) := by
    apply List.map_congr_left
    intro arg hmem
    exact (hargs arg hmem).staticType_of_extends hext
  rw [htypes]
  exact h.imp fun _ _ hfits => hfits.of_extends hext

/-- A well-typed expression stays well typed in every extension of the type system. -/
theorem WellTyped.of_extends (hext : ts.Evolves ClassDef.Extends ts') {e : Expr}
    (h : WellTyped ts e) : WellTyped ts' e := by
  induction h with
  | var name declared => exact .var name declared
  | lit spelling type => exact .lit spelling type
  | null => exact .null
  | call hr hc hm hargs hfits ih =>
      rcases hext _ _ hc with ⟨c', hc', hcc'⟩
      -- The receiver need not be well typed, but a class is its static type.
      have hr' := staticType_eq_cls_of_extends hext hr
      exact .call hr' hc' (hcc'.methods _ _ hm) ih (forall₂_fits_of_extends hext hargs hfits)
  | @new args id c hc hargs hfits ih =>
      rcases hext _ _ hc with ⟨c', hc', hcc'⟩
      have hfits' := forall₂_fits_of_extends hext hargs hfits
      rw [← hcc'.constructorParams] at hfits'
      exact .new hc' ih hfits'

/-- After any history of changes that declares no constructor, an expression that passed passes
with the same static type. -/
theorem check_run_eq_ok_and_staticType_run (ts : TypeSystem) (e : Expr) (history : List Edit)
    (hkeeps : ∀ edit ∈ history, edit.KeepsConstructors) (h : e.check ts = .ok ()) :
    e.check (Edit.run ts history) = .ok () ∧
      e.staticType (Edit.run ts history) = e.staticType ts := by
  have hext := Edit.extends_run hkeeps ts
  have hwell := wellTyped_of_check h
  constructor
  · exact check_of_wellTyped (hwell.of_extends hext)
  · exact hwell.staticType_of_extends hext

/-! ### A chain of calls under an extension -/

/-- The classes `A`, with `f() -> B`, and `B`, with `g(double) -> void`. -/
def chainSystem : TypeSystem where
  classes :=
    [(⟨⟨0, "A"⟩⟩, { name := ⟨0, "A"⟩, methods := [⟨⟨0, "f"⟩, [], .cls ⟨⟨0, "B"⟩⟩⟩] }),
      (⟨⟨0, "B"⟩⟩, { name := ⟨0, "B"⟩, methods := [⟨⟨0, "g"⟩, [.double], .void⟩] })]

/-- The call `a.f(a.h()).g(null)`. Its receiver passes an argument too many, of an unknown type. -/
def chainCall : Expr :=
  .call (.call (.var ⟨0, "a"⟩ (.cls ⟨⟨0, "A"⟩⟩)) ⟨0, "f"⟩
    [.call (.var ⟨0, "a"⟩ (.cls ⟨⟨0, "A"⟩⟩)) ⟨0, "h"⟩ []]) ⟨0, "g"⟩ [.null]

/-- Declares `h`, then a class above `B`, and then another `g`, which is refused. -/
def chainHistory : List Edit :=
  [.addMethod ⟨⟨0, "A"⟩⟩ ⟨⟨0, "h"⟩, [], .int⟩, .addClass (.fresh ⟨0, "C"⟩),
    .addSupertype ⟨⟨0, "B"⟩⟩ ⟨⟨0, "C"⟩⟩, .addMethod ⟨⟨0, "B"⟩⟩ ⟨⟨0, "g"⟩, [], .int⟩]

theorem check_run_chainHistory :
    (∀ edit ∈ chainHistory, edit.KeepsConstructors) ∧ chainCall.check chainSystem = .ok () ∧
      chainCall.check (Edit.run chainSystem chainHistory) = .ok () ∧
      chainCall.staticType (Edit.run chainSystem chainHistory) =
        chainCall.staticType chainSystem := by
  have hkeeps : ∀ edit ∈ chainHistory, edit.KeepsConstructors := by
    simp [chainHistory, Edit.KeepsConstructors]
  have hcheck : chainCall.check chainSystem = .ok () := rfl
  exact ⟨hkeeps, hcheck,
    check_run_eq_ok_and_staticType_run chainSystem chainCall chainHistory hkeeps hcheck⟩

end Nominal
