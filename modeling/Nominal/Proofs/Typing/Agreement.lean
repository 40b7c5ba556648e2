import Mathlib.Data.List.Find
import Mathlib.Data.List.Nodup
import Nominal.Proofs.Expr.Tree
import Nominal.Proofs.Hierarchy.Changes
import Nominal.Proofs.Names.Closest
import Nominal.Typing.Check

/-!
# Type systems that agree

Checking asks three things of a class only: which method has a name, which parameters the
constructor has, and whether a supertype is listed. Classes that give the same answers
(`ClassDef.Agrees`) may stand for each other, whatever they are called and in whatever order they
hold their members. So two type systems in which every id stands for such classes give an expression
the same static type and validate it in the same steps (`validate_of_agrees`): with the same
outcome, suggestions included (`check_of_agrees`), and with the same log.

In particular the order of methods and supertypes does not matter (`ClassDef.Reorders.agrees`).
-/

namespace Nominal

/-! ## One class -/

namespace ClassDef

/-- `c.Agrees c'`: whatever checking asks of the class `c`, it gets the same answer from `c'`. -/
structure Agrees (c c' : ClassDef) : Prop where
  methods : ∀ name, c'.method? name = c.method? name
  supertypes : ∀ id, id ∈ c'.supertypes ↔ id ∈ c.supertypes
  constructorParams : c'.constructorParams = c.constructorParams

/-- `c.Reorders c'`: the class `c'` is `c` with its methods and supertypes in any order. No two of
the methods have one name, as they have not in a class to which they were added one by one. -/
structure Reorders (c c' : ClassDef) : Prop where
  name : c'.name = c.name
  supertypes : ∀ id, id ∈ c'.supertypes ↔ id ∈ c.supertypes
  declaredConstructor : c'.declaredConstructor = c.declaredConstructor
  methods : c.methods.Perm c'.methods
  methodNames_nodup : c.methodNames.Nodup

variable {c c' : ClassDef}

/-- Of differently named methods at most one is found under a name, wherever it stands. -/
theorem Reorders.agrees (h : c.Reorders c') : c.Agrees c' := by
  refine ⟨?_, h.supertypes, ?_⟩
  · intro name
    refine (List.find?_eq_find?_of_perm h.methods ?_).symm
    rintro m ⟨hm, hname⟩ m' ⟨hm', hname'⟩
    have hnames : m.name = m'.name := by
      rw [of_decide_eq_true hname, of_decide_eq_true hname']
    exact List.inj_on_of_nodup_map h.methodNames_nodup hm hm' hnames
  · rw [constructorParams, constructorParams, h.declaredConstructor]

/-- Classes that agree have methods of the same names. -/
theorem Agrees.mem_methodNames_iff (h : c.Agrees c') (name : Symbol) :
    name ∈ c'.methodNames ↔ name ∈ c.methodNames := by
  rw [← not_iff_not, ← method?_eq_none_iff, ← method?_eq_none_iff, h.methods name]

end ClassDef

/-! ## All classes -/

/-- `ts.Matches R ts'`: an id stands for a class in both type systems or in none of them, and `R`
relates the definitions that it has in the two. -/
def TypeSystem.Matches (R : ClassDef → ClassDef → Prop) (ts ts' : TypeSystem) : Prop :=
  ∀ id, Option.Rel R (ts.class? id) (ts'.class? id)

namespace TypeSystem

variable {R R' : ClassDef → ClassDef → Prop} {ts ts' : TypeSystem}

theorem Matches.imp (hR : ∀ c c', R c c' → R' c c') (h : ts.Matches R ts') :
    ts.Matches R' ts' := by
  intro id
  have hid := h id
  generalize ts.class? id = c, ts'.class? id = c' at hid ⊢
  cases hid with
  | none => exact .none
  | some hc => exact .some (hR _ _ hc)

theorem Matches.resolve? (h : ts.Matches R ts') (t : Ty) :
    Option.Rel R (ts.resolve? t) (ts'.resolve? t) := by
  cases t with
  | cls id => exact h id
  | _ => exact .none

/-- Definitions with the same constructor construct the same. -/
theorem Matches.constructor?_eq (h : ts.Matches R ts')
    (hR : ∀ c c', R c c' → c'.constructorParams = c.constructorParams) (t : Ty) :
    ts'.constructor? t = ts.constructor? t := by
  have ht := h.resolve? t
  unfold constructor?
  generalize ts.resolve? t = c, ts'.resolve? t = c' at ht ⊢
  cases ht with
  | none => rfl
  | some hc => exact congrArg some (hR _ _ hc)

/-- Definitions with the same supertypes list the same. -/
theorem Matches.isDirectSupertype_eq (h : ts.Matches R ts')
    (hR : ∀ c c', R c c' → ∀ id, id ∈ c'.supertypes ↔ id ∈ c.supertypes) (supertype t : Ty) :
    ts'.isDirectSupertype supertype t = ts.isDirectSupertype supertype t := by
  have ht := h.resolve? t
  unfold isDirectSupertype
  generalize ts.resolve? t = c, ts'.resolve? t = c' at ht ⊢
  cases supertype with
  | cls id =>
      cases ht with
      | none => rfl
      | some hc => exact decide_eq_decide.2 (hR _ _ hc id)
  | _ => rfl

/-- Then the same arguments fit. -/
theorem Matches.isAssignable_eq (h : ts.Matches R ts')
    (hR : ∀ c c', R c c' → ∀ id, id ∈ c'.supertypes ↔ id ∈ c.supertypes) (rule : NullRule)
    (param arg : Ty) : ts'.isAssignable rule param arg = ts.isAssignable rule param arg := by
  rw [isAssignable, isAssignable, h.isDirectSupertype_eq hR]

section Agrees

variable (h : ts.Matches ClassDef.Agrees ts')
include h

theorem method?_of_agrees (t : Ty) (name : Symbol) : ts'.method? t name = ts.method? t name := by
  have ht := h.resolve? t
  unfold method?
  generalize ts.resolve? t = c, ts'.resolve? t = c' at ht ⊢
  cases ht with
  | none => rfl
  | some hc => exact hc.methods name

theorem constructor?_of_agrees (t : Ty) : ts'.constructor? t = ts.constructor? t :=
  h.constructor?_eq (fun _ _ hc => hc.constructorParams) t

theorem isDirectSupertype_of_agrees (supertype t : Ty) :
    ts'.isDirectSupertype supertype t = ts.isDirectSupertype supertype t :=
  h.isDirectSupertype_eq (fun _ _ hc => hc.supertypes) supertype t

theorem isAssignable_of_agrees (rule : NullRule) (param arg : Ty) :
    ts'.isAssignable rule param arg = ts.isAssignable rule param arg :=
  h.isAssignable_eq (fun _ _ hc => hc.supertypes) rule param arg

/-- The method that is suggested may be another one, but it is called the same. -/
theorem text_suggestMethod_of_agrees (t : Ty) (name : Symbol) :
    (ts'.suggestMethod t name).map Symbol.text = (ts.suggestMethod t name).map Symbol.text := by
  have ht := h.resolve? t
  unfold suggestMethod
  generalize ts.resolve? t = c, ts'.resolve? t = c' at ht ⊢
  cases ht with
  | none => rfl
  | some hc => exact Symbol.text_closest_congr hc.mem_methodNames_iff

theorem resolveMethod_of_agrees (t : Ty) (name : Symbol) :
    ts'.resolveMethod t name = ts.resolveMethod t name := by
  simp only [resolveMethod, method?_of_agrees h, text_suggestMethod_of_agrees h]

theorem resolveConstructor_of_agrees (t : Ty) :
    ts'.resolveConstructor t = ts.resolveConstructor t := by
  simp only [resolveConstructor, constructor?_of_agrees h]

end Agrees
end TypeSystem

/-! ## Expressions -/

section Expr

variable {ts ts' : TypeSystem}

/-- Arguments are validated in the same way in two type systems in which each of them is, and in
which they have the same types and fit the same parameters. -/
theorem validateArgs_congr_system (target : CallTarget) (argTypes params : List Ty) (index : Nat)
    {args : List Expr}
    (hassign : ∀ rule param arg, ts'.isAssignable rule param arg = ts.isAssignable rule param arg)
    (htypes : ∀ arg ∈ args, arg.staticType ts' = arg.staticType ts)
    (hargs : ∀ arg ∈ args, arg.validate ts' = arg.validate ts) :
    Expr.validateArgs ts' target argTypes index params args =
      Expr.validateArgs ts target argTypes index params args := by
  induction args generalizing index params with
  | nil => cases params <;> rfl
  | cons arg args ih =>
      rw [List.forall_mem_cons] at htypes hargs
      cases params with
      | nil => rfl
      | cons param params =>
          have hrest := ih params (index + 1) htypes.2 hargs.2
          simp only [Expr.validateArgs, CallTarget.checkArgument, htypes.1, hargs.1, hassign, hrest]

/-- A node is validated in the same steps in two type systems in which it is resolved to the same,
and in which its arguments have the same types, fit the same parameters and are validated in the
same steps. -/
theorem validate_congr_system {e : Expr}
    (hassign : ∀ rule param arg, ts'.isAssignable rule param arg = ts.isAssignable rule param arg)
    (hnew : ∀ t, ts'.resolveConstructor t = ts.resolveConstructor t)
    (hcall : ∀ receiver name args, e = .call receiver name args →
      receiver.staticType ts' = receiver.staticType ts ∧
        ts'.resolveMethod (receiver.staticType ts) name =
          ts.resolveMethod (receiver.staticType ts) name)
    (htypes : ∀ arg ∈ e.args, arg.staticType ts' = arg.staticType ts)
    (hargs : ∀ arg ∈ e.args, arg.validate ts' = arg.validate ts) :
    e.validate ts' = e.validate ts := by
  have hmap : e.args.map (Expr.staticType ts') = e.args.map (Expr.staticType ts) :=
    List.map_congr_left htypes
  -- Once it is resolved, a call depends on its arguments and on which of them fit.
  have hvalidate : ∀ target argTypes index params,
      Expr.validateArgs ts' target argTypes index params e.args =
        Expr.validateArgs ts target argTypes index params e.args := by
    intro target argTypes index params
    exact validateArgs_congr_system target argTypes params index hassign htypes hargs
  cases e with
  | call receiver name args =>
      obtain ⟨htype, hmethod⟩ := hcall receiver name args rfl
      rw [Expr.args_call] at hmap hvalidate
      simp only [Expr.validate, htype, hmethod, hmap, hvalidate]
  | new type args =>
      rw [Expr.args_new] at hmap hvalidate
      simp only [Expr.validate, hnew, hmap, hvalidate]
  | _ => rfl

variable (h : ts.Matches ClassDef.Agrees ts')
include h

theorem staticType_of_agrees (e : Expr) : e.staticType ts' = e.staticType ts := by
  induction e with
  | call receiver name args ih _ =>
      simp only [Expr.staticType, ih, TypeSystem.method?_of_agrees h]
  | _ => rfl

/-- Type systems that agree validate every expression in the same steps. -/
theorem validate_of_agrees (e : Expr) : e.validate ts' = e.validate ts := by
  induction e using Expr.induction_args with
  | node e ih =>
      refine validate_congr_system (TypeSystem.isAssignable_of_agrees h)
        (TypeSystem.resolveConstructor_of_agrees h) ?_ ?_ ih
      · intro receiver name args _
        exact ⟨staticType_of_agrees h receiver, TypeSystem.resolveMethod_of_agrees h _ name⟩
      · exact fun arg _ => staticType_of_agrees h arg

/-- So checking has the same outcome in both. -/
theorem check_of_agrees (e : Expr) : e.check ts' = e.check ts := by
  rw [Expr.check, Expr.check, validate_of_agrees h]

/-- It leaves the same log, too. -/
theorem checkLog_of_agrees (e : Expr) : e.checkLog ts' = e.checkLog ts := by
  rw [Expr.checkLog, Expr.checkLog, validate_of_agrees h]

end Expr
end Nominal
