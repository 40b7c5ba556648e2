import Nominal.Proofs.Typing.Rules

/-!
# The checker decides the typing judgment

Checking logs what it does; here only its result counts. A call that can be resolved is checked in
two steps, the number of arguments and then the arguments in order (`CallTarget.checkCall`), and
every other node at once. From these equations:

* `check_eq_ok_iff_wellTyped` — an expression passes exactly if it is well typed.
-/

namespace Nominal

/-! ## Steps that may fail -/

section Except

variable {ε α β : Type} {x : Except ε α} {next : α → Except ε β}

/-- Two steps succeed if the first one does and the second one does on its value. -/
theorem bind_eq_ok_iff {b : β} : (x >>= next) = .ok b ↔ ∃ a, x = .ok a ∧ next a = .ok b := by
  cases x <;> simp [bind, Except.bind]

/-- Two steps fail with the error of the first one, or with that of the second one. -/
theorem bind_eq_error_iff {e : ε} :
    (x >>= next) = .error e ↔ x = .error e ∨ ∃ a, x = .ok a ∧ next a = .error e := by
  cases x <;> simp [bind, Except.bind]

end Except

/-! ## The checker without its log -/

/-- Checks the arguments one after the other, each against its parameter. -/
def Expr.checkArgs (ts : TypeSystem) (target : CallTarget) (argTypes : List Ty) :
    List Ty → List Expr → Except TypeError Unit
  | param :: params, arg :: args => do
    arg.check ts
    target.checkArgument ts argTypes param (arg.staticType ts)
    checkArgs ts target argTypes params args
  | _, _ => pure ()

/-- Checks the arguments of a call that invokes `target`, their number first. -/
def CallTarget.checkCall (ts : TypeSystem) (target : CallTarget) (args : List Expr) :
    Except TypeError Unit := do
  target.checkArity args
  Expr.checkArgs ts target (args.map (Expr.staticType ts)) target.params args

variable {ts : TypeSystem}

/-- The position at which the validation of arguments begins shows in its log only. -/
theorem result_validateArgs (target : CallTarget) (argTypes : List Ty) (index : Nat)
    (params : List Ty) (args : List Expr) :
    (Expr.validateArgs ts target argTypes index params args).result =
      Expr.checkArgs ts target argTypes params args := by
  induction args generalizing index params with
  | nil => cases params <;> simp [Expr.validateArgs, Expr.checkArgs, pure, Except.pure]
  | cons arg args ih =>
      cases params with
      | nil => simp [Expr.validateArgs, Expr.checkArgs, pure, Except.pure]
      | cons param params =>
          simp only [Expr.validateArgs, Expr.checkArgs, Expr.check, Validation.result_bind,
            Validation.result_record, Validation.result_require, ih]
          rfl

/-- Leaves are validated by doing nothing. -/
theorem validate_of_isLeaf {e : Expr} (h : e.IsLeaf) : e.validate ts = pure () := by
  cases e with
  | var name declared => simp only [Expr.validate]
  | lit spelling type => simp only [Expr.validate]
  | null => simp only [Expr.validate]
  | call receiver name args => exact h.elim
  | new type args => exact h.elim

/-- Leaves pass. -/
theorem check_of_isLeaf {e : Expr} (h : e.IsLeaf) : e.check ts = .ok () := by
  rw [Expr.check, validate_of_isLeaf h, Validation.result_pure]

theorem check_call (receiver : Expr) (name : Symbol) (args : List Expr) :
    (Expr.call receiver name args).check ts = (do
      let m ← ts.resolveMethod (receiver.staticType ts) name
      (CallTarget.ofMethod (receiver.staticType ts) m).checkCall ts args) := by
  simp only [Expr.check, Expr.validate, Validation.result_bind, Validation.result_record,
    Validation.result_require, result_validateArgs]
  rfl

theorem check_new (type : Ty) (args : List Expr) :
    (Expr.new type args).check ts = (do
      let params ← ts.resolveConstructor type
      (CallTarget.ofConstructor type params).checkCall ts args) := by
  simp only [Expr.check, Expr.validate, Validation.result_bind, Validation.result_record,
    Validation.result_require, result_validateArgs]
  rfl

/-! ## Resolution -/

theorem TypeSystem.resolve?_eq_some_iff {t : Ty} {c : ClassDef} :
    ts.resolve? t = some c ↔ ∃ id, t = .cls id ∧ ts.class? id = some c := by
  cases t <;> simp [resolve?]

/-- A type has no method of a name if its class has none. A type that is no class has no methods at
all. -/
theorem TypeSystem.method?_eq_none_iff {t : Ty} {name : Symbol} :
    ts.method? t name = none ↔
      ∀ id c, t = .cls id → ts.class? id = some c → c.method? name = none := by
  simp only [method?, Option.bind_eq_none_iff, resolve?_eq_some_iff]
  constructor
  · intro h id c ht hc
    exact h c ⟨id, ht, hc⟩
  · rintro h c ⟨id, ht, hc⟩
    exact h id c ht hc

/-- The callee is named after the method that was found, and that is the name in the call. -/
theorem ofMethod_of_method? {id : ClassId} {c : ClassDef} {name : Symbol} {m : Method}
    (hm : c.method? name = some m) :
    CallTarget.ofMethod (.cls id) m = ⟨.method id.key.text name.text, m.params, .anyParameter⟩ := by
  have hname : m.name = name := by
    simpa using List.find?_some hm
  simp [CallTarget.ofMethod, Ty.text, hname]

theorem resolveMethod_of_method? {id : ClassId} {c : ClassDef} {name : Symbol} {m : Method}
    (hc : ts.class? id = some c) (hm : c.method? name = some m) :
    ts.resolveMethod (.cls id) name = .ok m := by
  simp [TypeSystem.resolveMethod, TypeSystem.method?, TypeSystem.resolve?, Ty.isPrimitive, hc, hm]

theorem resolveConstructor_of_class? {id : ClassId} {c : ClassDef} (hc : ts.class? id = some c) :
    ts.resolveConstructor (.cls id) = .ok c.constructorParams := by
  simp [TypeSystem.resolveConstructor, TypeSystem.constructor?, TypeSystem.resolve?, hc]

theorem Unresolvable.resolveMethod {receiver : Expr} {name : Symbol} {args : List Expr}
    {err : TypeError} (h : Unresolvable ts (.call receiver name args) err) :
    ts.resolveMethod (receiver.staticType ts) name = .error err := by
  cases h with
  | primitiveReceiver hprim =>
      have htrue : (receiver.staticType ts).isPrimitive = true := isPrimitive_iff.2 hprim
      simp [TypeSystem.resolveMethod, htrue]
  | unknownMethod hprim hnone =>
      have hfalse : (receiver.staticType ts).isPrimitive = false := by
        rw [← Bool.not_eq_true, isPrimitive_iff]
        exact hprim
      have hm : ts.method? (receiver.staticType ts) name = none :=
        TypeSystem.method?_eq_none_iff.2 hnone
      simp [TypeSystem.resolveMethod, hfalse, hm]

theorem Unresolvable.resolveConstructor {type : Ty} {args : List Expr} {err : TypeError}
    (h : Unresolvable ts (.new type args) err) : ts.resolveConstructor type = .error err := by
  cases h with
  | noClass hnone =>
      have hres : ts.constructor? type = none := by
        cases type with
        | cls id => simpa [TypeSystem.constructor?, TypeSystem.resolve?] using hnone id rfl
        | _ => rfl
      simp [TypeSystem.resolveConstructor, hres]

/-- A call that is resolved goes on to its arguments. -/
theorem check_of_invokes {e : Expr} {target : CallTarget} (h : Invokes ts e target) :
    e.check ts = target.checkCall ts e.args := by
  cases h with
  | method hr hc hm =>
      rw [check_call, hr, resolveMethod_of_method? hc hm, ← ofMethod_of_method? hm]
      rfl
  | constructor hc =>
      rw [check_new, resolveConstructor_of_class? hc]
      rfl

/-- A call that cannot be resolved fails for that reason. -/
theorem check_of_unresolvable {e : Expr} {err : TypeError} (h : Unresolvable ts e err) :
    e.check ts = .error err := by
  cases e with
  | call receiver name args =>
      rw [check_call, h.resolveMethod]
      rfl
  | new type args =>
      rw [check_new, h.resolveConstructor]
      rfl
  | _ => cases h

/-! ## Arguments -/

theorem checkArity_eq_ok_iff {target : CallTarget} {args : List Expr} :
    target.checkArity args = .ok () ↔ target.params.length = args.length := by
  unfold CallTarget.checkArity
  split <;> simp [*]

theorem checkArgument_eq_ok_iff {target : CallTarget} {argTypes : List Ty} {param arg : Ty} :
    target.checkArgument ts argTypes param arg = .ok () ↔ Fits ts target.nullRule arg param := by
  unfold CallTarget.checkArgument
  rw [← isAssignable_iff_fits]
  split <;> simp [*]

/-- As many arguments as parameters pass if each of them passes and fits its parameter. -/
theorem checkArgs_eq_ok_iff {target : CallTarget} {argTypes params : List Ty} {args : List Expr}
    (hlen : params.length = args.length) :
    Expr.checkArgs ts target argTypes params args = .ok () ↔
      (∀ arg ∈ args, arg.check ts = .ok ()) ∧
        List.Forall₂ (Fits ts target.nullRule) (args.map (Expr.staticType ts)) params := by
  induction args generalizing params with
  | nil =>
      have hnil : params = [] := by simpa using hlen
      subst hnil
      simp [Expr.checkArgs, pure, Except.pure]
  | cons arg args ih =>
      cases params with
      | nil => simp at hlen
      | cons param params =>
          have hrest : params.length = args.length := by simpa using hlen
          simp only [Expr.checkArgs, bind_eq_ok_iff, ih hrest, List.forall_mem_cons,
            List.map_cons, List.forall₂_cons]
          constructor
          · rintro ⟨⟨⟩, harg, ⟨⟩, hfits, hargs, hfitsAll⟩
            exact ⟨⟨harg, hargs⟩, checkArgument_eq_ok_iff.1 hfits, hfitsAll⟩
          · rintro ⟨⟨harg, hargs⟩, hfits, hfitsAll⟩
            exact ⟨(), harg, (), checkArgument_eq_ok_iff.2 hfits, hargs, hfitsAll⟩

/-- A call passes if its arguments do, and fit the parameters one by one. -/
theorem checkCall_eq_ok_iff {target : CallTarget} {args : List Expr} :
    target.checkCall ts args = .ok () ↔
      (∀ arg ∈ args, arg.check ts = .ok ()) ∧
        List.Forall₂ (Fits ts target.nullRule) (args.map (Expr.staticType ts)) target.params := by
  simp only [CallTarget.checkCall, bind_eq_ok_iff]
  constructor
  · rintro ⟨⟨⟩, hlen, hargs⟩
    exact (checkArgs_eq_ok_iff (checkArity_eq_ok_iff.1 hlen)).1 hargs
  · rintro ⟨hargs, hfits⟩
    have hlen : target.params.length = args.length := by
      simpa using hfits.length_eq.symm
    exact ⟨(), checkArity_eq_ok_iff.2 hlen, (checkArgs_eq_ok_iff hlen).2 ⟨hargs, hfits⟩⟩

/-! ## Soundness and completeness -/

/-- What passes is well typed. -/
theorem wellTyped_of_check {e : Expr} (h : e.check ts = .ok ()) : WellTyped ts e := by
  induction e using Expr.induction_args with
  | node e ih =>
      rcases node_cases ts e with hleaf | ⟨err, hunres⟩ | ⟨target, hinv⟩
      · exact .of_isLeaf hleaf
      · rw [check_of_unresolvable hunres] at h
        cases h
      · rw [check_of_invokes hinv] at h
        rcases checkCall_eq_ok_iff.1 h with ⟨hargs, hfits⟩
        refine .of_invokes hinv ?_ hfits
        intro arg hmem
        exact ih arg hmem (hargs arg hmem)

/-- What is well typed passes. -/
theorem check_of_wellTyped {e : Expr} (h : WellTyped ts e) : e.check ts = .ok () := by
  induction h with
  | var name declared => exact check_of_isLeaf trivial
  | lit spelling type => exact check_of_isLeaf trivial
  | null => exact check_of_isLeaf trivial
  | call hr hc hm _ hfits ih =>
      rw [check_of_invokes (.method hr hc hm)]
      exact checkCall_eq_ok_iff.2 ⟨ih, hfits⟩
  | new hc _ hfits ih =>
      rw [check_of_invokes (.constructor hc)]
      exact checkCall_eq_ok_iff.2 ⟨ih, hfits⟩

/-- The checker accepts exactly the well-typed expressions. -/
theorem check_eq_ok_iff_wellTyped (ts : TypeSystem) (e : Expr) :
    e.check ts = .ok () ↔ WellTyped ts e :=
  ⟨wellTyped_of_check, check_of_wellTyped⟩

end Nominal
