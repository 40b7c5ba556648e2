import Nominal.Proofs.Typing.FirstError
import Nominal.Proofs.Typing.Weakening

/-!
# What checking leaves in the log

The log of a check is described apart from its result:

* `Expr.fullLog` — the log of an expression that violates no rule. A call is announced, a method
  call is resolved, and then each argument leaves its own log and after it the record of its
  comparison to the parameter. So its announcements are the calls of the expression in pre-order
  (`Expr.calls`);
* `CutLog` — the log of an expression that fails at a node: what stands before the node in the full
  log, and then as much of the node's own records as comes before the violated rule.

What carries the proof is that the walk through arguments that are accepted leaves exactly their
part of the full log and then goes on behind them (`log_validateArgs_of_accepts`).

Main statement: `checkLog_eq_fullLog_and_iff_cutLog`.
-/

namespace Nominal
namespace Expr

/-! ## The log of what violates no rule -/

/-- The record that the check of a call begins with. -/
def announcement : Expr → List LogRecord
  | .call receiver method args => [.checkingMethodCall (.call receiver method args)]
  | .new type args => [.checkingConstructorCall (.new type args)]
  | .var .. | .lit .. | .null => []

/-- The record of what a method call was resolved to; constructions leave none. -/
def resolution (ts : TypeSystem) : Expr → List LogRecord
  | .call receiver method args =>
    [.resolved (receiver.staticType ts) method ((Expr.call receiver method args).staticType ts)]
  | .new .. | .var .. | .lit .. | .null => []

/-- The records of a call before any argument is looked at. -/
def opening (ts : TypeSystem) (e : Expr) : List LogRecord := e.announcement ++ e.resolution ts

/-- What a call invokes, if anything. -/
def target? (ts : TypeSystem) : Expr → Option CallTarget
  | .call receiver method _ =>
    (ts.method? (receiver.staticType ts) method).map (.ofMethod (receiver.staticType ts))
  | .new type _ => (ts.constructor? type).map (.ofConstructor type)
  | .var .. | .lit .. | .null => none

mutual

/-- The log of an expression that violates no rule: all calls in pre-order, with the comparison of
each argument behind everything on the argument itself. -/
def fullLog (ts : TypeSystem) : Expr → List LogRecord
  | .var .. | .lit .. | .null => []
  | .call receiver method args =>
    match target? ts (.call receiver method args) with
    | some target => opening ts (.call receiver method args) ++
        argumentLog ts target.callee 0 target.params args
    | none => announcement (.call receiver method args)
  | .new type args =>
    match target? ts (.new type args) with
    | some target => opening ts (.new type args) ++
        argumentLog ts target.callee 0 target.params args
    | none => announcement (.new type args)

/-- The part of the log on the arguments of a call, the first of which stands at `index`. -/
def argumentLog (ts : TypeSystem) (callee : Callee) (index : Nat) :
    List Ty → List Expr → List LogRecord
  | param :: params, arg :: args =>
    fullLog ts arg ++ .argument index callee (arg.staticType ts) param ::
      argumentLog ts callee (index + 1) params args
  | _, _ => []

end

/-! ### The calls in an expression -/

mutual

/-- The calls in an expression outside of receivers, each one before those in its arguments. -/
def calls : Expr → List Expr
  | .var .. | .lit .. | .null => []
  | .call receiver method args => .call receiver method args :: callsOfAll args
  | .new type args => .new type args :: callsOfAll args

/-- The calls in a list of arguments, from the left to the right. -/
def callsOfAll : List Expr → List Expr
  | [] => []
  | arg :: args => arg.calls ++ callsOfAll args

end

end Expr

/-- The call that a record announces. -/
def LogRecord.announced? : LogRecord → Option Expr
  | .checkingMethodCall call | .checkingConstructorCall call => some call
  | .built .. | .resolved .. | .argument .. | .illTyped .. => none

/-! ## The log of what fails -/

/-- `CutLog ts e path err log`: the expression `e` fails with `err` at the node that `path` leads
to, and `log` is its log up to there. -/
inductive CutLog (ts : TypeSystem) : Expr → List Nat → TypeError → List LogRecord → Prop where
  /-- A call that is not resolved is announced, and that is all. -/
  | unresolved {e : Expr} {err : TypeError} :
      Unresolvable ts e err → CutLog ts e [] err e.announcement
  /-- If the number of arguments is wrong, none of them is on record. -/
  | arity {e : Expr} {target : CallTarget} :
      Invokes ts e target → target.params.length ≠ e.args.length →
      CutLog ts e [] (.arityMismatch target.callee target.params.length e.args.length) (e.opening ts)
  /-- The argument at `i`, which does not fit, is the last one on record. -/
  | argument {e : Expr} {target : CallTarget} {i : Nat} :
      Invokes ts e target → target.params.length = e.args.length →
      (∀ j < i, AcceptsArg ts target.nullRule target.params e.args j) →
      RefusesArg ts target.nullRule target.params e.args i →
      CutLog ts e []
        (.argumentTypeMismatch target.callee (target.params.map Ty.text)
          (e.args.map fun arg => (arg.staticType ts).text))
        (e.opening ts ++ Expr.argumentLog ts target.callee 0 target.params (e.args.take (i + 1)))
  /-- Above the failing node a call is opened, and all arguments to the left of the path are on record
  and compared. The argument that the path leads into is never compared. -/
  | ancestor {e arg : Expr} {target : CallTarget} {i : Nat} {path : List Nat} {err : TypeError}
      {log : List LogRecord} :
      Invokes ts e target → target.params.length = e.args.length →
      (∀ j < i, AcceptsArg ts target.nullRule target.params e.args j) →
      e.args[i]? = some arg → CutLog ts arg path err log →
      CutLog ts e (i :: path) err
        (e.opening ts ++ Expr.argumentLog ts target.callee 0 target.params (e.args.take i) ++ log)

variable {ts : TypeSystem} {e arg : Expr} {args : List Expr} {param : Ty} {params : List Ty}
  {target : CallTarget} {err : TypeError} {log : List LogRecord}

/-! ## Parts of the full log -/

theorem fullLog_of_isLeaf (h : e.IsLeaf) : e.fullLog ts = [] := by
  cases e with
  | var name declared => rfl
  | lit spelling type => rfl
  | null => rfl
  | call receiver method args => exact h.elim
  | new type args => exact h.elim

theorem target?_of_invokes (h : Invokes ts e target) : e.target? ts = some target := by
  cases h with
  | method hr hc hm =>
      simp [Expr.target?, hr, TypeSystem.method?, TypeSystem.resolve?, hc, hm, ofMethod_of_method? hm]
  | constructor hc =>
      simp [Expr.target?, TypeSystem.constructor?, TypeSystem.resolve?, hc, CallTarget.ofConstructor,
        Ty.text]

theorem fullLog_of_invokes (h : Invokes ts e target) :
    e.fullLog ts =
      e.opening ts ++ Expr.argumentLog ts target.callee 0 target.params e.args := by
  have htarget := target?_of_invokes h
  cases e with
  | call receiver name args => simp only [Expr.fullLog, htarget, Expr.args_call]
  | new type args => simp only [Expr.fullLog, htarget, Expr.args_new]
  | _ => cases h

theorem filterMap_announced?_opening (h : Invokes ts e target) :
    (e.opening ts).filterMap LogRecord.announced? = [e] := by
  cases h with
  | method => rfl
  | constructor => rfl

theorem calls_of_isLeaf (h : e.IsLeaf) : e.calls = [] := by
  cases e with
  | var name declared => rfl
  | lit spelling type => rfl
  | null => rfl
  | call receiver method args => exact h.elim
  | new type args => exact h.elim

theorem calls_of_invokes (h : Invokes ts e target) : e.calls = e :: Expr.callsOfAll e.args := by
  cases h with
  | method => rfl
  | constructor => rfl

/-- Comparisons announce nothing, so what the log on arguments announces is in them. -/
theorem filterMap_announced?_argumentLog {callee : Callee} {index : Nat}
    (hlen : params.length = args.length)
    (h : ∀ arg ∈ args, (arg.fullLog ts).filterMap LogRecord.announced? = arg.calls) :
    (Expr.argumentLog ts callee index params args).filterMap LogRecord.announced? =
      Expr.callsOfAll args := by
  induction args generalizing index params with
  | nil => cases params <;> rfl
  | cons arg args ih =>
      cases params with
      | nil => simp at hlen
      | cons param params =>
          obtain ⟨hhead, htail⟩ := List.forall_mem_cons.1 h
          have hrest : params.length = args.length := by simpa using hlen
          simp only [Expr.argumentLog, Expr.callsOfAll, List.filterMap_append, hhead,
            List.filterMap_cons, LogRecord.announced?, ih hrest htail]

/-- The part of the log on a list of arguments falls into that on the arguments in front of position
`i`, that on the argument there, and that on the ones behind it. -/
theorem argumentLog_split {callee : Callee} {index i : Nat} (harg : args[i]? = some arg)
    (hparam : params[i]? = some param) :
    Expr.argumentLog ts callee index params args =
      Expr.argumentLog ts callee index params (args.take i) ++
        (arg.fullLog ts ++ .argument (index + i) callee (arg.staticType ts) param ::
          Expr.argumentLog ts callee (index + i + 1) (params.drop (i + 1)) (args.drop (i + 1))) := by
  induction args generalizing i index params with
  | nil => simp at harg
  | cons head args ih =>
      cases params with
      | nil => simp at hparam
      | cons first params =>
          cases i with
          | zero =>
              obtain rfl : head = arg := by simpa using harg
              obtain rfl : first = param := by simpa using hparam
              simp [Expr.argumentLog]
          | succ i =>
              rw [List.getElem?_cons_succ] at harg hparam
              have hindex : index + 1 + i = index + (i + 1) := by omega
              simp only [Expr.argumentLog, List.take_succ_cons, List.drop_succ_cons,
                ih harg hparam, hindex, List.append_assoc, List.cons_append]

/-- One argument more is one more part. -/
theorem argumentLog_take_succ {callee : Callee} {index i : Nat} (harg : args[i]? = some arg)
    (hparam : params[i]? = some param) :
    Expr.argumentLog ts callee index params (args.take (i + 1)) =
      Expr.argumentLog ts callee index params (args.take i) ++
        (arg.fullLog ts ++ [.argument (index + i) callee (arg.staticType ts) param]) := by
  have htaken : (args.take (i + 1))[i]? = some arg := by
    rw [List.getElem?_take_of_lt (Nat.lt_succ_self i), harg]
  rw [argumentLog_split htaken hparam, List.take_take, Nat.min_eq_left (Nat.le_succ i),
    List.drop_eq_nil_of_le (List.length_take_le (i + 1) args)]
  simp [Expr.argumentLog]

/-! ## What is logged on the way through the arguments -/

section Arguments

variable {argTypes : List Ty} {index : Nat}

/-- An argument that fails is not compared, and nothing behind it is looked at. -/
theorem log_validateArgs_of_error (h : arg.check ts = .error err) :
    (Expr.validateArgs ts target argTypes index (param :: params) (arg :: args)).log =
      arg.checkLog ts := by
  have hresult : (arg.validate ts).result = .error err := h
  simp only [Expr.validateArgs, Validation.log_bind, hresult, List.append_nil, Expr.checkLog]

/-- An argument that passes but does not fit is compared, and nothing behind it is looked at. -/
theorem log_validateArgs_of_not_fits (h : arg.check ts = .ok ())
    (hfits : ¬ Fits ts target.nullRule (arg.staticType ts) param) :
    (Expr.validateArgs ts target argTypes index (param :: params) (arg :: args)).log =
      arg.checkLog ts ++ [.argument index target.callee (arg.staticType ts) param] := by
  have hresult : (arg.validate ts).result = .ok () := h
  have hmisfit : target.checkArgument ts argTypes param (arg.staticType ts) =
      .error (.argumentTypeMismatch target.callee (target.params.map Ty.text)
        (argTypes.map Ty.text)) :=
    checkArgument_eq_error_iff.2 ⟨hfits, rfl⟩
  simp only [Expr.validateArgs, Validation.log_bind, hresult, Validation.log_record,
    Validation.result_record, Validation.log_require, Validation.result_require, hmisfit,
    List.append_nil, Expr.checkLog]

/-- Behind an argument that passes and fits, the walk goes on. -/
theorem log_validateArgs_of_fits (h : arg.check ts = .ok ())
    (hfits : Fits ts target.nullRule (arg.staticType ts) param) :
    (Expr.validateArgs ts target argTypes index (param :: params) (arg :: args)).log =
      arg.checkLog ts ++ .argument index target.callee (arg.staticType ts) param ::
        (Expr.validateArgs ts target argTypes (index + 1) params args).log := by
  have hresult : (arg.validate ts).result = .ok () := h
  have hfit : target.checkArgument ts argTypes param (arg.staticType ts) = .ok () :=
    checkArgument_eq_ok_iff.2 hfits
  simp only [Expr.validateArgs, Validation.log_bind, hresult, Validation.log_record,
    Validation.result_record, Validation.log_require, Validation.result_require, hfit,
    List.nil_append, List.singleton_append, Expr.checkLog]

/-- The walk through accepted arguments leaves their part of the full log, and goes on behind them.
-/
theorem log_validateArgs_of_accepts {i : Nat}
    (hlog : ∀ arg ∈ args, WellTyped ts arg → arg.checkLog ts = arg.fullLog ts)
    (hleft : ∀ j < i, AcceptsArg ts target.nullRule params args j) :
    (Expr.validateArgs ts target argTypes index params args).log =
      Expr.argumentLog ts target.callee index params (args.take i) ++
        (Expr.validateArgs ts target argTypes (index + i) (params.drop i) (args.drop i)).log := by
  induction i generalizing index params args with
  | zero => simp [Expr.argumentLog]
  | succ i ih =>
      obtain ⟨hzero, hleft⟩ := Nat.forall_lt_succ_left.1 hleft
      cases args with
      | nil => simp [AcceptsArg] at hzero
      | cons arg args =>
          cases params with
          | nil => simp [AcceptsArg] at hzero
          | cons param params =>
              -- The head is accepted, and the other positions are those of the rest.
              obtain ⟨hwell, hfits⟩ := acceptsArg_zero_iff.1 hzero
              obtain ⟨hhead, htail⟩ := List.forall_mem_cons.1 hlog
              have hrest : ∀ j < i, AcceptsArg ts target.nullRule params args j := by
                intro j hj
                exact acceptsArg_succ_iff.1 (hleft j hj)
              have hindex : index + 1 + i = index + (i + 1) := by omega
              rw [log_validateArgs_of_fits (check_of_wellTyped hwell) hfits, hhead hwell,
                ih htail hrest, hindex]
              simp only [Expr.argumentLog, List.take_succ_cons, List.drop_succ_cons,
                List.append_assoc, List.cons_append]

end Arguments

/-! ## The log of a check -/

theorem checkLog_of_isLeaf (h : e.IsLeaf) : e.checkLog ts = [] := by
  rw [Expr.checkLog, validate_of_isLeaf h, Validation.log_pure]

/-- A call that is not resolved leaves its announcement. -/
theorem checkLog_of_unresolvable (h : Unresolvable ts e err) : e.checkLog ts = e.announcement := by
  cases e with
  | call receiver name args =>
      simp [Expr.checkLog, Expr.validate, Validation.log_bind, h.resolveMethod, Expr.announcement]
  | new type args =>
      simp [Expr.checkLog, Expr.validate, Validation.log_bind, h.resolveConstructor,
        Expr.announcement]
  | _ => cases h

/-- A call that is resolved leaves the records before its arguments, and then those of the two steps
that are left. -/
theorem checkLog_of_invokes (h : Invokes ts e target) :
    e.checkLog ts = e.opening ts ++ (Validation.require (target.checkArity e.args) >>= fun _ =>
      Expr.validateArgs ts target (e.args.map (Expr.staticType ts)) 0 target.params e.args).log := by
  cases h with
  | @method receiver name args id c m hr hc hm =>
      have hreturns : (Expr.call receiver name args).staticType ts = m.returns :=
        staticType_call hr hc hm
      have hres : ts.resolveMethod (receiver.staticType ts) name = .ok m := by
        rw [hr, resolveMethod_of_method? hc hm]
      -- The target is put as the checker makes it, from the receiver's type and the method found.
      rw [← ofMethod_of_method? hm, ← hr, Expr.opening, Expr.announcement, Expr.resolution, hreturns]
      simp only [Expr.checkLog, Expr.validate, Validation.log_bind, Validation.log_record,
        Validation.result_record, Validation.log_require, Validation.result_require, hres]
      rfl
  | @constructor args id c hc =>
      simp only [Expr.checkLog, Expr.validate, Validation.log_bind, Validation.log_record,
        Validation.result_record, Validation.log_require, Validation.result_require,
        resolveConstructor_of_class? hc]
      rfl

/-- If the number of arguments is wrong, no argument is on record. -/
theorem checkLog_of_invokes_of_ne (h : Invokes ts e target)
    (hlen : target.params.length ≠ e.args.length) : e.checkLog ts = e.opening ts := by
  have harity := checkArity_eq_error_iff.2 ⟨hlen, rfl⟩
  simp only [checkLog_of_invokes h, Validation.log_bind, Validation.log_require,
    Validation.result_require, harity, List.append_nil]

/-- If it is right, the walk through the arguments follows. -/
theorem checkLog_of_invokes_of_eq (h : Invokes ts e target)
    (hlen : target.params.length = e.args.length) :
    e.checkLog ts = e.opening ts ++
      (Expr.validateArgs ts target (e.args.map (Expr.staticType ts)) 0 target.params e.args).log := by
  have harity := checkArity_eq_ok_iff.2 hlen
  simp only [checkLog_of_invokes h, Validation.log_bind, Validation.log_require,
    Validation.result_require, harity, List.nil_append]

/-- The log of what is well typed is its full log. -/
theorem WellTyped.checkLog_eq (h : WellTyped ts e) : e.checkLog ts = e.fullLog ts := by
  induction e using Expr.induction_args with
  | node e ih =>
      rcases h.isLeaf_or_invokes with hleaf | ⟨target, hinv, hargs, hfits⟩
      · rw [checkLog_of_isLeaf hleaf, fullLog_of_isLeaf hleaf]
      · have hlen : target.params.length = e.args.length := by
          simpa using hfits.length_eq.symm
        rw [checkLog_of_invokes_of_eq hinv hlen, fullLog_of_invokes hinv,
          log_validateArgs_of_accepts ih (acceptsArg_of_forall₂ hargs hfits)]
        simp [Expr.validateArgs]

/-- What the full log of a well-typed expression announces are its calls in pre-order. -/
theorem WellTyped.filterMap_announced?_fullLog (h : WellTyped ts e) :
    (e.fullLog ts).filterMap LogRecord.announced? = e.calls := by
  induction e using Expr.induction_args with
  | node e ih =>
      rcases h.isLeaf_or_invokes with hleaf | ⟨target, hinv, hargs, hfits⟩
      · rw [fullLog_of_isLeaf hleaf, calls_of_isLeaf hleaf, List.filterMap_nil]
      · have hlen : target.params.length = e.args.length := by
          simpa using hfits.length_eq.symm
        have hannounced : ∀ arg ∈ e.args,
            (arg.fullLog ts).filterMap LogRecord.announced? = arg.calls := by
          intro arg hmem
          exact ih arg hmem (hargs arg hmem)
        rw [fullLog_of_invokes hinv, List.filterMap_append, filterMap_announced?_opening hinv,
          filterMap_announced?_argumentLog hlen hannounced, calls_of_invokes hinv,
          List.singleton_append]

/-! ## The log of a check that fails -/

/-- A log that is cut is cut where the expression fails. -/
theorem CutLog.failsAt {path : List Nat} (h : CutLog ts e path err log) : FailsAt ts e path err := by
  induction h with
  | unresolved hunres => exact failsAt_nil_iff.2 (.resolution hunres)
  | arity hinv hlen => exact failsAt_nil_iff.2 (.arity hinv hlen)
  | argument hinv hlen hleft hrefuses => exact failsAt_nil_iff.2 (.argument hinv hlen hleft hrefuses)
  | ancestor hinv hlen hleft harg _ ih =>
      exact failsAt_cons_iff.2 ⟨_, _, hinv, hlen, hleft, harg, ih⟩

/-- The walk through the arguments up to position `i` and on from there. -/
theorem checkLog_of_accepts {i : Nat} (hinv : Invokes ts e target)
    (hlen : target.params.length = e.args.length)
    (hleft : ∀ j < i, AcceptsArg ts target.nullRule target.params e.args j) :
    e.checkLog ts =
      e.opening ts ++ Expr.argumentLog ts target.callee 0 target.params (e.args.take i) ++
        (Expr.validateArgs ts target (e.args.map (Expr.staticType ts)) i (target.params.drop i)
          (e.args.drop i)).log := by
  have hlog : ∀ arg ∈ e.args, WellTyped ts arg → arg.checkLog ts = arg.fullLog ts := by
    intro arg _ hwell
    exact hwell.checkLog_eq
  rw [checkLog_of_invokes_of_eq hinv hlen, log_validateArgs_of_accepts hlog hleft, Nat.zero_add,
    List.append_assoc]

/-- From position `i` on, a list begins with the element there. -/
theorem drop_eq_cons_of_getElem? {α : Type} {l : List α} {i : Nat} {a : α} (h : l[i]? = some a) :
    l.drop i = a :: l.drop (i + 1) := by
  obtain ⟨hi, rfl⟩ := List.getElem?_eq_some_iff.1 h
  exact List.drop_eq_getElem_cons hi

/-- As long as there are as many parameters as arguments, each argument has its parameter. -/
theorem exists_param_of_arg {i : Nat} (hlen : params.length = args.length)
    (harg : args[i]? = some arg) : ∃ param, params[i]? = some param := by
  obtain ⟨hi, -⟩ := List.getElem?_eq_some_iff.1 harg
  exact ⟨_, List.getElem?_eq_getElem (hlen ▸ hi)⟩

/-- The log of a check that fails is cut as the failing node says. -/
theorem CutLog.checkLog_eq {path : List Nat} (h : CutLog ts e path err log) :
    e.checkLog ts = log := by
  induction h with
  | unresolved hunres => exact checkLog_of_unresolvable hunres
  | arity hinv hlen => exact checkLog_of_invokes_of_ne hinv hlen
  | argument hinv hlen hleft hrefuses =>
      -- The refused argument passes on its own, so its log is full and its comparison comes last.
      obtain ⟨arg, param, harg, hparam, hwell, hfits⟩ := hrefuses
      rw [checkLog_of_accepts hinv hlen hleft, argumentLog_take_succ harg hparam,
        drop_eq_cons_of_getElem? harg, drop_eq_cons_of_getElem? hparam,
        log_validateArgs_of_not_fits (check_of_wellTyped hwell) hfits, hwell.checkLog_eq,
        Nat.zero_add, List.append_assoc]
  | @ancestor e arg target i path err log hinv hlen hleft harg hcut ih =>
      -- The argument on the path fails, so the walk ends with its log and compares nothing more.
      obtain ⟨param, hparam⟩ := exists_param_of_arg hlen harg
      rw [checkLog_of_accepts hinv hlen hleft, drop_eq_cons_of_getElem? harg,
        drop_eq_cons_of_getElem? hparam, log_validateArgs_of_error hcut.failsAt.check, ih]

/-- Wherever an expression fails, its log can be cut there. -/
theorem FailsAt.exists_cutLog {path : List Nat} (h : FailsAt ts e path err) :
    ∃ log, CutLog ts e path err log := by
  induction path generalizing e with
  | nil =>
      cases failsAt_nil_iff.1 h with
      | resolution hunres => exact ⟨_, .unresolved hunres⟩
      | arity hinv hlen => exact ⟨_, .arity hinv hlen⟩
      | argument hinv hlen hleft hrefuses => exact ⟨_, .argument hinv hlen hleft hrefuses⟩
  | cons i path ih =>
      obtain ⟨target, arg, hinv, hlen, hleft, harg, hpath⟩ := failsAt_cons_iff.1 h
      obtain ⟨log, hcut⟩ := ih hpath
      exact ⟨_, .ancestor hinv hlen hleft harg hcut⟩

theorem announcement_begins_fullLog (ts : TypeSystem) (e : Expr) :
    e.announcement <+: e.fullLog ts := by
  cases e with
  | call receiver name args =>
      simp only [Expr.fullLog]
      split
      · exact (List.prefix_append _ _).trans (List.prefix_append _ _)
      · exact List.prefix_refl _
  | new type args =>
      simp only [Expr.fullLog]
      split
      · exact (List.prefix_append _ _).trans (List.prefix_append _ _)
      · exact List.prefix_refl _
  | _ => exact List.prefix_refl _

/-- What is cut off is an end of the full log. -/
theorem CutLog.begins_fullLog {path : List Nat} (h : CutLog ts e path err log) :
    log <+: e.fullLog ts := by
  induction h with
  | @unresolved e err _ => exact announcement_begins_fullLog ts e
  | arity hinv _ =>
      rw [fullLog_of_invokes hinv]
      exact List.prefix_append _ _
  | argument hinv _ _ hrefuses =>
      obtain ⟨arg, param, harg, hparam, -, -⟩ := hrefuses
      rw [fullLog_of_invokes hinv, argumentLog_split harg hparam, argumentLog_take_succ harg hparam]
      simp only [List.prefix_append_right_inj, List.cons_prefix_cons, List.nil_prefix, and_self]
  | @ancestor e arg target i path err log hinv hlen _ harg _ ih =>
      obtain ⟨param, hparam⟩ := exists_param_of_arg hlen harg
      rw [fullLog_of_invokes hinv, argumentLog_split harg hparam, List.append_assoc,
        List.prefix_append_right_inj, List.prefix_append_right_inj]
      exact ih.trans (List.prefix_append _ _)

/-- The call `b.g(a.f(null))`. The argument of `g` passes one to `f`, which takes none. -/
def crowdedCall : Expr :=
  .call (.var ⟨0, "b"⟩ (.cls ⟨⟨0, "B"⟩⟩)) ⟨0, "g"⟩
    [.call (.var ⟨0, "a"⟩ (.cls ⟨⟨0, "A"⟩⟩)) ⟨0, "f"⟩ [.null]]

example : (crowdedCall.checkLog chainSystem).map LogRecord.line =
    ["DEBUG: checking method call `b.g(a.f(null))`", "DEBUG: resolved B.g to a method returning void",
      "DEBUG: checking method call `a.f(null)`", "DEBUG: resolved A.f to a method returning B"] := by
  decide

end Nominal
