import Mathlib.Logic.ExistsUnique
import Nominal.Proofs.Typing.Checker

/-!
# The error that is reported

An expression can be wrong in many places at once. Which of them is reported is settled by two
definitions that do not mention the order in which the checker works:

* `Violates` — the first rule that a call violates itself: its resolution, then the number of its
  arguments, then the leftmost argument that does not fit, as long as all arguments up to it are
  well typed;
* `FailsAt` — a node that violates a rule, below calls that are resolved, have the right number of
  arguments, and accept everything to the left of the path to the node.

Main statement: `check_eq_error_iff_existsUnique_failsAt`. Faults inside a receiver are on no path,
so they are never reported, and those to the right of a fault never win.
-/

namespace Nominal

/-! ## Where an expression fails -/

/-- The argument at position `i` is well typed and fits the parameter there. -/
def AcceptsArg (ts : TypeSystem) (rule : NullRule) (params : List Ty) (args : List Expr)
    (i : Nat) : Prop :=
  ∃ arg param, args[i]? = some arg ∧ params[i]? = some param ∧ WellTyped ts arg ∧
    Fits ts rule (arg.staticType ts) param

/-- The argument at position `i` is well typed but does not fit the parameter there. -/
def RefusesArg (ts : TypeSystem) (rule : NullRule) (params : List Ty) (args : List Expr)
    (i : Nat) : Prop :=
  ∃ arg param, args[i]? = some arg ∧ params[i]? = some param ∧ WellTyped ts arg ∧
    ¬ Fits ts rule (arg.staticType ts) param

/-- `Violates ts e err`: the call `e` itself violates a rule, and `err` is the first one. -/
inductive Violates (ts : TypeSystem) : Expr → TypeError → Prop where
  | resolution {e : Expr} {err : TypeError} : Unresolvable ts e err → Violates ts e err
  /-- The numbers differ, whatever the arguments are. -/
  | arity {e : Expr} {target : CallTarget} :
      Invokes ts e target → target.params.length ≠ e.args.length →
      Violates ts e (.arityMismatch target.callee target.params.length e.args.length)
  /-- The argument at `i` is the leftmost one that is not accepted. -/
  | argument {e : Expr} {target : CallTarget} {i : Nat} :
      Invokes ts e target → target.params.length = e.args.length →
      (∀ j < i, AcceptsArg ts target.nullRule target.params e.args j) →
      RefusesArg ts target.nullRule target.params e.args i →
      Violates ts e (.argumentTypeMismatch target.callee (target.params.map Ty.text)
        (e.args.map fun arg => (arg.staticType ts).text))

/-- `FailsAt ts e path err`: in the expression `e` the node at `path` violates a rule first, as
`err` says, and no call above it violates one before the path to the node is reached. -/
structure FailsAt (ts : TypeSystem) (e : Expr) (path : List Nat) (err : TypeError) : Prop where
  above : ∀ upper i lower, path = upper ++ i :: lower →
    ∃ call target, e.nodeAt upper = some call ∧ Invokes ts call target ∧
      target.params.length = call.args.length ∧
      ∀ j < i, AcceptsArg ts target.nullRule target.params call.args j
  here : ∃ call, e.nodeAt path = some call ∧ Violates ts call err

variable {ts : TypeSystem} {e : Expr} {err : TypeError}

theorem failsAt_nil_iff : FailsAt ts e [] err ↔ Violates ts e err := by
  constructor
  · rintro ⟨-, call, hcall, hviol⟩
    have hroot : e = call := Option.some.inj hcall
    rw [hroot]
    exact hviol
  · intro hviol
    refine ⟨?_, e, rfl, hviol⟩
    intro upper i lower hpath
    simp at hpath

/-- Below the root, an expression fails where one of its arguments does, provided that the root
gets as far as that argument. -/
theorem failsAt_cons_iff {i : Nat} {path : List Nat} :
    FailsAt ts e (i :: path) err ↔
      ∃ target arg, Invokes ts e target ∧ target.params.length = e.args.length ∧
        (∀ j < i, AcceptsArg ts target.nullRule target.params e.args j) ∧
        e.args[i]? = some arg ∧ FailsAt ts arg path err := by
  constructor
  · rintro ⟨habove, call, hcall, hviol⟩
    rcases habove [] i path rfl with ⟨root, target, hroot, hinv, hlen, hleft⟩
    have hself : e = root := Option.some.inj hroot
    subst hself
    rcases Expr.exists_arg_of_nodeAt_cons hcall with ⟨arg, harg, hnode⟩
    refine ⟨target, arg, hinv, hlen, hleft, harg, ?_, call, hnode, hviol⟩
    intro upper j lower hpath
    have hcons := habove (i :: upper) j lower (by rw [hpath, List.cons_append])
    rwa [Expr.nodeAt_cons harg] at hcons
  · rintro ⟨target, arg, hinv, hlen, hleft, harg, habove, call, hnode, hviol⟩
    refine ⟨?_, call, by rwa [Expr.nodeAt_cons harg], hviol⟩
    intro upper j lower hpath
    cases upper with
    | nil =>
        obtain ⟨rfl, -⟩ : i = j ∧ path = lower := by simpa using hpath
        exact ⟨e, target, rfl, hinv, hlen, hleft⟩
    | cons k upper =>
        obtain ⟨rfl, hrest⟩ : i = k ∧ path = upper ++ j :: lower := by simpa using hpath
        rw [Expr.nodeAt_cons harg]
        exact habove upper j lower hrest

/-! ## The error of a call -/

section Arguments

variable {rule : NullRule} {param : Ty} {params : List Ty} {arg : Expr} {args : List Expr} {i : Nat}

theorem acceptsArg_zero_iff :
    AcceptsArg ts rule (param :: params) (arg :: args) 0 ↔
      WellTyped ts arg ∧ Fits ts rule (arg.staticType ts) param := by
  simp [AcceptsArg]

theorem acceptsArg_succ_iff :
    AcceptsArg ts rule (param :: params) (arg :: args) (i + 1) ↔
      AcceptsArg ts rule params args i := by
  simp [AcceptsArg]

theorem refusesArg_zero_iff :
    RefusesArg ts rule (param :: params) (arg :: args) 0 ↔
      WellTyped ts arg ∧ ¬ Fits ts rule (arg.staticType ts) param := by
  simp [RefusesArg]

theorem refusesArg_succ_iff :
    RefusesArg ts rule (param :: params) (arg :: args) (i + 1) ↔
      RefusesArg ts rule params args i := by
  simp [RefusesArg]

/-- All arguments are accepted if all of them are well typed and fit. -/
theorem acceptsArg_of_forall₂ (hargs : ∀ arg ∈ args, WellTyped ts arg)
    (hfits : List.Forall₂ (Fits ts rule) (args.map (Expr.staticType ts)) params) :
    ∀ j < args.length, AcceptsArg ts rule params args j := by
  induction args generalizing params with
  | nil => simp
  | cons arg args ih =>
      obtain ⟨hwell, hargs⟩ := List.forall_mem_cons.1 hargs
      cases hfits with
      | cons hfit hfits =>
          rw [List.length_cons, Nat.forall_lt_succ_left]
          refine ⟨acceptsArg_zero_iff.2 ⟨hwell, hfit⟩, ?_⟩
          intro j hj
          exact acceptsArg_succ_iff.2 (ih hargs hfits j hj)

end Arguments

/-- The leftmost position with `Q` behind positions with `P` is the first one, or the same holds
from the second one on. -/
theorem exists_leftmost_iff {P Q : Nat → Prop} :
    (∃ i, (∀ j < i, P j) ∧ Q i) ↔ Q 0 ∨ P 0 ∧ ∃ i, (∀ j < i, P (j + 1)) ∧ Q (i + 1) := by
  constructor
  · rintro ⟨i, hleft, hi⟩
    cases i with
    | zero => exact .inl hi
    | succ i =>
        rcases Nat.forall_lt_succ_left.1 hleft with ⟨hzero, hleft⟩
        exact .inr ⟨hzero, i, hleft, hi⟩
  · rintro (hzero | ⟨hzero, i, hleft, hi⟩)
    · exact ⟨0, by simp, hzero⟩
    · exact ⟨i + 1, Nat.forall_lt_succ_left.2 ⟨hzero, hleft⟩, hi⟩

theorem checkArity_eq_error_iff {target : CallTarget} {args : List Expr} :
    target.checkArity args = .error err ↔
      target.params.length ≠ args.length ∧
        err = .arityMismatch target.callee target.params.length args.length := by
  unfold CallTarget.checkArity
  split
  · simp [*]
  · rename_i hlen
    rw [Except.error.injEq, eq_comm]
    simp [hlen]

theorem checkArgument_eq_error_iff {target : CallTarget} {argTypes : List Ty} {param arg : Ty} :
    target.checkArgument ts argTypes param arg = .error err ↔
      ¬ Fits ts target.nullRule arg param ∧
        err = .argumentTypeMismatch target.callee (target.params.map Ty.text)
          (argTypes.map Ty.text) := by
  unfold CallTarget.checkArgument
  rw [← isAssignable_iff_fits]
  split <;> simp [*, eq_comm]

/-- The arguments fail at the leftmost one that is not accepted: with its own error, or because it
does not fit. -/
theorem checkArgs_eq_error_iff {target : CallTarget} {argTypes params : List Ty}
    {args : List Expr} (hlen : params.length = args.length) :
    Expr.checkArgs ts target argTypes params args = .error err ↔
      ∃ i, (∀ j < i, AcceptsArg ts target.nullRule params args j) ∧
        ((∃ arg, args[i]? = some arg ∧ arg.check ts = .error err) ∨
          RefusesArg ts target.nullRule params args i ∧
            err = .argumentTypeMismatch target.callee (target.params.map Ty.text)
              (argTypes.map Ty.text)) := by
  induction args generalizing params with
  | nil => simp [Expr.checkArgs, RefusesArg, pure, Except.pure]
  | cons arg args ih =>
      cases params with
      | nil => simp at hlen
      | cons param params =>
          have hrest : params.length = args.length := by simpa using hlen
          -- Position 0 is the head; the positions behind it are those of the rest.
          rw [exists_leftmost_iff]
          simp only [acceptsArg_zero_iff, acceptsArg_succ_iff, refusesArg_zero_iff,
            refusesArg_succ_iff, List.getElem?_cons_zero, List.getElem?_cons_succ,
            Option.some.injEq, exists_eq_left', ← ih hrest, Expr.checkArgs, bind_eq_error_iff]
          constructor
          · rintro (herr | ⟨⟨⟩, harg, hmis | ⟨⟨⟩, hfit, hlater⟩⟩)
            · exact .inl (.inl herr)
            · rcases checkArgument_eq_error_iff.1 hmis with ⟨hfit, hmis⟩
              exact .inl (.inr ⟨⟨wellTyped_of_check harg, hfit⟩, hmis⟩)
            · exact .inr ⟨⟨wellTyped_of_check harg, checkArgument_eq_ok_iff.1 hfit⟩, hlater⟩
          · rintro ((herr | ⟨⟨harg, hfit⟩, hmis⟩) | ⟨⟨harg, hfit⟩, hlater⟩)
            · exact .inl herr
            · exact .inr ⟨(), check_of_wellTyped harg,
                .inl (checkArgument_eq_error_iff.2 ⟨hfit, hmis⟩)⟩
            · exact .inr ⟨(), check_of_wellTyped harg,
                .inr ⟨(), checkArgument_eq_ok_iff.2 hfit, hlater⟩⟩

/-- A call that invokes something fails by the number of its arguments or, if that is right, at the
leftmost argument that is not accepted. -/
theorem check_eq_error_iff_of_invokes {target : CallTarget} (hinv : Invokes ts e target) :
    e.check ts = .error err ↔
      Violates ts e err ∨
        target.params.length = e.args.length ∧
          ∃ i arg, (∀ j < i, AcceptsArg ts target.nullRule target.params e.args j) ∧
            e.args[i]? = some arg ∧ arg.check ts = .error err := by
  rw [check_of_invokes hinv, CallTarget.checkCall, bind_eq_error_iff, checkArity_eq_error_iff]
  constructor
  · rintro (⟨hlen, rfl⟩ | ⟨⟨⟩, hlen, hargs⟩)
    · exact .inl (.arity hinv hlen)
    · have hlen := checkArity_eq_ok_iff.1 hlen
      rcases (checkArgs_eq_error_iff hlen).1 hargs with
        ⟨i, hleft, ⟨arg, harg, herr⟩ | ⟨hrefuses, hmis⟩⟩
      · exact .inr ⟨hlen, i, arg, hleft, harg, herr⟩
      · rw [List.map_map] at hmis
        rw [hmis]
        exact .inl (.argument hinv hlen hleft hrefuses)
  · rintro (hviol | ⟨hlen, i, arg, hleft, harg, herr⟩)
    · cases hviol with
      | resolution hunres => exact (hunres.not_invokes hinv).elim
      | arity hinv' hlen =>
          rw [hinv.unique hinv'] at *
          exact .inl ⟨hlen, rfl⟩
      | argument hinv' hlen hleft hrefuses =>
          rcases hinv.unique hinv' with rfl
          refine .inr ⟨(), checkArity_eq_ok_iff.2 hlen, (checkArgs_eq_error_iff hlen).2 ?_⟩
          exact ⟨_, hleft, .inr ⟨hrefuses, by rw [List.map_map]; rfl⟩⟩
    · refine .inr ⟨(), checkArity_eq_ok_iff.2 hlen, (checkArgs_eq_error_iff hlen).2 ?_⟩
      exact ⟨i, hleft, .inl ⟨arg, harg, herr⟩⟩

/-- A call that is resolved can only fail by its arguments. -/
theorem Violates.kind_of_invokes {target : CallTarget} (h : Violates ts e err)
    (hinv : Invokes ts e target) : err.kind = .arityMismatch ∨ err.kind = .argumentTypeMismatch := by
  cases h with
  | resolution hunres => exact (hunres.not_invokes hinv).elim
  | arity _ _ => exact .inl rfl
  | argument _ _ _ _ => exact .inr rfl

/-! ## The error of an expression -/

/-- What is reported is the first violation of some node. -/
theorem exists_failsAt_of_check (h : e.check ts = .error err) : ∃ path, FailsAt ts e path err := by
  induction e using Expr.induction_args with
  | node e ih =>
      rcases node_cases ts e with hleaf | ⟨err', hunres⟩ | ⟨target, hinv⟩
      · rw [check_of_isLeaf hleaf] at h
        cases h
      · rw [check_of_unresolvable hunres] at h
        rcases Except.error.inj h with rfl
        exact ⟨[], failsAt_nil_iff.2 (.resolution hunres)⟩
      · rcases (check_eq_error_iff_of_invokes hinv).1 h with
          hviol | ⟨hlen, i, arg, hleft, harg, herr⟩
        · exact ⟨[], failsAt_nil_iff.2 hviol⟩
        · rcases ih arg (List.mem_of_getElem? harg) herr with ⟨path, hpath⟩
          exact ⟨i :: path, failsAt_cons_iff.2 ⟨target, arg, hinv, hlen, hleft, harg, hpath⟩⟩

/-- A violation that no other one precedes is reported. -/
theorem FailsAt.check {path : List Nat} (h : FailsAt ts e path err) : e.check ts = .error err := by
  induction path generalizing e with
  | nil =>
      have hviol := failsAt_nil_iff.1 h
      cases hviol with
      | resolution hunres => exact check_of_unresolvable hunres
      | arity hinv hlen => exact (check_eq_error_iff_of_invokes hinv).2 (.inl (.arity hinv hlen))
      | argument hinv hlen hleft hrefuses =>
          exact (check_eq_error_iff_of_invokes hinv).2 (.inl (.argument hinv hlen hleft hrefuses))
  | cons i path ih =>
      rcases failsAt_cons_iff.1 h with ⟨target, arg, hinv, hlen, hleft, harg, hpath⟩
      exact (check_eq_error_iff_of_invokes hinv).2 (.inr ⟨hlen, i, arg, hleft, harg, ih hpath⟩)

/-- An accepted argument has no failing node. -/
theorem AcceptsArg.not_failsAt {rule : NullRule} {params : List Ty} {args : List Expr} {i : Nat}
    {arg : Expr} {path : List Nat} (h : AcceptsArg ts rule params args i)
    (harg : args[i]? = some arg) : ¬ FailsAt ts arg path err := by
  intro hfails
  rcases h with ⟨arg', _, harg', _, hwell, _⟩
  rcases Option.some.inj (harg.symm.trans harg') with rfl
  have herr := hfails.check
  rw [check_of_wellTyped hwell] at herr
  cases herr

/-- A call that violates a rule itself is not also the ancestor of a failing node: the path would
have to pass the violation. -/
theorem Violates.not_failsAt_cons {err' : TypeError} {i : Nat} {path : List Nat}
    (h : Violates ts e err) : ¬ FailsAt ts e (i :: path) err' := by
  intro hfails
  rcases failsAt_cons_iff.1 hfails with ⟨target, arg, hinv, hlen, hleft, harg, hpath⟩
  cases h with
  | resolution hunres => exact hunres.not_invokes hinv
  | arity hinv' hne =>
      rcases hinv.unique hinv' with rfl
      exact hne hlen
  | @argument _ k hinv' _ haccepts hrefuses =>
      rcases hinv.unique hinv' with rfl
      rcases hrefuses with ⟨arg', param, harg', hparam, hwell, hfit⟩
      -- The path leads to the left of the refused argument, into it, or past it.
      rcases Nat.lt_trichotomy i k with hlt | rfl | hgt
      · exact (haccepts i hlt).not_failsAt harg hpath
      · rcases Option.some.inj (harg.symm.trans harg') with rfl
        have herr := hpath.check
        rw [check_of_wellTyped hwell] at herr
        cases herr
      · rcases hleft k hgt with ⟨arg'', param'', harg'', hparam'', _, hfit''⟩
        rcases Option.some.inj (harg'.symm.trans harg'') with rfl
        rcases Option.some.inj (hparam.symm.trans hparam'') with rfl
        exact hfit hfit''

/-- At most one node fails. -/
theorem FailsAt.path_unique {path path' : List Nat} {err' : TypeError} (h : FailsAt ts e path err)
    (h' : FailsAt ts e path' err') : path = path' := by
  induction path generalizing e path' with
  | nil =>
      cases path' with
      | nil => rfl
      | cons i path' => exact ((failsAt_nil_iff.1 h).not_failsAt_cons h').elim
  | cons i path ih =>
      cases path' with
      | nil => exact ((failsAt_nil_iff.1 h').not_failsAt_cons h).elim
      | cons i' path' =>
          rcases failsAt_cons_iff.1 h with ⟨target, arg, hinv, _, hleft, harg, hpath⟩
          rcases failsAt_cons_iff.1 h' with ⟨target', arg', hinv', _, hleft', harg', hpath'⟩
          rcases hinv.unique hinv' with rfl
          -- Where two paths part, the right one needs the argument on the left one to be accepted.
          rcases Nat.lt_trichotomy i i' with hlt | rfl | hgt
          · exact ((hleft' i hlt).not_failsAt harg hpath).elim
          · rcases Option.some.inj (harg.symm.trans harg') with rfl
            rw [ih hpath hpath']
          · exact ((hleft i' hgt).not_failsAt harg' hpath').elim

/-- An expression fails with an error exactly if one of its nodes, and only one, violates a rule
first with that error, below calls that accept everything on the left of the way to it. -/
theorem check_eq_error_iff_existsUnique_failsAt (ts : TypeSystem) (e : Expr) (err : TypeError) :
    e.check ts = .error err ↔ ∃! path, FailsAt ts e path err := by
  constructor
  · intro h
    rcases exists_failsAt_of_check h with ⟨path, hpath⟩
    refine ⟨path, hpath, ?_⟩
    intro path' hpath'
    exact hpath'.path_unique hpath
  · rintro ⟨path, hpath, -⟩
    exact hpath.check

end Nominal
