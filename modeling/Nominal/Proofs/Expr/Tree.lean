import Nominal.Expr.Basic

/-!
# The tree of an expression

The arguments of a call stand in a list, so induction over an expression needs a hypothesis for
every member of it (`Expr.induction`). What does not look into receivers needs the hypotheses on
arguments only (`Expr.induction_args`), and there a node is addressed by the positions of the
arguments that lead to it from the root (`Expr.nodeAt`).
-/

namespace Nominal
namespace Expr

/-! ## Induction -/

/-- Induction over expressions, with a hypothesis for the receiver and for every argument. -/
@[elab_as_elim, induction_eliminator]
theorem induction {motive : Expr → Prop}
    (var : ∀ name declared, motive (.var name declared))
    (lit : ∀ spelling type, motive (.lit spelling type))
    (null : motive .null)
    (call : ∀ receiver method args, motive receiver → (∀ arg ∈ args, motive arg) →
      motive (.call receiver method args))
    (new : ∀ type args, (∀ arg ∈ args, motive arg) → motive (.new type args)) :
    ∀ e, motive e
  | .var name declared => var name declared
  | .lit spelling type => lit spelling type
  | .null => null
  | .call receiver method args =>
    call receiver method args (induction var lit null call new receiver)
      fun arg _ => induction var lit null call new arg
  | .new type args => new type args fun arg _ => induction var lit null call new arg

/-! ## Arguments -/

/-- The arguments of a call; leaves have none. -/
def args : Expr → List Expr
  | .call _ _ args | .new _ args => args
  | .var .. | .lit .. | .null => []

@[simp] theorem args_call (receiver : Expr) (method : Symbol) (args : List Expr) :
    (Expr.call receiver method args).args = args := rfl

@[simp] theorem args_new (type : Ty) (args : List Expr) : (Expr.new type args).args = args := rfl

/-- Induction along argument edges alone, for what does not look into receivers. -/
@[elab_as_elim]
theorem induction_args {motive : Expr → Prop}
    (node : ∀ e, (∀ arg ∈ e.args, motive arg) → motive e) (e : Expr) : motive e := by
  induction e with
  | var name declared => exact node _ (fun _ h => nomatch h)
  | lit spelling type => exact node _ (fun _ h => nomatch h)
  | null => exact node _ (fun _ h => nomatch h)
  | call receiver method args _ ih => exact node _ ih
  | new type args ih => exact node _ ih

/-- The node that is reached from `e` by going to an argument at every step of `path`. -/
def nodeAt (e : Expr) : List Nat → Option Expr
  | [] => some e
  | i :: path => e.args[i]?.bind fun arg => arg.nodeAt path

/-- The first step of a path leads to an argument of the root. -/
theorem nodeAt_cons {e arg : Expr} {i : Nat} (h : e.args[i]? = some arg) (path : List Nat) :
    e.nodeAt (i :: path) = arg.nodeAt path := by
  simp only [nodeAt, h, Option.bind_some]

/-- A path that does not end at once begins at an argument of the root. -/
theorem exists_arg_of_nodeAt_cons {e node : Expr} {i : Nat} {path : List Nat}
    (h : e.nodeAt (i :: path) = some node) :
    ∃ arg, e.args[i]? = some arg ∧ arg.nodeAt path = some node := by
  simpa only [nodeAt, Option.bind_eq_some_iff] using h

end Expr
end Nominal
