import Nominal.Proofs.Typing.Congruence
import Nominal.Proofs.Typing.Weakening

/-!
# Receiver chains

From a method call the way through the receivers leads along a chain of method calls, down to the
first expression that is none. Checking the outermost call validates nothing on that chain: an inner
call may pass too many arguments, or wrong ones. Still every call on it names a method that the
class of its receiver declares. For a call that names no method has an unknown type, no method is
found on an unknown type, and so the failure would show in every call above, the outermost one
included (`resolved_of_staticType_eq_cls`).

Main statement: `resolved_chain_of_check_eq_ok`.
-/

namespace Nominal
namespace Expr

/-! ## The chain -/

/-- The method calls from an expression down through the receivers, the outermost one first. -/
def receiverChain : Expr → List Expr
  | .call receiver method args => .call receiver method args :: receiver.receiverChain
  | .var .. | .lit .. | .null | .new .. => []

/-- The expression without the arguments of the calls on its receiver chain. -/
def bare : Expr → Expr
  | .call receiver method _ => .call receiver.bare method []
  | .var name declared => .var name declared
  | .lit spelling type => .lit spelling type
  | .null => .null
  | .new type args => .new type args

/-- `Resolved ts e`: `e` calls a method that the class of its receiver declares in `ts`, and its
static type is what that method returns. -/
inductive Resolved (ts : TypeSystem) : Expr → Prop where
  | call {receiver : Expr} {name : Symbol} {args : List Expr} {id : ClassId} {c : ClassDef}
      {m : Method} :
      receiver.staticType ts = .cls id → ts.class? id = some c → c.method? name = some m →
      (Expr.call receiver name args).staticType ts = m.returns →
      Resolved ts (.call receiver name args)

variable {ts : TypeSystem}

/-! ## Static types along the chain -/

/-- An expression of a class type has resolved calls only on its receiver chain. -/
theorem resolved_of_staticType_eq_cls {e : Expr} {id : ClassId} (h : e.staticType ts = .cls id) :
    ∀ call ∈ e.receiverChain, Resolved ts call := by
  induction e generalizing id with
  | call receiver name args ih _ =>
      intro call hcall
      -- The type comes out of a look-up that succeeded on a receiver of a class type again, which
      -- is what the induction along the chain needs.
      obtain ⟨receiverId, c, m, hreceiver, hc, hm, -⟩ := exists_method_of_staticType_call h
      rcases List.mem_cons.1 hcall with rfl | hinner
      · exact .call hreceiver hc hm (staticType_call hreceiver hc hm)
      · exact ih hreceiver call hinner
  | _ =>
      intro call hcall
      exact absurd hcall List.not_mem_nil

/-- The static type of an expression does not depend on the arguments along its receiver chain. -/
theorem staticType_bare (e : Expr) : e.bare.staticType ts = e.staticType ts := by
  induction e with
  | call receiver name args ih _ => exact staticType_call_congr name [] args ih
  | _ => rfl

end Expr

/-- Every call on the receiver chain of a call that passes is resolved: its receiver is of a class
that declares the method, and it has the type that the method returns. Nothing on the chain below
the call is validated: with any other arguments of the inner calls, the call passes as well. -/
theorem resolved_chain_of_check_eq_ok (ts : TypeSystem) (receiver : Expr) (name : Symbol)
    (args : List Expr) (h : (Expr.call receiver name args).check ts = .ok ()) :
    (∀ call ∈ (Expr.call receiver name args).receiverChain, Expr.Resolved ts call) ∧
      ∀ other : Expr, other.bare = receiver.bare →
        (Expr.call other name args).check ts = .ok () := by
  constructor
  · intro call hcall
    cases wellTyped_of_check h with
    | call hreceiver hc hm _ _ =>
        rcases List.mem_cons.1 hcall with rfl | hinner
        · exact .call hreceiver hc hm (staticType_call hreceiver hc hm)
        · exact Expr.resolved_of_staticType_eq_cls hreceiver call hinner
  · intro other hbare
    have htype : other.staticType ts = receiver.staticType ts := by
      rw [← other.staticType_bare, hbare, receiver.staticType_bare]
    rw [Expr.check_call_congr name htype rfl]
    exact h

/-! ### A chain whose inner calls fail -/

/-- The class `Text`, with `trim() -> Text` and `length() -> int`. -/
def textSystem : TypeSystem where
  classes :=
    [(⟨⟨0, "Text"⟩⟩, {
        name := ⟨0, "Text"⟩
        methods := [⟨⟨0, "trim"⟩, [], .cls ⟨⟨0, "Text"⟩⟩⟩, ⟨⟨0, "length"⟩, [], .int⟩] })]

/-- The call `t.trim(args)` on a `Text`. -/
def trimCall (args : List Expr) : Expr :=
  .call (.var ⟨0, "t"⟩ (.cls ⟨⟨0, "Text"⟩⟩)) ⟨0, "trim"⟩ args

/-- In `t.trim(null.size()).trim().length()` the innermost call of the chain fails, and still it is
resolved. -/
theorem resolved_trimCall :
    (trimCall [.call .null ⟨0, "size"⟩ []]).check textSystem ≠ .ok () ∧
      Expr.Resolved textSystem (trimCall [.call .null ⟨0, "size"⟩ []]) ∧
      (Expr.call (.call (trimCall []) ⟨0, "trim"⟩ []) ⟨0, "length"⟩ []).check textSystem =
        .ok () := by
  have hfails : (trimCall [.call .null ⟨0, "size"⟩ []]).check textSystem =
      .error (.arityMismatch (.method "Text" "trim") 0 1) := rfl
  have hcheck : (Expr.call (.call (trimCall [.call .null ⟨0, "size"⟩ []]) ⟨0, "trim"⟩ [])
      ⟨0, "length"⟩ []).check textSystem = .ok () := rfl
  obtain ⟨hchain, hothers⟩ := resolved_chain_of_check_eq_ok textSystem _ _ _ hcheck
  refine ⟨?_, ?_, ?_⟩
  · rw [hfails]
    simp
  · exact hchain _ (by simp [Expr.receiverChain, trimCall])
  · exact hothers _ rfl

end Nominal
