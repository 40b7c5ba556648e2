import Nominal.Proofs.Typing.Checker

/-!
# What a call can see of its parts

A call sees nothing of its receiver but the static type, and nothing of an argument but the static
type and the outcome of checking it. So expressions that agree in these may stand for each other
wherever they occur. The place is a `Context`, an expression with one hole. As soon as the way to
the hole leads into a receiver, the static type alone counts, however the way goes on from there.

Main statement: `staticType_fill_eq_and_check_fill_eq`.
-/

namespace Nominal
namespace Expr

/-! ## Contexts -/

/-- An expression with a hole in the place of one of its subexpressions. -/
inductive Context where
  | hole
  /-- The hole is in the receiver of a call. -/
  | inReceiver (inside : Context) (method : Symbol) (args : List Expr)
  /-- The hole is in an argument of a method call, between other arguments. -/
  | inCallArg (receiver : Expr) (method : Symbol) (before : List Expr) (inside : Context)
      (after : List Expr)
  /-- The hole is in an argument of a construction, between other arguments. -/
  | inNewArg (type : Ty) (before : List Expr) (inside : Context) (after : List Expr)

namespace Context

/-- Puts an expression into the hole. -/
def fill (e : Expr) : Context → Expr
  | .hole => e
  | .inReceiver inside method args => .call (inside.fill e) method args
  | .inCallArg receiver method before inside after =>
    .call receiver method (before ++ inside.fill e :: after)
  | .inNewArg type before inside after => .new type (before ++ inside.fill e :: after)

/-- Whether the way from the root to the hole leads into a receiver somewhere. -/
def CrossesReceiver : Context → Prop
  | .hole => False
  | .inReceiver _ _ _ => True
  | .inCallArg _ _ _ inside _ | .inNewArg _ _ inside _ => inside.CrossesReceiver

end Context

variable {ts : TypeSystem} {e₁ e₂ : Expr} {args args' : List Expr}

/-! ## Calls whose parts look the same -/

/-- What a call can see of an argument: its static type, and what becomes of checking it. -/
def seen (ts : TypeSystem) (arg : Expr) : Ty × Except TypeError Unit :=
  (arg.staticType ts, arg.check ts)

theorem checkArgs_congr (target : CallTarget) (argTypes params : List Ty)
    (h : args.map (seen ts) = args'.map (seen ts)) :
    checkArgs ts target argTypes params args = checkArgs ts target argTypes params args' := by
  induction args generalizing args' params with
  | nil =>
      have hnil : args' = [] := List.map_eq_nil_iff.1 h.symm
      rw [hnil]
  | cons arg args ih =>
      cases args' with
      | nil => simp at h
      | cons arg' args' =>
          obtain ⟨hhead, htail⟩ := List.cons.inj h
          obtain ⟨htype, hcheck⟩ := Prod.mk.inj hhead
          cases params with
          | nil => rfl
          | cons param params => simp only [checkArgs, htype, hcheck, ih params htail]

/-- A call treats two lists of arguments in the same way if they look the same. -/
theorem checkCall_congr (target : CallTarget) (h : args.map (seen ts) = args'.map (seen ts)) :
    target.checkCall ts args = target.checkCall ts args' := by
  have hlength : args.length = args'.length := by
    simpa only [List.length_map] using congrArg List.length h
  have htypes : args.map (staticType ts) = args'.map (staticType ts) := by
    have hfst := congrArg (List.map Prod.fst) h
    rw [List.map_map, List.map_map] at hfst
    exact hfst
  simp only [CallTarget.checkCall, CallTarget.checkArity, hlength, htypes,
    checkArgs_congr target _ _ h]

theorem staticType_call_congr (method : Symbol) (args args' : List Expr)
    (h : e₁.staticType ts = e₂.staticType ts) :
    (Expr.call e₁ method args).staticType ts = (Expr.call e₂ method args').staticType ts := by
  simp only [staticType, h]

theorem check_call_congr (method : Symbol) (hreceiver : e₁.staticType ts = e₂.staticType ts)
    (hargs : args.map (seen ts) = args'.map (seen ts)) :
    (Expr.call e₁ method args).check ts = (Expr.call e₂ method args').check ts := by
  simp only [check_call, hreceiver, checkCall_congr _ hargs]

theorem check_new_congr (type : Ty) (hargs : args.map (seen ts) = args'.map (seen ts)) :
    (Expr.new type args).check ts = (Expr.new type args').check ts := by
  simp only [check_new, checkCall_congr _ hargs]

/-- Putting another argument of the same looks among the others changes nothing in their looks. -/
theorem map_seen_congr (before after : List Expr) (htype : e₁.staticType ts = e₂.staticType ts)
    (hcheck : e₁.check ts = e₂.check ts) :
    (before ++ e₁ :: after).map (seen ts) = (before ++ e₂ :: after).map (seen ts) := by
  simp only [List.map_append, List.map_cons, seen, htype, hcheck]

/-! ## Filling the hole -/

namespace Context

theorem staticType_fill_congr (context : Context) (h : e₁.staticType ts = e₂.staticType ts) :
    (context.fill e₁).staticType ts = (context.fill e₂).staticType ts := by
  induction context with
  | hole => exact h
  | inReceiver inside method args ih => exact staticType_call_congr method args args ih
  | inCallArg receiver method before inside after _ => exact staticType_call_congr method _ _ rfl
  | inNewArg type before inside after _ => rfl

/-- Behind a receiver edge the static type is all that counts, so the outcome of the check is needed
only as long as the way to the hole goes from argument to argument. -/
theorem check_fill_congr (context : Context) (htype : e₁.staticType ts = e₂.staticType ts)
    (hcheck : context.CrossesReceiver ∨ e₁.check ts = e₂.check ts) :
    (context.fill e₁).check ts = (context.fill e₂).check ts := by
  induction context with
  | hole =>
      rcases hcheck with hcross | hcheck
      · exact hcross.elim
      · exact hcheck
  -- The part inside a receiver is never checked, so nothing is needed of the induction here.
  | inReceiver inside method args _ =>
      exact check_call_congr method (inside.staticType_fill_congr htype) rfl
  | inCallArg receiver method before inside after ih =>
      have hinside := map_seen_congr before after (inside.staticType_fill_congr htype) (ih hcheck)
      exact check_call_congr method rfl hinside
  | inNewArg type before inside after ih =>
      have hinside := map_seen_congr before after (inside.staticType_fill_congr htype) (ih hcheck)
      exact check_new_congr type hinside

end Context

/-- In every context, two expressions of the same static type give expressions of the same static
type. Checking these has the same outcome too, errors included, if the way to the hole leads into a
receiver or if checking the two expressions themselves has the same outcome. -/
theorem staticType_fill_eq_and_check_fill_eq (ts : TypeSystem) (context : Context) (e₁ e₂ : Expr)
    (htype : e₁.staticType ts = e₂.staticType ts) :
    (context.fill e₁).staticType ts = (context.fill e₂).staticType ts ∧
      (context.CrossesReceiver ∨ e₁.check ts = e₂.check ts →
        (context.fill e₁).check ts = (context.fill e₂).check ts) := by
  constructor
  · exact context.staticType_fill_congr htype
  · exact context.check_fill_congr htype

/-! ### A hole in the receiver of an argument -/

/-- The class `Point`, with `moveBy(Point) -> Point`. -/
def pointSystem : TypeSystem where
  classes :=
    [(⟨⟨0, "Point"⟩⟩, {
        name := ⟨0, "Point"⟩
        methods := [⟨⟨0, "moveBy"⟩, [.cls ⟨⟨0, "Point"⟩⟩], .cls ⟨⟨0, "Point"⟩⟩⟩] })]

/-- The variable `p`, a `Point`. -/
def point : Expr := .var ⟨0, "p"⟩ (.cls ⟨⟨0, "Point"⟩⟩)

/-- The call `p.moveBy()`, a `Point` that lacks its argument. -/
def shortMove : Expr := .call point ⟨0, "moveBy"⟩ []

/-- The call `p.moveBy(_.moveBy(p))` with its hole. -/
def nestedMove : Context :=
  .inCallArg point ⟨0, "moveBy"⟩ [] (.inReceiver .hole ⟨0, "moveBy"⟩ [point]) []

theorem check_fill_nestedMove :
    point.staticType pointSystem = shortMove.staticType pointSystem ∧
      nestedMove.CrossesReceiver ∧ point.check pointSystem ≠ shortMove.check pointSystem ∧
      (nestedMove.fill point).staticType pointSystem =
        (nestedMove.fill shortMove).staticType pointSystem ∧
      (nestedMove.fill point).check pointSystem = (nestedMove.fill shortMove).check pointSystem := by
  have htype : point.staticType pointSystem = shortMove.staticType pointSystem := rfl
  have hpoint : point.check pointSystem = .ok () := rfl
  have hshort : shortMove.check pointSystem =
      .error (.arityMismatch (.method "Point" "moveBy") 1 0) := rfl
  have hcheck : point.check pointSystem ≠ shortMove.check pointSystem := by
    rw [hpoint, hshort]
    simp
  have hfill := staticType_fill_eq_and_check_fill_eq pointSystem nestedMove point shortMove htype
  exact ⟨htype, trivial, hcheck, hfill.1, hfill.2 (.inl trivial)⟩

end Expr
end Nominal
