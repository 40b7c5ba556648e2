import Mathlib.Logic.Equiv.Basic
import Nominal.Proofs.Hierarchy.Relabelling
import Nominal.Proofs.Typing.Checker

/-!
# Checking compares symbols only by identity

An expression over a relabelled type system, relabelled like it, has the relabelled static type
(`staticType_relabel`), and checking it ends in the same way. What is reported is told by the types
and symbols that an error is about, before they are turned into texts (`Complaint`). The outcome of
checking is the same complaint under every renaming that keeps different symbols apart, with its
symbols renamed (`uniform_check`). Only the suggestion depends on what the symbols look like.
-/

namespace Nominal

variable {ρ : Symbol → Symbol} {ts : TypeSystem}

/-! ## Relabelled expressions -/

namespace Expr

mutual

/-- The expression with `ρ` applied to every symbol in it, those in its types included. -/
def relabel (ρ : Symbol → Symbol) : Expr → Expr
  | .var name declared => .var (ρ name) (declared.relabel ρ)
  | .lit spelling type => .lit spelling (type.relabel ρ)
  | .null => .null
  | .call receiver method args => .call (receiver.relabel ρ) (ρ method) (relabelAll ρ args)
  | .new type args => .new (type.relabel ρ) (relabelAll ρ args)

/-- The arguments of a call, each relabelled. -/
def relabelAll (ρ : Symbol → Symbol) : List Expr → List Expr
  | [] => []
  | e :: es => e.relabel ρ :: relabelAll ρ es

end

@[simp] theorem relabelAll_eq_map (es : List Expr) : relabelAll ρ es = es.map (relabel ρ) := by
  induction es with
  | nil => rfl
  | cons e es ih => rw [relabelAll, ih, List.map_cons]

@[simp] theorem relabel_id (e : Expr) : e.relabel id = e := by
  have hmap : ∀ {args : List Expr}, (∀ arg ∈ args, arg.relabel id = arg) →
      args.map (relabel id) = args := fun h =>
    (List.map_congr_left (g := id) h).trans (List.map_id _)
  induction e with
  | call receiver method args ih ihargs =>
      rw [relabel, ih, relabelAll_eq_map, hmap ihargs, id]
  | new type args ihargs => rw [relabel, relabelAll_eq_map, hmap ihargs, Ty.relabel_id, id]
  | var name declared => rw [relabel, Ty.relabel_id, id, id]
  | lit spelling type => rw [relabel, Ty.relabel_id, id]
  | null => rfl

end Expr

/-- The static type of a relabelled expression is the relabelled static type. -/
theorem staticType_relabel (hρ : Function.Injective ρ) (ts : TypeSystem) (e : Expr) :
    (e.relabel ρ).staticType (ts.relabel ρ) = (e.staticType ts).relabel ρ := by
  induction e with
  | call receiver method args ih _ =>
      rw [Expr.relabel, Expr.staticType, Expr.staticType, ih, ts.method?_relabel hρ]
      cases ts.method? (receiver.staticType ts) method <;> rfl
  | _ => rfl

theorem isAssignable_relabel (hρ : Function.Injective ρ) (rule : NullRule) (param arg : Ty) :
    (ts.relabel ρ).isAssignable rule (param.relabel ρ) (arg.relabel ρ) =
      ts.isAssignable rule param arg := by
  have heq : (arg.relabel ρ == param.relabel ρ) = (arg == param) :=
    decide_eq_decide.2 (Ty.relabel_injective hρ).eq_iff
  have hnull : rule.takesNull (param.relabel ρ) = rule.takesNull param := by
    cases rule with
    | anyParameter => rfl
    | referenceParameters => rw [NullRule.takesNull, NullRule.takesNull, Ty.isPrimitive_relabel]
  unfold TypeSystem.isAssignable
  rw [heq, hnull, ts.isDirectSupertype_relabel hρ, Ty.isNull_relabel]

/-! ## Complaints -/

/-- What a call invokes, by its symbols. -/
inductive Invoked where
  | method (type : Ty) (name : Symbol)
  | constructor (type : Ty)

namespace Invoked

def relabel (ρ : Symbol → Symbol) : Invoked → Invoked
  | .method type name => .method (type.relabel ρ) (ρ name)
  | .constructor type => .constructor (type.relabel ρ)

/-- What messages call it. -/
def callee : Invoked → Callee
  | .method type name => .method type.text name.text
  | .constructor type => .constructor type.text

def nullRule : Invoked → NullRule
  | .method .. => .anyParameter
  | .constructor _ => .referenceParameters

/-- The target of a call that invokes it, if it has these parameters. -/
def target (invoked : Invoked) (params : List Ty) : CallTarget :=
  ⟨invoked.callee, params, invoked.nullRule⟩

@[simp] theorem nullRule_relabel (invoked : Invoked) :
    (invoked.relabel ρ).nullRule = invoked.nullRule := by
  cases invoked <;> rfl

end Invoked

/-- A violated rule, with the types and symbols that it was violated by. -/
inductive Complaint where
  | notInstantiableReceiver (type : Ty)
  | unknownMethod (type : Ty) (method : Symbol)
  | notInstantiableType (type : Ty)
  | arityMismatch (invoked : Invoked) (expected actual : Nat)
  | argumentTypeMismatch (invoked : Invoked) (expected actual : List Ty)

namespace Complaint

def relabel (ρ : Symbol → Symbol) : Complaint → Complaint
  | .notInstantiableReceiver type => .notInstantiableReceiver (type.relabel ρ)
  | .unknownMethod type method => .unknownMethod (type.relabel ρ) (ρ method)
  | .notInstantiableType type => .notInstantiableType (type.relabel ρ)
  | .arityMismatch invoked expected actual => .arityMismatch (invoked.relabel ρ) expected actual
  | .argumentTypeMismatch invoked expected actual =>
    .argumentTypeMismatch (invoked.relabel ρ) (expected.map (Ty.relabel ρ))
      (actual.map (Ty.relabel ρ))

/-- The error that a complaint is reported as. A suggestion is made only for an unknown method. -/
def error (suggestion : Option String) : Complaint → TypeError
  | .notInstantiableReceiver type => .notInstantiableReceiver type.text
  | .unknownMethod type method => .unknownMethod type.text method.text suggestion
  | .notInstantiableType type => .notInstantiableType type.text
  | .arityMismatch invoked expected actual => .arityMismatch invoked.callee expected actual
  | .argumentTypeMismatch invoked expected actual =>
    .argumentTypeMismatch invoked.callee (expected.map Ty.text) (actual.map Ty.text)

/-- Neither its symbols nor the suggestion change the kind of a complaint. -/
theorem kind_error_relabel (c : Complaint) (suggestion suggestion' : Option String) :
    ((c.relabel ρ).error suggestion').kind = (c.error suggestion).kind := by
  cases c <;> rfl

/-- An error tells which suggestion was made. -/
theorem error_suggestion? (c : Complaint) (suggestion : Option String) :
    c.error (c.error suggestion).suggestion? = c.error suggestion := by
  cases c <;> rfl

theorem relabel_id (c : Complaint) : c.relabel id = c := by
  have hinvoked : Invoked.relabel id = id := by
    funext invoked
    cases invoked <;> simp only [Invoked.relabel, Ty.relabel_id, id]
  cases c <;> simp only [relabel, Ty.relabel_id, hinvoked, List.map_id, id]

end Complaint

/-! ## Outcomes under all renamings -/

/-- `Reports verdict r`: the outcome `r` is success if there is no complaint, and otherwise the
complaint, with any suggestion. -/
def Reports (verdict : Option Complaint) (r : Except TypeError Unit) : Prop :=
  match verdict with
  | none => r = .ok ()
  | some c => ∃ suggestion, r = .error (c.error suggestion)

theorem Reports.eq_ok_iff {verdict : Option Complaint} {r : Except TypeError Unit}
    (h : Reports verdict r) : r = .ok () ↔ verdict = none := by
  cases verdict with
  | none => exact iff_of_true h rfl
  | some c =>
      obtain ⟨suggestion, rfl⟩ := h
      simp

theorem Reports.exists_of_error {verdict : Option Complaint} {err : TypeError}
    (h : Reports verdict (.error err)) :
    ∃ c, verdict = some c ∧ ∃ suggestion, err = c.error suggestion := by
  cases verdict with
  | none => cases h
  | some c =>
      obtain ⟨suggestion, herr⟩ := h
      exact ⟨c, rfl, suggestion, Except.error.inj herr⟩

/-- `Uniform outcome`: there is a verdict that the outcome reports under every renaming that keeps
different symbols apart, with the symbols of the verdict renamed. -/
def Uniform (outcome : (Symbol → Symbol) → Except TypeError Unit) : Prop :=
  ∃ verdict : Option Complaint, ∀ ρ, Function.Injective ρ →
    Reports (verdict.map (Complaint.relabel ρ)) (outcome ρ)

section Uniform

variable {outcome next : (Symbol → Symbol) → Except TypeError Unit}

theorem Uniform.of_ok (h : ∀ ρ, Function.Injective ρ → outcome ρ = .ok ()) : Uniform outcome :=
  ⟨none, h⟩

theorem Uniform.of_error (c : Complaint) (h : ∀ ρ, Function.Injective ρ →
    ∃ suggestion, outcome ρ = .error ((c.relabel ρ).error suggestion)) : Uniform outcome :=
  ⟨some c, h⟩

theorem Uniform.congr (h : Uniform outcome) (heq : ∀ ρ, Function.Injective ρ → next ρ = outcome ρ) :
    Uniform next := by
  obtain ⟨verdict, hverdict⟩ := h
  refine ⟨verdict, fun ρ hρ => ?_⟩
  rw [heq ρ hρ]
  exact hverdict ρ hρ

/-- The verdict on two steps is that on the first one, or that on the second one if there is no
complaint about the first. -/
theorem Uniform.bind (h : Uniform outcome) (hnext : Uniform next) :
    Uniform fun ρ => outcome ρ >>= fun _ => next ρ := by
  obtain ⟨_ | c, hverdict⟩ := h
  · refine hnext.congr fun ρ hρ => ?_
    have hok : outcome ρ = .ok () := hverdict ρ hρ
    rw [hok]
    rfl
  · refine .of_error c fun ρ hρ => ?_
    obtain ⟨suggestion, herror⟩ := hverdict ρ hρ
    exact ⟨suggestion, by rw [herror]; rfl⟩

end Uniform

/-! ## Calls -/

section Calls

variable (ts) (invoked : Invoked)

theorem uniform_checkArity (params : List Ty) (args : List Expr) :
    Uniform fun ρ => ((invoked.relabel ρ).target (params.map (Ty.relabel ρ))).checkArity
      (args.map (Expr.relabel ρ)) := by
  by_cases hlen : params.length = args.length
  · refine .of_ok fun ρ _ => ?_
    rw [checkArity_eq_ok_iff, Invoked.target, List.length_map, List.length_map, hlen]
  · refine .of_error (.arityMismatch invoked params.length args.length) fun ρ _ => ⟨none, ?_⟩
    simp only [CallTarget.checkArity, Invoked.target, List.length_map, if_neg hlen]
    rfl

theorem uniform_checkArgument (params argTypes : List Ty) (param arg : Ty) :
    Uniform fun ρ => ((invoked.relabel ρ).target (params.map (Ty.relabel ρ))).checkArgument
      (ts.relabel ρ) (argTypes.map (Ty.relabel ρ)) (param.relabel ρ) (arg.relabel ρ) := by
  have hassign : ∀ ρ, Function.Injective ρ →
      (ts.relabel ρ).isAssignable (invoked.relabel ρ).nullRule (param.relabel ρ) (arg.relabel ρ) =
        ts.isAssignable invoked.nullRule param arg := by
    intro ρ hρ
    rw [Invoked.nullRule_relabel, isAssignable_relabel hρ]
  by_cases hfits : ts.isAssignable invoked.nullRule param arg = true
  · refine .of_ok fun ρ hρ => ?_
    simp only [CallTarget.checkArgument, Invoked.target, hassign ρ hρ, if_pos hfits]
  · refine .of_error (.argumentTypeMismatch invoked params argTypes) fun ρ hρ => ⟨none, ?_⟩
    simp only [CallTarget.checkArgument, Invoked.target, hassign ρ hρ, if_neg hfits]
    rfl

/-- Arguments are checked uniformly if each of them is. -/
theorem uniform_checkArgs (params argTypes left : List Ty) {args : List Expr}
    (hargs : ∀ arg ∈ args, Uniform fun ρ => (arg.relabel ρ).check (ts.relabel ρ)) :
    Uniform fun ρ => Expr.checkArgs (ts.relabel ρ)
      ((invoked.relabel ρ).target (params.map (Ty.relabel ρ))) (argTypes.map (Ty.relabel ρ))
      (left.map (Ty.relabel ρ)) (args.map (Expr.relabel ρ)) := by
  induction args generalizing left with
  | nil => cases left <;> exact .of_ok fun _ _ => rfl
  | cons arg args ih =>
      cases left with
      | nil => exact .of_ok fun _ _ => rfl
      | cons param left =>
          rw [List.forall_mem_cons] at hargs
          have hfits := uniform_checkArgument ts invoked params argTypes param (arg.staticType ts)
          refine (hargs.1.bind (hfits.bind (ih left hargs.2))).congr fun ρ hρ => ?_
          rw [List.map_cons, List.map_cons, Expr.checkArgs, staticType_relabel hρ]

theorem uniform_checkCall (params : List Ty) {args : List Expr}
    (hargs : ∀ arg ∈ args, Uniform fun ρ => (arg.relabel ρ).check (ts.relabel ρ)) :
    Uniform fun ρ => ((invoked.relabel ρ).target (params.map (Ty.relabel ρ))).checkCall
      (ts.relabel ρ) (args.map (Expr.relabel ρ)) := by
  have htypes : ∀ ρ, Function.Injective ρ →
      (args.map (Expr.relabel ρ)).map (Expr.staticType (ts.relabel ρ)) =
        (args.map (Expr.staticType ts)).map (Ty.relabel ρ) := by
    intro ρ hρ
    rw [List.map_map, List.map_map]
    exact List.map_congr_left fun arg _ => staticType_relabel hρ ts arg
  have hchecked := (uniform_checkArity invoked params args).bind
    (uniform_checkArgs ts invoked params (args.map (Expr.staticType ts)) params hargs)
  refine hchecked.congr fun ρ hρ => ?_
  rw [CallTarget.checkCall, htypes ρ hρ]
  rfl

end Calls

/-- The verdict on an expression is the same under all renamings. -/
theorem uniform_check (ts : TypeSystem) (e : Expr) :
    Uniform fun ρ => (e.relabel ρ).check (ts.relabel ρ) := by
  -- Lookups in `ts` alone tell the cases apart, so that each of them holds for all renamings.
  induction e using Expr.induction_args with
  | node e ih =>
      cases e with
      | call receiver name args =>
          let t := receiver.staticType ts
          have hcheck : ∀ ρ, Function.Injective ρ →
              ((Expr.call receiver name args).relabel ρ).check (ts.relabel ρ) = (do
                let m ← (ts.relabel ρ).resolveMethod (t.relabel ρ) (ρ name)
                (CallTarget.ofMethod (t.relabel ρ) m).checkCall (ts.relabel ρ)
                  (args.map (Expr.relabel ρ))) := by
            intro ρ hρ
            rw [Expr.relabel, check_call, staticType_relabel hρ, Expr.relabelAll_eq_map]
          by_cases hprim : t.isPrimitive = true
          · refine .of_error (.notInstantiableReceiver t) fun ρ hρ => ⟨none, ?_⟩
            rw [hcheck ρ hρ, TypeSystem.resolveMethod, Ty.isPrimitive_relabel, if_pos hprim]
            rfl
          cases hm : ts.method? t name with
          | none =>
              refine .of_error (.unknownMethod t name) fun ρ hρ =>
                ⟨((ts.relabel ρ).suggestMethod (t.relabel ρ) (ρ name)).map (·.text), ?_⟩
              rw [hcheck ρ hρ, TypeSystem.resolveMethod, Ty.isPrimitive_relabel, if_neg hprim,
                ts.method?_relabel hρ, hm]
              rfl
          | some m =>
              refine (uniform_checkCall ts (.method t m.name) m.params ih).congr fun ρ hρ => ?_
              rw [hcheck ρ hρ, TypeSystem.resolveMethod, Ty.isPrimitive_relabel, if_neg hprim,
                ts.method?_relabel hρ, hm]
              rfl
      | new type args =>
          have hcheck : ∀ ρ, ((Expr.new type args).relabel ρ).check (ts.relabel ρ) = (do
              let params ← (ts.relabel ρ).resolveConstructor (type.relabel ρ)
              (CallTarget.ofConstructor (type.relabel ρ) params).checkCall (ts.relabel ρ)
                (args.map (Expr.relabel ρ))) := by
            intro ρ
            rw [Expr.relabel, check_new, Expr.relabelAll_eq_map]
          cases hc : ts.constructor? type with
          | none =>
              refine .of_error (.notInstantiableType type) fun ρ hρ => ⟨none, ?_⟩
              rw [hcheck, TypeSystem.resolveConstructor, ts.constructor?_relabel hρ, hc]
              rfl
          | some params =>
              refine (uniform_checkCall ts (.constructor type) params ih).congr fun ρ hρ => ?_
              rw [hcheck, TypeSystem.resolveConstructor, ts.constructor?_relabel hρ, hc]
              rfl
      | _ => exact .of_ok fun ρ _ => check_of_isLeaf trivial

/-- Symbols are compared only for being the same. If they are replaced by others in a type system
and in an expression, so that different ones stay different, then the static type is replaced
likewise, and checking succeeds exactly if it did before. If it failed, it fails with the same
complaint about what took the place of the types and symbols in it. So what is declared under one of
two symbols with the same text is never found under the other. -/
theorem staticType_relabel_and_check_relabel (ts : TypeSystem) (e : Expr) :
    (∀ ρ, Function.Injective ρ →
      (e.relabel ρ).staticType (ts.relabel ρ) = (e.staticType ts).relabel ρ ∧
        ((e.relabel ρ).check (ts.relabel ρ) = .ok () ↔ e.check ts = .ok ())) ∧
    (∀ err, e.check ts = .error err → ∃ c : Complaint, c.error err.suggestion? = err ∧
      ∀ ρ, Function.Injective ρ → ∃ err', (e.relabel ρ).check (ts.relabel ρ) = .error err' ∧
        (c.relabel ρ).error err'.suggestion? = err' ∧ err'.kind = err.kind) ∧
    (∀ a b : Symbol, a.text = b.text → a.table ≠ b.table →
      (ts.dropClass ⟨a⟩).class? ⟨b⟩ = ts.class? ⟨b⟩ ∧
        ∀ c : ClassDef, (c.dropMethod a).method? b = c.method? b) := by
  -- If nothing is renamed, the verdict is that on the expression itself.
  obtain ⟨verdict, hverdict⟩ := uniform_check ts e
  have hself := hverdict id Function.injective_id
  simp only [Expr.relabel_id, TypeSystem.relabel_id] at hself
  refine ⟨fun ρ hρ => ⟨staticType_relabel hρ ts e, ?_⟩, ?_, ?_⟩
  · rw [(hverdict ρ hρ).eq_ok_iff, hself.eq_ok_iff, Option.map_eq_none_iff, Option.map_eq_none_iff]
  · intro err herr
    rw [herr] at hself
    obtain ⟨c, hc, suggestion, rfl⟩ := hself.exists_of_error
    obtain ⟨c, rfl, rfl⟩ := Option.map_eq_some_iff.1 hc
    rw [Complaint.relabel_id]
    refine ⟨c, c.error_suggestion? suggestion, fun ρ hρ => ?_⟩
    obtain ⟨suggestion', herr'⟩ := hverdict ρ hρ
    exact ⟨_, herr', (c.relabel ρ).error_suggestion? suggestion',
      c.kind_error_relabel suggestion suggestion'⟩
  · intro a b _ htable
    have hne : a ≠ b := fun heq => htable (congrArg Symbol.table heq)
    refine ⟨ts.class?_dropClass fun heq => hne (ClassId.mk.inj heq), fun c => ?_⟩
    exact c.method?_dropMethod hne

/-! ### A method whose name only looks right -/

/-- The class `Point` with a method `move()`, all of table 1. -/
def movablePoint : TypeSystem where
  classes := [(⟨⟨1, "Point"⟩⟩, {
    name := ⟨1, "Point"⟩
    methods := [⟨⟨1, "move"⟩, [], .void⟩] })]

/-- The call `p.move()` on a `Point`, where `move` is of table 0. -/
def foreignMove : Expr := .call (.var ⟨0, "p"⟩ (.cls ⟨⟨1, "Point"⟩⟩)) ⟨0, "move"⟩ []

/-- Exchanges `move` of table 1 for another symbol. -/
def exchangeMove : Symbol → Symbol := Equiv.swap ⟨1, "move"⟩ ⟨1, "jump"⟩

/-- The method is not found, though it is suggested under the same text; under another text it is
not even suggested. -/
theorem check_relabel_foreignMove :
    foreignMove.check movablePoint = .error (.unknownMethod "Point" "move" (some "move")) ∧
      (foreignMove.relabel exchangeMove).check (movablePoint.relabel exchangeMove) =
        .error (.unknownMethod "Point" "move" none) ∧
      (∃ c : Complaint, c.error (some "move") = .unknownMethod "Point" "move" (some "move") ∧
        (c.relabel exchangeMove).error none = .unknownMethod "Point" "move" none) ∧
      (movablePoint.dropClass ⟨⟨1, "Point"⟩⟩).class? ⟨⟨0, "Point"⟩⟩ = none := by
  have hcheck : foreignMove.check movablePoint =
      .error (.unknownMethod "Point" "move" (some "move")) := by decide
  have hcheck' : (foreignMove.relabel exchangeMove).check (movablePoint.relabel exchangeMove) =
      .error (.unknownMethod "Point" "move" none) := by decide
  have hexchange : Function.Injective exchangeMove := Equiv.injective _
  obtain ⟨-, herror, hlookup⟩ := staticType_relabel_and_check_relabel movablePoint foreignMove
  obtain ⟨c, hc, hrelabel⟩ := herror _ hcheck
  obtain ⟨err', herr', hc', -⟩ := hrelabel exchangeMove hexchange
  rw [hcheck'] at herr'
  cases herr'
  refine ⟨hcheck, hcheck', ⟨c, hc, hc'⟩, ?_⟩
  exact (hlookup ⟨1, "Point"⟩ ⟨0, "Point"⟩ rfl (by decide)).1

end Nominal
