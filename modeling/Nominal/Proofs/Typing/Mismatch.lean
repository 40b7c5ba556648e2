import Nominal.Proofs.Hierarchy.Naming
import Nominal.Proofs.Typing.FirstError

/-!
# What a mismatch message shows

Types are compared by their ids but reported by their texts, so a message could list the same text
on both sides and explain nothing. Over a type system that was built from a declaration it never
does:

* two types that can be named, or that of `null`, have the same text only if they are the same
  (`HierarchyDecl.Valid.text_inj`): no class has a reserved name, and the ids of all classes come
  from one string table;
* the argument that does not fit is well typed, so its type is one of these and not the unknown type
  of some method, whose text might be anything (`TypeSystem.Closed.known_of_wellTyped`);
* neither is the parameter's (`TypeSystem.Closed.nameable_of_invokes`).

Main statement: `text_ne_of_check_eq_argumentTypeMismatch`.
-/

namespace Nominal

/-! ## Texts of types -/

/-- `ts.Known t`: the type `t` is that of `null`, or can be named. -/
def TypeSystem.Known (ts : TypeSystem) (t : Ty) : Prop := t = .null ∨ ts.Nameable t

namespace HierarchyDecl

variable {d : HierarchyDecl} {table : Nat} {t u : Ty}

/-- All classes are declared under names of one table, and none of the names is reserved. -/
theorem Valid.keyedFrom_typeSystem (hvalid : d.Valid) (table : Nat) :
    (d.typeSystem table).KeyedFrom table := by
  constructor
  · rw [ids_typeSystem, List.forall_mem_map]
    exact fun _ _ => rfl
  · rw [ids_typeSystem, List.forall_mem_map]
    exact hvalid.unreserved

/-- Different types that are known have different texts. -/
theorem Valid.text_inj (hvalid : d.Valid) (ht : (d.typeSystem table).Known t)
    (hu : (d.typeSystem table).Known u) (h : t.text = u.text) : t = u := by
  have hkeys := hvalid.keyedFrom_typeSystem table
  rcases ht with rfl | ht
  · rcases hu with rfl | hu
    · rfl
    · exact absurd h.symm (hkeys.text_ne_null hu)
  · rcases hu with rfl | hu
    · exact absurd h (hkeys.text_ne_null ht)
    · exact hkeys.text_inj ht hu h

end HierarchyDecl

/-! ## The types of parameters and arguments -/

namespace Expr

variable {p : Ty → Prop} {e node : Expr}

theorem ForallTypes.of_mem_args (h : e.ForallTypes p) : ∀ arg ∈ e.args, arg.ForallTypes p := by
  cases h with
  | var _ => simp [args]
  | lit _ => simp [args]
  | null => simp [args]
  | call _ hargs => exact hargs
  | new _ hargs => exact hargs

theorem ForallTypes.of_nodeAt (h : e.ForallTypes p) {path : List Nat}
    (hnode : e.nodeAt path = some node) : node.ForallTypes p := by
  induction path generalizing e with
  | nil => exact Option.some.inj hnode ▸ h
  | cons i path ih =>
      rcases exists_arg_of_nodeAt_cons hnode with ⟨arg, harg, hrest⟩
      exact ih (h.of_mem_args arg (List.mem_of_getElem? harg)) hrest

end Expr

namespace TypeSystem

variable {ts : TypeSystem}

/-- Over a closed type system, what is passed for is what can be named. -/
theorem Closed.nameable_of_invokes (hclosed : ts.Closed) {e : Expr} {target : CallTarget}
    (hinv : Invokes ts e target) : ∀ param ∈ target.params, ts.Nameable param := by
  intro param hparam
  cases hinv with
  | @method _ _ _ id c m _ hc hm =>
      have hmem : m ∈ c.methods := List.mem_of_find?_eq_some hm
      refine hclosed.signatures id c hc param (List.mem_append_right _ ?_)
      exact List.mem_flatMap.2 ⟨m, hmem, List.mem_append_left _ hparam⟩
  | @constructor _ id c hc =>
      exact hclosed.signatures id c hc param (List.mem_append_left _ hparam)

/-- Over a closed type system, a well-typed expression has no unknown type. -/
theorem Closed.known_of_wellTyped (hclosed : ts.Closed) {e : Expr} (htypes : e.ForallTypes ts.Writable)
    (hwell : WellTyped ts e) : ts.Known (e.staticType ts) := by
  rcases hclosed.staticType_cases htypes with hknown | ⟨receiver, x, args, rfl, hnone, -⟩
  · exact hknown
  · exact absurd hnone hwell.method?_ne_none

end TypeSystem

/-! ## The argument that does not fit -/

/-- `FirstMisfit ts rule params args i`: the argument at position `i` may not be passed for the
parameter there, and every argument to the left of it may. -/
structure FirstMisfit (ts : TypeSystem) (rule : NullRule) (params : List Ty) (args : List Expr)
    (i : Nat) : Prop where
  here : ∃ param arg, params[i]? = some param ∧ args[i]? = some arg ∧
    ts.isAssignable rule param (arg.staticType ts) = false
  left : ∀ j < i, ∃ param arg, params[j]? = some param ∧ args[j]? = some arg ∧
    ts.isAssignable rule param (arg.staticType ts) = true

/-- The argument that a violation is about is the first one that does not fit. -/
theorem firstMisfit_of_refusesArg {ts : TypeSystem} {rule : NullRule} {params : List Ty}
    {args : List Expr} {i : Nat} (hleft : ∀ j < i, AcceptsArg ts rule params args j)
    (hrefuses : RefusesArg ts rule params args i) : FirstMisfit ts rule params args i := by
  constructor
  · rcases hrefuses with ⟨arg, param, harg, hparam, -, hfits⟩
    refine ⟨param, arg, hparam, harg, ?_⟩
    rw [← Bool.not_eq_true, isAssignable_iff_fits]
    exact hfits
  · intro j hj
    rcases hleft j hj with ⟨arg, param, harg, hparam, -, hfits⟩
    exact ⟨param, arg, hparam, harg, isAssignable_iff_fits.2 hfits⟩

/-- What does not fit is printed otherwise than what it does not fit. -/
theorem HierarchyDecl.Valid.text_ne_of_not_fits {d : HierarchyDecl} {table : Nat} (hvalid : d.Valid)
    {rule : NullRule} {param arg : Ty} (hparam : (d.typeSystem table).Nameable param)
    (harg : (d.typeSystem table).Known arg) (hfits : ¬ Fits (d.typeSystem table) rule arg param) :
    param.text ≠ arg.text := by
  intro htext
  have heq : param = arg := hvalid.text_inj (.inr hparam) harg htext
  exact hfits (heq ▸ .same rule param)

/-- If an expression over a type system that was built from a declaration fails because of the types
of arguments, the message lists as many types of arguments as of parameters, and they differ at the
first position where the argument of the failing call does not fit. -/
theorem text_ne_of_check_eq_argumentTypeMismatch (d : HierarchyDecl) (table : StringTable)
    (ts : TypeSystem) (e : Expr) (callee : Callee) (expected actual : List String)
    (hbuild : (d.build table).1 = .ok ts) (htypes : e.ForallTypes ts.Writable)
    (hcheck : e.check ts = .error (.argumentTypeMismatch callee expected actual)) :
    expected.length = actual.length ∧
      ∃ path call target i shown given,
        FailsAt ts e path (.argumentTypeMismatch callee expected actual) ∧
        e.nodeAt path = some call ∧ Invokes ts call target ∧
        FirstMisfit ts target.nullRule target.params call.args i ∧
        expected[i]? = some shown ∧ actual[i]? = some given ∧ shown ≠ given := by
  rcases HierarchyDecl.build_eq_ok_iff.1 hbuild with ⟨hvalid, rfl⟩
  have hclosed := hvalid.closed_typeSystem table.id
  rcases exists_failsAt_of_check hcheck with ⟨path, hfails⟩
  rcases hfails.here with ⟨call, hcall, hviolates⟩
  cases hviolates with
  | resolution hunres => cases hunres
  | @argument target i hinv hlen hleft hrefuses =>
      -- The message lists all parameters and all arguments; only the ones at `i` are compared here.
      rcases hrefuses with ⟨arg, param, harg, hparam, hwell, hfits⟩
      have hparam' : (d.typeSystem table.id).Nameable param :=
        hclosed.nameable_of_invokes hinv param (List.mem_of_getElem? hparam)
      have hknown : (d.typeSystem table.id).Known (arg.staticType (d.typeSystem table.id)) := by
        have hargs := (htypes.of_nodeAt hcall).of_mem_args arg (List.mem_of_getElem? harg)
        exact hclosed.known_of_wellTyped hargs hwell
      have hmisfit := firstMisfit_of_refusesArg hleft ⟨arg, param, harg, hparam, hwell, hfits⟩
      refine ⟨by simpa using hlen, path, call, target, i, param.text, _, hfails, hcall, hinv,
        hmisfit, ?_, ?_, hvalid.text_ne_of_not_fits hparam' hknown hfits⟩
      · rw [List.getElem?_map, hparam, Option.map_some]
      · rw [List.getElem?_map, harg, Option.map_some]

/-! ### A mismatch below a construction -/

/-- The construction `new Square(1.5, square.merge(new Square(2.5, null), 1.5))`. The second
argument of `merge` should be an `int`. -/
def misfitCall : Expr :=
  .new (.cls ⟨⟨0, "Square"⟩⟩) [.lit "1.5" .double,
    .call (.var ⟨0, "square"⟩ (.cls ⟨⟨0, "Square"⟩⟩)) ⟨0, "merge"⟩
      [.new (.cls ⟨⟨0, "Square"⟩⟩) [.lit "2.5" .double, .null], .lit "1.5" .double]]

theorem text_ne_of_check_misfitCall :
    ∃ ts, (shapes.build (.empty 0)).1 = .ok ts ∧ misfitCall.ForallTypes ts.Writable ∧
      misfitCall.check ts = .error
        (.argumentTypeMismatch (.method "Square" "merge") ["Square", "int"] ["Square", "double"]) ∧
      ∃ path call target i shown given,
        FailsAt ts misfitCall path (.argumentTypeMismatch (.method "Square" "merge")
          ["Square", "int"] ["Square", "double"]) ∧
        misfitCall.nodeAt path = some call ∧ Invokes ts call target ∧
        FirstMisfit ts target.nullRule target.params call.args i ∧
        ["Square", "int"][i]? = some shown ∧ ["Square", "double"][i]? = some given ∧
        shown ≠ given := by
  have hbuild : (shapes.build (.empty 0)).1 = .ok (shapes.typeSystem 0) := rfl
  have hsquare : (shapes.typeSystem 0).Writable (.cls ⟨⟨0, "Square"⟩⟩) := .inr ⟨"Square", rfl⟩
  have hdouble : (shapes.typeSystem 0).Writable .double := .inr ⟨"double", rfl⟩
  have htypes : misfitCall.ForallTypes (shapes.typeSystem 0).Writable := by
    refine .new hsquare ?_
    simp only [List.forall_mem_cons, List.not_mem_nil, false_implies, implies_true, and_true]
    refine ⟨.lit hdouble, .call (.var hsquare) ?_⟩
    simp only [List.forall_mem_cons, List.not_mem_nil, false_implies, implies_true, and_true]
    refine ⟨.new hsquare ?_, .lit hdouble⟩
    simp only [List.forall_mem_cons, List.not_mem_nil, false_implies, implies_true, and_true]
    exact ⟨.lit hdouble, .null⟩
  have hcheck : misfitCall.check (shapes.typeSystem 0) = .error (.argumentTypeMismatch
      (.method "Square" "merge") ["Square", "int"] ["Square", "double"]) := rfl
  have hshown := text_ne_of_check_eq_argumentTypeMismatch shapes (.empty 0) _ misfitCall _ _ _ hbuild
    htypes hcheck
  exact ⟨_, hbuild, htypes, hcheck, hshown.2⟩

end Nominal
