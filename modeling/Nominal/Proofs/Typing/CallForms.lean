import Nominal.Proofs.Typing.FirstError

/-!
# The two forms of call

A method call and a construction that take the same parameters and pass the same arguments differ in
one thing: where `null` is passed for a parameter of a primitive type, the method call accepts it
and the construction refuses it (`acceptsArg_referenceParameters_iff`). So on its way through the
arguments a construction comes as far as the method call does, or it stops before, at the first such
`null` (`acceptsArg_or_refusesArg`). What lies behind that position is never looked at, and an error
there, which the method call reports, does not show in the construction.

Main statement: `check_new_of_check_call`.
-/

namespace Nominal

/-- `null` is passed at position `i` for a parameter of a primitive type. -/
def NullForPrimitive (ts : TypeSystem) (params : List Ty) (args : List Expr) (i : Nat) : Prop :=
  ∃ arg param, args[i]? = some arg ∧ params[i]? = some param ∧ arg.staticType ts = .null ∧
    param ∈ Ty.primitives

variable {ts : TypeSystem} {params : List Ty} {args : List Expr} {i : Nat}

/-! ## The two rules for `null` -/

/-- Under the rule of constructions the same types fit, apart from `null` for a primitive type. -/
theorem fits_referenceParameters_iff {arg param : Ty} :
    Fits ts .referenceParameters arg param ↔
      Fits ts .anyParameter arg param ∧ ¬ (arg = .null ∧ param ∈ Ty.primitives) := by
  constructor
  · intro h
    cases h with
    | same =>
        refine ⟨.same _ arg, ?_⟩
        rintro ⟨rfl, hprim⟩
        simp [Ty.primitives] at hprim
    | widened _ hc hmem => exact ⟨.widened _ hc hmem, by simp⟩
    | referenceNull hi hb hd => exact ⟨.anyNull param, by simp [Ty.primitives, hi, hb, hd]⟩
  · rintro ⟨hfits, hnull⟩
    cases hfits with
    | same => exact .same _ arg
    | widened _ hc hmem => exact .widened _ hc hmem
    | anyNull =>
        have hprim : param ≠ .int ∧ param ≠ .boolean ∧ param ≠ .double := by
          simpa [Ty.primitives] using hnull
        exact .referenceNull hprim.1 hprim.2.1 hprim.2.2

/-- A construction accepts the arguments that a method call accepts, apart from `null` for a
primitive type. -/
theorem acceptsArg_referenceParameters_iff :
    AcceptsArg ts .referenceParameters params args i ↔
      AcceptsArg ts .anyParameter params args i ∧ ¬ NullForPrimitive ts params args i := by
  constructor
  · rintro ⟨arg, param, harg, hparam, hwell, hfits⟩
    obtain ⟨hany, hnot⟩ := fits_referenceParameters_iff.1 hfits
    refine ⟨⟨arg, param, harg, hparam, hwell, hany⟩, ?_⟩
    rintro ⟨arg', param', harg', hparam', hnull, hprim⟩
    rcases Option.some.inj (harg.symm.trans harg') with rfl
    rcases Option.some.inj (hparam.symm.trans hparam') with rfl
    exact hnot ⟨hnull, hprim⟩
  · rintro ⟨⟨arg, param, harg, hparam, hwell, hany⟩, hnot⟩
    refine ⟨arg, param, harg, hparam, hwell, fits_referenceParameters_iff.2 ⟨hany, ?_⟩⟩
    rintro ⟨hnull, hprim⟩
    exact hnot ⟨arg, param, harg, hparam, hnull, hprim⟩

/-- Where `null` is passed for a primitive type, a construction refuses what a method call
accepts. -/
theorem AcceptsArg.refusesArg_of_nullForPrimitive (h : AcceptsArg ts .anyParameter params args i)
    (hnull : NullForPrimitive ts params args i) :
    RefusesArg ts .referenceParameters params args i := by
  obtain ⟨arg, param, harg, hparam, hwell, -⟩ := h
  refine ⟨arg, param, harg, hparam, hwell, ?_⟩
  intro hfits
  have haccepts : AcceptsArg ts .referenceParameters params args i :=
    ⟨arg, param, harg, hparam, hwell, hfits⟩
  exact (acceptsArg_referenceParameters_iff.1 haccepts).2 hnull

/-- A construction accepts as many arguments as a method call does, or it refuses one of them and
accepts all before. -/
theorem acceptsArg_or_refusesArg (h : ∀ j < i, AcceptsArg ts .anyParameter params args j) :
    (∀ j < i, AcceptsArg ts .referenceParameters params args j) ∨
      ∃ k < i, NullForPrimitive ts params args k ∧
        (∀ j < k, AcceptsArg ts .referenceParameters params args j) ∧
        RefusesArg ts .referenceParameters params args k := by
  induction i with
  | zero => exact .inl (by simp)
  | succ i ih =>
      obtain ⟨hbefore, hlast⟩ := Nat.forall_lt_succ_right.1 h
      rcases ih hbefore with haccepts | ⟨k, hk, hrest⟩
      · by_cases hnull : NullForPrimitive ts params args i
        · exact .inr ⟨i, Nat.lt_succ_self i, hnull, haccepts,
            hlast.refusesArg_of_nullForPrimitive hnull⟩
        · refine .inl (Nat.forall_lt_succ_right.2 ⟨haccepts, ?_⟩)
          exact acceptsArg_referenceParameters_iff.2 ⟨hlast, hnull⟩
      · exact .inr ⟨k, Nat.lt_succ_of_lt hk, hrest⟩

/-! ## Calls that accept all arguments -/

/-- A call is well typed if it has the right number of arguments and accepts each of them. -/
theorem wellTyped_iff_acceptsArg {e : Expr} {target : CallTarget} (hinv : Invokes ts e target) :
    WellTyped ts e ↔ target.params.length = e.args.length ∧
      ∀ j < e.args.length, AcceptsArg ts target.nullRule target.params e.args j := by
  constructor
  · intro hwell
    rcases hwell.isLeaf_or_invokes with hleaf | ⟨target', hinv', hargs, hfits⟩
    · cases hinv <;> exact hleaf.elim
    · rcases hinv.unique hinv' with rfl
      exact ⟨by simpa using hfits.length_eq.symm, acceptsArg_of_forall₂ hargs hfits⟩
  · rintro ⟨hlen, haccepts⟩
    -- The arguments are well typed and fit at every position, so they do one after the other.
    refine .of_invokes hinv ?_ ?_
    · intro arg hmem
      obtain ⟨j, hj⟩ := List.mem_iff_getElem?.1 hmem
      obtain ⟨arg', -, harg', -, hwell, -⟩ := haccepts j (List.getElem?_eq_some_iff.1 hj).1
      rcases Option.some.inj (hj.symm.trans harg') with rfl
      exact hwell
    · rw [List.forall₂_iff_get]
      refine ⟨by simpa using hlen.symm, ?_⟩
      intro j hj hj'
      rw [List.length_map] at hj
      obtain ⟨arg, param, harg, hparam, -, hfits⟩ := haccepts j hj
      have harg' : e.args[j] = arg := (List.getElem?_eq_some_iff.1 harg).2
      have hparam' : target.params[j] = param := (List.getElem?_eq_some_iff.1 hparam).2
      simpa [harg', hparam'] using hfits

/-! ## One call in both forms -/

/-- What a construction says of arguments that do not fit its parameters. -/
def constructorMismatch (ts : TypeSystem) (type : ClassId) (params : List Ty) (args : List Expr) :
    TypeError :=
  .argumentTypeMismatch (.constructor type.key.text) (params.map Ty.text)
    (args.map fun arg => (arg.staticType ts).text)

section Forms

variable {type : ClassId} {c : ClassDef} {call : Expr} {callee : Callee}

/-- An argument that a construction refuses is reported if all arguments before it are accepted. -/
theorem failsAt_new_of_refusesArg (hc : ts.class? type = some c)
    (hlen : c.constructorParams.length = args.length)
    (hleft : ∀ j < i, AcceptsArg ts .referenceParameters c.constructorParams args j)
    (hrefuses : RefusesArg ts .referenceParameters c.constructorParams args i) :
    FailsAt ts (.new (.cls type) args) []
      (constructorMismatch ts type c.constructorParams args) :=
  failsAt_nil_iff.2 (.argument (.constructor hc) hlen hleft hrefuses)

variable (hc : ts.class? type = some c)
  (hcall : Invokes ts call ⟨callee, c.constructorParams, .anyParameter⟩)
include hc hcall

theorem wellTyped_call_of_new (h : WellTyped ts (.new (.cls type) call.args)) :
    WellTyped ts call := by
  obtain ⟨hlen, haccepts⟩ := (wellTyped_iff_acceptsArg (.constructor hc)).1 h
  refine (wellTyped_iff_acceptsArg hcall).2 ⟨hlen, ?_⟩
  intro j hj
  exact (acceptsArg_referenceParameters_iff.1 (haccepts j hj)).1

/-- If the method call is well typed, so is the construction, unless `null` is passed for a
primitive type somewhere. Then the first such `null` is what it is refused for. -/
theorem wellTyped_or_failsAt_new (h : WellTyped ts call) :
    (WellTyped ts (.new (.cls type) call.args) ∧
        ∀ i, ¬ NullForPrimitive ts c.constructorParams call.args i) ∨
      (∃ i, NullForPrimitive ts c.constructorParams call.args i) ∧
        FailsAt ts (.new (.cls type) call.args) []
          (constructorMismatch ts type c.constructorParams call.args) := by
  obtain ⟨hlen, haccepts⟩ := (wellTyped_iff_acceptsArg hcall).1 h
  rcases acceptsArg_or_refusesArg haccepts with hall | ⟨k, -, hnull, hleft, hrefuses⟩
  · refine .inl ⟨(wellTyped_iff_acceptsArg (.constructor hc)).2 ⟨hlen, hall⟩, ?_⟩
    intro i hnull
    have hlt : i < call.args.length := by
      obtain ⟨arg, -, harg, -⟩ := hnull
      exact (List.getElem?_eq_some_iff.1 harg).1
    exact (acceptsArg_referenceParameters_iff.1 (hall i hlt)).2 hnull
  · exact .inr ⟨⟨k, hnull⟩, failsAt_new_of_refusesArg hc hlen hleft hrefuses⟩

/-- If the method call fails in one of its arguments, the construction fails at the same node,
unless it has refused an argument before. -/
theorem failsAt_new_of_failsAt_call {path : List Nat} {err : TypeError}
    (h : FailsAt ts call (i :: path) err) :
    FailsAt ts (.new (.cls type) call.args) (i :: path) err ∨
      FailsAt ts (.new (.cls type) call.args) []
        (constructorMismatch ts type c.constructorParams call.args) := by
  obtain ⟨target, arg, hinv, hlen, hleft, harg, hbelow⟩ := failsAt_cons_iff.1 h
  rcases hinv.unique hcall with rfl
  rcases acceptsArg_or_refusesArg hleft with hall | ⟨k, -, -, hbefore, hrefuses⟩
  · exact .inl (failsAt_cons_iff.2 ⟨_, arg, .constructor hc, hlen, hall, harg, hbelow⟩)
  · exact .inr (failsAt_new_of_refusesArg hc hlen hbefore hrefuses)

end Forms

/-- A construction and a method call that take the same parameters and pass the same arguments. If
the construction is well typed, so is the call. If the call is well typed, the construction is
refused exactly if `null` is passed for a parameter of a primitive type, and then for its own
arguments. If the call fails, but neither by the number nor by the types of its own arguments, the
construction fails with the same error or for its own arguments. -/
theorem check_new_of_check_call (ts : TypeSystem) (args : List Expr) (type : ClassId) (c : ClassDef)
    (receiver : Expr) (name : Symbol) (id : ClassId) (d : ClassDef) (m : Method)
    (hc : ts.class? type = some c) (hreceiver : receiver.staticType ts = .cls id)
    (hd : ts.class? id = some d) (hm : d.method? name = some m)
    (hparams : m.params = c.constructorParams) :
    let new := Expr.new (.cls type) args
    let call := Expr.call receiver name args
    let mismatch := constructorMismatch ts type c.constructorParams args
    (new.check ts = .ok () → call.check ts = .ok ()) ∧
    (call.check ts = .ok () →
      (new.check ts ≠ .ok () ↔ ∃ i, NullForPrimitive ts c.constructorParams args i) ∧
      (new.check ts ≠ .ok () → new.check ts = .error mismatch ∧ FailsAt ts new [] mismatch)) ∧
    ∀ err, call.check ts = .error err →
      (∀ own, FailsAt ts call [] own →
        own.kind ≠ .arityMismatch ∧ own.kind ≠ .argumentTypeMismatch) →
      new.check ts = .error err ∨ new.check ts = .error mismatch ∧ FailsAt ts new [] mismatch := by
  intro new call mismatch
  have hcall : Invokes ts call
      ⟨.method id.key.text name.text, c.constructorParams, .anyParameter⟩ := by
    rw [← hparams]
    exact .method hreceiver hd hm
  refine ⟨?_, ?_, ?_⟩
  · intro hnew
    exact check_of_wellTyped (wellTyped_call_of_new hc hcall (wellTyped_of_check hnew))
  · intro hok
    rcases wellTyped_or_failsAt_new hc hcall (wellTyped_of_check hok) with
      ⟨hwell, hnone⟩ | ⟨hnull, hfails⟩
    · have hnew : new.check ts = .ok () := check_of_wellTyped hwell
      refine ⟨?_, fun hne => absurd hnew hne⟩
      constructor
      · intro hne
        exact absurd hnew hne
      · rintro ⟨i, hnull⟩
        exact absurd hnull (hnone i)
    · have hnew : new.check ts = .error mismatch := hfails.check
      have hne : new.check ts ≠ .ok () := by
        rw [hnew]
        simp
      exact ⟨iff_of_true hne hnull, fun _ => ⟨hnew, hfails⟩⟩
  · intro err herr hown
    obtain ⟨path, hpath⟩ := exists_failsAt_of_check herr
    cases path with
    | nil =>
        -- The call itself is resolved, so its own error would be one of the two excluded ones.
        obtain ⟨harity, hmismatch⟩ := hown err hpath
        rcases (failsAt_nil_iff.1 hpath).kind_of_invokes hcall with hkind | hkind
        · exact absurd hkind harity
        · exact absurd hkind hmismatch
    | cons i path =>
        rcases failsAt_new_of_failsAt_call hc hcall hpath with hsame | hfails
        · exact .inl hsame.check
        · exact .inr ⟨hfails.check, hfails⟩

/-! ### A `null` in front of another error -/

/-- The method `set(int, Point)`. -/
def setMethod : Method := ⟨⟨0, "set"⟩, [.int, .cls ⟨⟨0, "Point"⟩⟩], .void⟩

/-- The class `Point` with the constructor `Point(int, Point)` and the method `set`. -/
def settablePoint : TypeSystem where
  classes :=
    [(⟨⟨0, "Point"⟩⟩, {
        name := ⟨0, "Point"⟩
        declaredConstructor := some [.int, .cls ⟨⟨0, "Point"⟩⟩]
        methods := [setMethod] })]

/-- The variable `p`, a `Point`. -/
def settable : Expr := .var ⟨0, "p"⟩ (.cls ⟨⟨0, "Point"⟩⟩)

/-- The call `p.set(args)`. -/
def setCall (args : List Expr) : Expr := .call settable ⟨0, "set"⟩ args

/-- The construction `new Point(args)`. -/
def newPoint (args : List Expr) : Expr := .new (.cls ⟨⟨0, "Point"⟩⟩) args

/-- In `p.set(null, p.set())` the inner call lacks its arguments. -/
theorem failsAt_setCall :
    FailsAt settablePoint (setCall [.null, setCall []]) [1]
      (.arityMismatch (.method "Point" "set") 2 0) := by
  have hset : ∀ args, Invokes settablePoint (setCall args)
      ⟨.method "Point" "set", setMethod.params, .anyParameter⟩ := by
    intro args
    exact @Invokes.method _ settable ⟨0, "set"⟩ args ⟨⟨0, "Point"⟩⟩ _ setMethod rfl rfl rfl
  have hinner : FailsAt settablePoint (setCall []) []
      (.arityMismatch (.method "Point" "set") 2 0) :=
    failsAt_nil_iff.2 (.arity (hset []) (by decide))
  refine failsAt_cons_iff.2 ⟨_, setCall [], hset _, rfl, ?_, rfl, hinner⟩
  intro j hj
  obtain rfl : j = 0 := by omega
  exact ⟨.null, .int, rfl, rfl, .null, .anyNull .int⟩

/-- The construction with the arguments of that call is refused for the `null` in front of the inner
call. -/
theorem check_newPoint_of_check_setCall :
    (newPoint [.lit "1" .int, settable]).check settablePoint = .ok () ∧
      (setCall [.lit "1" .int, settable]).check settablePoint = .ok () ∧
      (setCall [.null, settable]).check settablePoint = .ok () ∧
      (newPoint [.null, settable]).check settablePoint = .error (.argumentTypeMismatch
        (.constructor "Point") ["int", "Point"] ["null", "Point"]) ∧
      (setCall [.null, setCall []]).check settablePoint =
        .error (.arityMismatch (.method "Point" "set") 2 0) ∧
      FailsAt settablePoint (newPoint [.null, setCall []]) [] (.argumentTypeMismatch
        (.constructor "Point") ["int", "Point"] ["null", "void"]) := by
  have hforms := fun args => check_new_of_check_call settablePoint args ⟨⟨0, "Point"⟩⟩ _ settable
    ⟨0, "set"⟩ ⟨⟨0, "Point"⟩⟩ _ _ rfl rfl rfl rfl rfl
  have hnew : (newPoint [.lit "1" .int, settable]).check settablePoint = .ok () := rfl
  have hcall := (hforms [.lit "1" .int, settable]).1 hnew
  have hnull : (setCall [.null, settable]).check settablePoint = .ok () := rfl
  obtain ⟨hiff, hmismatch⟩ := (hforms [.null, settable]).2.1 hnull
  have hrefused := hmismatch (hiff.2 ⟨0, .null, .int, rfl, rfl, rfl, by decide⟩)
  have hinner := failsAt_setCall.check
  refine ⟨hnew, hcall, hnull, hrefused.1, hinner, ?_⟩
  have hown : ∀ own, FailsAt settablePoint (setCall [.null, setCall []]) [] own →
      own.kind ≠ .arityMismatch ∧ own.kind ≠ .argumentTypeMismatch := by
    intro own hfails
    exact absurd (hfails.path_unique failsAt_setCall) nofun
  rcases (hforms [.null, setCall []]).2.2 _ hinner hown with hsame | ⟨-, hfails⟩
  · cases hsame
  · exact hfails

end Nominal
