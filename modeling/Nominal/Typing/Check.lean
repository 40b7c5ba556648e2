import Nominal.Names.Relation
import Nominal.Typing.Assignable
import Nominal.Typing.LogRecord
import Nominal.Typing.StaticType

/-!
# Checking expressions

`Expr.validate` walks through an expression and stops at the first rule that is violated; on its way
it logs what it does. The receiver of a call is not validated, only its static type counts. The
number of arguments is compared before any argument is looked at; then each argument is validated
and compared to its parameter before the next one.
-/

namespace Nominal

/-! ## Steps that log and may fail -/

/-- The outcome of a step: the records it logged, and its value or the violated rule. -/
structure Validation (α : Type) where
  log : List LogRecord
  result : Except TypeError α
  deriving Repr

namespace Validation

/-- Goes on with the value of a step, or stops where it stopped. -/
def andThen {α β : Type} (v : Validation α) (next : α → Validation β) : Validation β :=
  match v.result with
  | .ok a =>
    let rest := next a
    ⟨v.log ++ rest.log, rest.result⟩
  | .error e => ⟨v.log, .error e⟩

instance : Monad Validation where
  pure a := ⟨[], .ok a⟩
  bind := andThen

/-- Logs a record. -/
def record (r : LogRecord) : Validation Unit := ⟨[r], .ok ()⟩

/-- Stops if a rule is violated, without logging anything. -/
def require {α : Type} (result : Except TypeError α) : Validation α := ⟨[], result⟩

variable {α β : Type}

/-- The result of two steps is that of the steps as they follow each other. -/
theorem result_bind (v : Validation α) (next : α → Validation β) :
    (v >>= next).result = v.result >>= fun a => (next a).result := by
  cases h : v.result <;> simp [bind, andThen, Except.bind, h]

/-- The second step logs after the first one, and only if the first one did not stop. -/
theorem log_bind (v : Validation α) (next : α → Validation β) :
    (v >>= next).log = v.log ++ (match v.result with
      | .ok a => (next a).log
      | .error _ => []) := by
  cases h : v.result <;> simp [bind, andThen, h]

@[simp] theorem result_pure (a : α) : (pure a : Validation α).result = .ok a := rfl

@[simp] theorem log_pure (a : α) : (pure a : Validation α).log = [] := rfl

@[simp] theorem result_record (r : LogRecord) : (record r).result = .ok () := rfl

@[simp] theorem log_record (r : LogRecord) : (record r).log = [r] := rfl

@[simp] theorem result_require (result : Except TypeError α) : (require result).result = result :=
  rfl

@[simp] theorem log_require (result : Except TypeError α) : (require result).log = [] := rfl

end Validation

/-! ## What a call invokes -/

/-- The parameters a call has to fit. -/
structure CallTarget where
  callee : Callee
  params : List Ty
  nullRule : NullRule

namespace TypeSystem

/-- The method of `t` with the name most like `name`. -/
def suggestMethod (ts : TypeSystem) (t : Ty) (name : Symbol) : Option Symbol :=
  (ts.resolve? t).bind fun c => name.closest c.methodNames

/-- The method that a call on a receiver of type `t` invokes. -/
def resolveMethod (ts : TypeSystem) (t : Ty) (name : Symbol) : Except TypeError Method :=
  if t.isPrimitive then .error (.notInstantiableReceiver t.text)
  else match ts.method? t name with
    | some m => .ok m
    | none => .error (.unknownMethod t.text name.text ((ts.suggestMethod t name).map (·.text)))

/-- The constructor parameters of a type that is to be constructed. -/
def resolveConstructor (ts : TypeSystem) (t : Ty) : Except TypeError (List Ty) :=
  match ts.constructor? t with
  | some params => .ok params
  | none => .error (.notInstantiableType t.text)

end TypeSystem

namespace CallTarget

/-- The target of a method call: `null` may be passed for anything. -/
def ofMethod (receiver : Ty) (m : Method) : CallTarget :=
  ⟨.method receiver.text m.name.text, m.params, .anyParameter⟩

/-- The target of a constructor call: `null` may be passed for references only. -/
def ofConstructor (type : Ty) (params : List Ty) : CallTarget :=
  ⟨.constructor type.text, params, .referenceParameters⟩

/-- Compares the number of arguments to that of the parameters. -/
def checkArity (target : CallTarget) (args : List Expr) : Except TypeError Unit :=
  if target.params.length = args.length then .ok ()
  else .error (.arityMismatch target.callee target.params.length args.length)

/-- Compares one argument to its parameter. The error lists all parameters, and the static types of
all arguments. -/
def checkArgument (ts : TypeSystem) (target : CallTarget) (argTypes : List Ty) (param arg : Ty) :
    Except TypeError Unit :=
  if ts.isAssignable target.nullRule param arg then .ok ()
  else .error (.argumentTypeMismatch target.callee (target.params.map Ty.text)
    (argTypes.map Ty.text))

end CallTarget

/-! ## Validation -/

namespace Expr

mutual

/-- Validates an expression and everything in it but receivers. -/
def validate (ts : TypeSystem) : Expr → Validation Unit
  | .var .. | .lit .. | .null => pure ()
  | .call receiver name args => do
    Validation.record (.checkingMethodCall (.call receiver name args))
    let m ← Validation.require (ts.resolveMethod (receiver.staticType ts) name)
    Validation.record (.resolved (receiver.staticType ts) name m.returns)
    let target := CallTarget.ofMethod (receiver.staticType ts) m
    Validation.require (target.checkArity args)
    validateArgs ts target (args.map (staticType ts)) 0 target.params args
  | .new type args => do
    Validation.record (.checkingConstructorCall (.new type args))
    let params ← Validation.require (ts.resolveConstructor type)
    let target := CallTarget.ofConstructor type params
    Validation.require (target.checkArity args)
    validateArgs ts target (args.map (staticType ts)) 0 target.params args

/-- Validates the arguments from `index` on, each against its parameter. -/
def validateArgs (ts : TypeSystem) (target : CallTarget) (argTypes : List Ty) (index : Nat) :
    List Ty → List Expr → Validation Unit
  | param :: params, arg :: args => do
    validate ts arg
    Validation.record (.argument index target.callee (arg.staticType ts) param)
    Validation.require (target.checkArgument ts argTypes param (arg.staticType ts))
    validateArgs ts target argTypes (index + 1) params args
  | _, _ => pure ()

end

/-- The first rule that an expression violates, if any. -/
def check (ts : TypeSystem) (e : Expr) : Except TypeError Unit := (e.validate ts).result

/-- What checking an expression leaves in the log. -/
def checkLog (ts : TypeSystem) (e : Expr) : List LogRecord := (e.validate ts).log

end Expr
end Nominal
