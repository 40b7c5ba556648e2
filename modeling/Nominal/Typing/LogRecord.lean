import Nominal.Expr.Basic
import Nominal.Typing.Error

/-!
# Log records

What building and checking leave in the log, as data; the wording is made from it afterwards.
-/

namespace Nominal

/-- How much detail a log has to show for a record to appear. -/
inductive LogLevel where
  | debug
  | trace
  deriving DecidableEq, Repr

/-- The name of a level. -/
def LogLevel.name : LogLevel → String
  | .debug => "DEBUG"
  | .trace => "TRACE"

/-- A record in the log. -/
inductive LogRecord where
  /-- A type system of `count` classes was built. -/
  | built (count : Nat)
  /-- The check of a method call begins. -/
  | checkingMethodCall (call : Expr)
  /-- The check of a constructor call begins. -/
  | checkingConstructorCall (call : Expr)
  /-- The method that a call invokes was found. -/
  | resolved (receiver : Ty) (method : Symbol) (returns : Ty)
  /-- The argument at `index` was validated and is now compared to its parameter. -/
  | argument (index : Nat) (callee : Callee) (type param : Ty)
  /-- An error was reported. -/
  | illTyped (expr : Expr) (kind : TypeErrorKind)
  deriving DecidableEq, Repr

namespace LogRecord

/-- The level of a record. -/
def level : LogRecord → LogLevel
  | .argument .. => .trace
  | _ => .debug

/-- The wording of a record. -/
def message : LogRecord → String
  | .built count => "built type system with " ++ toString count ++ " classes"
  | .checkingMethodCall call => "checking method call `" ++ call.text ++ "`"
  | .checkingConstructorCall call => "checking constructor call `" ++ call.text ++ "`"
  | .resolved receiver method returns =>
    "resolved " ++ receiver.text ++ "." ++ method.text ++ " to a method returning " ++ returns.text
  | .argument index callee type param =>
    "argument " ++ toString index ++ " of " ++ callee.text ++ ": " ++ type.text ++
      " for parameter of type " ++ param.text
  | .illTyped expr kind => "`" ++ expr.text ++ "` is ill-typed: " ++ kind.name

/-- A record as a line of the log. -/
def line (r : LogRecord) : String := r.level.name ++ ": " ++ r.message

end LogRecord
end Nominal
