import Nominal.Report.Diagnostics
import Nominal.Typing.Check

/-!
# Reporting type errors

Checks an expression and emits the error, if any, with a note on the name that was probably meant.
-/

namespace Nominal

/-- What reporting an expression came to. -/
structure Reported where
  wellTyped : Bool
  diagnostics : Diagnostics
  log : List LogRecord

namespace Diagnostics

/-- The wording of the note on a name that was probably meant. -/
def suggestionText (name : String) : String := "did you mean `" ++ name ++ "`?"

/-- Emits a type error, and a note if it comes with a suggestion. -/
def reportError (d : Diagnostics) (e : TypeError) : Diagnostics :=
  match e.suggestion? with
  | some name => (d.error e.message).note (suggestionText name)
  | none => d.error e.message

/-- Checks an expression and emits its error. -/
def checkAndReport (d : Diagnostics) (ts : TypeSystem) (e : Expr) : Reported :=
  match e.check ts with
  | .ok () => { wellTyped := true, diagnostics := d, log := e.checkLog ts }
  | .error err =>
    { wellTyped := false, diagnostics := d.reportError err,
      log := e.checkLog ts ++ [.illTyped e err.kind] }

end Diagnostics
end Nominal
