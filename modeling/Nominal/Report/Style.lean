/-!
# Styled output

Output is a sequence of commands: texts, and changes of the style they are shown in. A plain medium
shows the texts alone; a terminal gets an escape sequence for every change.
-/

namespace Nominal

/-- The colours that messages use. -/
inductive Colour where
  | red
  | green
  | cyan
  deriving DecidableEq, Repr

/-- How text is shown; no colour means the default one. -/
structure Style where
  colour : Option Colour := none
  bold : Bool := false
  deriving DecidableEq, Repr

/-- A step of styled output. -/
inductive Command where
  /-- Back to the default style. -/
  | reset
  | setStyle (style : Style)
  | write (text : String)
  deriving DecidableEq, Repr

/-- What shows the output. -/
inductive Medium where
  | plain
  | terminal
  deriving DecidableEq, Repr

/-- Whether a medium shows styles. -/
def Medium.supportsColour : Medium → Bool
  | .plain => false
  | .terminal => true

/-- The escape sequence that selects a colour. -/
def Colour.sequence : Colour → String
  | .red => "\x1b[31m"
  | .green => "\x1b[32m"
  | .cyan => "\x1b[36m"

/-- The escape sequence of the default style. -/
def Style.resetSequence : String := "\x1b[0m"

/-- The escape sequences that select a style, whatever the style was before. -/
def Style.sequence (s : Style) : String :=
  resetSequence ++ (if s.bold then "\x1b[1m" else "") ++ (s.colour.map Colour.sequence).getD ""

/-- What a medium is sent for a command. -/
def Command.render : Medium → Command → String
  | _, .write text => text
  | .plain, _ => ""
  | .terminal, .reset => Style.resetSequence
  | .terminal, .setStyle style => style.sequence

/-- What a medium is sent for a sequence of commands. -/
def Command.renderAll (medium : Medium) (commands : List Command) : String :=
  String.join (commands.map (·.render medium))

end Nominal
