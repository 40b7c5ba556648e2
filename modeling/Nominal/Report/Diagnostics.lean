import Nominal.Report.Style
import Nominal.Text.Utf8

/-!
# Diagnostics

A record of the messages emitted so far: how many there were of each level, and the octets that
were sent to the medium. Every message stands on its own: it begins and ends in the default style.
-/

namespace Nominal

/-- How serious a message is. -/
inductive MessageLevel where
  | error
  | note
  deriving DecidableEq, Repr

namespace MessageLevel

/-- The colour that a message of this level begins with. -/
def colour : MessageLevel → Colour
  | .error => .red
  | .note => .cyan

/-- The word that a message of this level begins with. -/
def name : MessageLevel → String
  | .error => "error"
  | .note => "note"

end MessageLevel

/-- What was emitted to `medium` so far. -/
structure Diagnostics where
  medium : Medium
  errors : Nat := 0
  notes : Nat := 0
  octets : List UInt8 := []
  deriving DecidableEq, Repr

namespace Diagnostics

/-- Diagnostics to which nothing was emitted yet. -/
def new (medium : Medium) : Diagnostics := { medium }

/-- The number of messages of a level. -/
def count (d : Diagnostics) : MessageLevel → Nat
  | .error => d.errors
  | .note => d.notes

/-- Whether an error was emitted. Notes alone do not count. -/
def errored (d : Diagnostics) : Bool := 0 < d.errors

/-- The output so far, as a text. -/
def contents (d : Diagnostics) : String := Utf8.decode d.octets

/-- Sends octets to the medium. They need not be a text. -/
def writeOctets (d : Diagnostics) (octets : List UInt8) : Diagnostics :=
  { d with octets := d.octets ++ octets }

/-- Sends styled output to the medium. -/
def run (d : Diagnostics) (commands : List Command) : Diagnostics :=
  d.writeOctets (Utf8.encode (Command.renderAll d.medium commands))

/-- The output of a message: its level in bold and in the level's colour, then the message in the
default style. -/
def messageCommands (level : MessageLevel) (message : String) : List Command :=
  [.reset, .setStyle { colour := level.colour }, .setStyle { colour := level.colour, bold := true },
    .write (level.name ++ ": "),
    .setStyle { bold := true }, .setStyle {},
    .write (message ++ "\n"),
    .reset]

/-- Counts a message. -/
def tally (d : Diagnostics) : MessageLevel → Diagnostics
  | .error => { d with errors := d.errors + 1 }
  | .note => { d with notes := d.notes + 1 }

/-- Emits a message. -/
def emit (d : Diagnostics) (level : MessageLevel) (message : String) : Diagnostics :=
  (d.run (messageCommands level message)).tally level

/-- Emits an error. -/
def error (d : Diagnostics) (message : String) : Diagnostics := d.emit .error message

/-- Emits a note. -/
def note (d : Diagnostics) (message : String) : Diagnostics := d.emit .note message

/-- The closing line for a number of errors. -/
def statisticsText : Nat → String
  | 0 => "Type checking finished successfully"
  | 1 => "Type checking aborted due to an error"
  | n => "Type checking aborted due to " ++ toString n ++ " errors"

/-- The output of the closing line: in bold, green after a success and red after errors. -/
def statisticsCommands (errors : Nat) : List Command :=
  [.reset, .setStyle { bold := true },
    .setStyle { bold := true, colour := some (if errors = 0 then .green else .red) },
    .write (statisticsText errors ++ "\n"),
    .reset]

/-- Writes the closing line. It counts as no message. -/
def writeStatistics (d : Diagnostics) : Diagnostics :=
  d.run (statisticsCommands d.errors)

end Diagnostics
end Nominal
