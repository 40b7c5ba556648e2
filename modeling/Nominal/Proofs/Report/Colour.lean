import Nominal.Proofs.Report.History

/-!
# Colour

The same calls on diagnostics over a plain medium and over a terminal. The output of the terminal is
read back from its characters alone, the way a terminal reads it (`signs`, `Screen`).

* `Command.readsAs_renderAll` — the signs that are read are those of the commands that were sent;
* `Command.eraseStyles_renderAll` — styled output without its style sequences is plain output;
* `Screen.ofText_renderAll` — each text stands on the screen in the style that was set last;
* `Screen.execute_output` — that makes prefixes bold and coloured, and everything else plain.

Texts with the escape character are left out, since they can hold style sequences of their own.

Main statement: `eraseStyles_run_and_ofText_run`.
-/

namespace Nominal

/-! ## Reading terminal output

A style sequence is the escape character, `[`, digits and semicolons, and `m`. Whatever is not a
complete one is text. -/

/-- What is read from terminal output: a character that is shown, or a style sequence with the codes
between its bracket and its last character. -/
inductive Sign where
  | char (c : Char)
  | style (codes : List Char)
  deriving DecidableEq, Repr

/-- The part of a style sequence that was read already. -/
inductive Pending where
  | nothing
  | escape
  | bracket (codes : List Char)
  deriving DecidableEq, Repr

namespace Pending

/-- The characters of a sequence that remains incomplete. -/
def held : Pending → List Char
  | .nothing => []
  | .escape => ['\x1b']
  | .bracket codes => '\x1b' :: '[' :: codes

/-- Gives up the sequence, at a character that does not continue it. -/
def giveUp (p : Pending) (c : Char) : List Sign × Pending :=
  if c = '\x1b' then (p.held.map .char, .escape) else ((p.held ++ [c]).map .char, .nothing)

/-- Reads a character. -/
def next (p : Pending) (c : Char) : List Sign × Pending :=
  match p with
  | .nothing => p.giveUp c
  | .escape => if c = '[' then ([], .bracket []) else p.giveUp c
  | .bracket codes =>
    if c = 'm' then ([.style codes], .nothing)
    else if c.isDigit ∨ c = ';' then ([], .bracket (codes ++ [c]))
    else p.giveUp c

end Pending

/-- Reads terminal output. -/
def signs (p : Pending) : List Char → List Sign
  | [] => p.held.map .char
  | c :: text => (p.next c).1 ++ signs (p.next c).2 text

/-- The character that a sign shows. -/
def Sign.char? : Sign → Option Char
  | .char c => some c
  | .style _ => none

/-- A text without its style sequences. -/
def eraseStyles (text : String) : String :=
  String.ofList ((signs .nothing text.toList).filterMap Sign.char?)

/-- The style after a code. A code that selects nothing a `Style` can tell leaves it as it is. -/
def Style.select (s : Style) : List Char → Style
  | [] | ['0'] => {}
  | ['1'] => { s with bold := true }
  | ['2', '2'] => { s with bold := false }
  | ['3', '1'] => { s with colour := some .red }
  | ['3', '2'] => { s with colour := some .green }
  | ['3', '6'] => { s with colour := some .cyan }
  | ['3', '9'] => { s with colour := none }
  | _ => s

/-- A character on a screen. -/
structure Cell where
  char : Char
  style : Style
  deriving DecidableEq, Repr

/-- What a terminal has shown so far, and the style of what it shows next. -/
structure Screen where
  cells : List Cell := []
  style : Style := {}
  deriving DecidableEq, Repr

namespace Screen

/-- Shows a sign. -/
def read (s : Screen) : Sign → Screen
  | .char c => { s with cells := s.cells ++ [⟨c, s.style⟩] }
  | .style codes => { s with style := (codes.splitOn ';').foldl Style.select s.style }

/-- What a terminal shows that begins in the default style. -/
def ofText (text : String) : Screen := (signs .nothing text.toList).foldl read {}

end Screen

/-! ## What is read from styled output -/

/-- `ReadsAs text read`: as a text of its own, `text` is read as `read` whatever follows it. -/
def ReadsAs (text : List Char) (read : List Sign) : Prop :=
  ∀ rest, signs .nothing (text ++ rest) = read ++ signs .nothing rest

theorem ReadsAs.nil : ReadsAs [] [] := fun _ => rfl

theorem ReadsAs.append {text text' : List Char} {read read' : List Sign} (h : ReadsAs text read)
    (h' : ReadsAs text' read') : ReadsAs (text ++ text') (read ++ read') := by
  intro rest
  rw [List.append_assoc, h, h', List.append_assoc]

theorem ReadsAs.signs_eq {text : List Char} {read : List Sign} (h : ReadsAs text read) :
    signs .nothing text = read := by
  have hall := h []
  rw [List.append_nil] at hall
  rw [hall]
  show read ++ [] = read
  exact List.append_nil read

theorem readsAs_of_notMem {text : List Char} (h : '\x1b' ∉ text) :
    ReadsAs text (text.map .char) := by
  intro rest
  induction text with
  | nil => rfl
  | cons c text ih =>
      obtain ⟨hc, htext⟩ := not_or.mp (mt List.mem_cons.mpr h)
      have hnext : Pending.nothing.next c = ([.char c], .nothing) := if_neg (Ne.symm hc)
      rw [List.cons_append, signs, hnext, ih htext]
      rfl

theorem readsAs_resetSequence : ReadsAs Style.resetSequence.toList [.style ['0']] := fun _ => rfl

theorem readsAs_boldSequence : ReadsAs "\x1b[1m".toList [.style ['1']] := fun _ => rfl

/-- The codes of a colour. -/
def Colour.codes : Colour → List Char
  | .red => ['3', '1']
  | .green => ['3', '2']
  | .cyan => ['3', '6']

theorem Colour.readsAs_sequence (c : Colour) : ReadsAs c.sequence.toList [.style c.codes] := by
  cases c with
  | red => exact fun _ => rfl
  | green => exact fun _ => rfl
  | cyan => exact fun _ => rfl

/-- The signs that select a style. -/
def Style.signs (s : Style) : List Sign :=
  [.style ['0']] ++ (if s.bold then [.style ['1']] else []) ++
    (s.colour.map fun c => [Sign.style c.codes]).getD []

theorem Style.readsAs_sequence (s : Style) : ReadsAs s.sequence.toList s.signs := by
  obtain ⟨colour, bold⟩ := s
  rw [Style.sequence, String.toList_append, String.toList_append]
  refine (readsAs_resetSequence.append ?_).append ?_
  · cases bold with
    | false => exact ReadsAs.nil
    | true => exact readsAs_boldSequence
  · cases colour with
    | none => exact ReadsAs.nil
    | some c => exact c.readsAs_sequence

namespace Command

/-- A command that writes no escape character. -/
def Clean : Command → Prop
  | .write text => '\x1b' ∉ text.toList
  | _ => True

/-- The signs of a command. -/
def signs : Command → List Sign
  | .reset => [.style ['0']]
  | .setStyle style => style.signs
  | .write text => text.toList.map .char

theorem readsAs_render {c : Command} (h : c.Clean) :
    ReadsAs (c.render .terminal).toList c.signs := by
  cases c with
  | reset => exact readsAs_resetSequence
  | setStyle style => exact style.readsAs_sequence
  | write text => exact readsAs_of_notMem h

theorem renderAll_cons (medium : Medium) (c : Command) (commands : List Command) :
    renderAll medium (c :: commands) = c.render medium ++ renderAll medium commands := by
  rw [renderAll, List.map_cons, String.join_cons]
  rfl

theorem readsAs_renderAll {commands : List Command} (h : ∀ c ∈ commands, c.Clean) :
    ReadsAs (renderAll .terminal commands).toList (commands.flatMap signs) := by
  induction commands with
  | nil => exact ReadsAs.nil
  | cons c commands ih =>
      obtain ⟨hc, hcommands⟩ := List.forall_mem_cons.mp h
      rw [renderAll_cons, String.toList_append]
      exact (readsAs_render hc).append (ih hcommands)

/-! ## Deleting the style sequences -/

theorem filterMap_char?_signs (c : Command) :
    c.signs.filterMap Sign.char? = (c.render .plain).toList := by
  cases c with
  | reset => rfl
  | setStyle style =>
      obtain ⟨_ | colour, _ | _⟩ := style <;> rfl
  | write text =>
      show (text.toList.map Sign.char).filterMap Sign.char? = text.toList
      rw [List.filterMap_map]
      exact List.filterMap_some

theorem filterMap_char?_flatMap_signs (commands : List Command) :
    (commands.flatMap signs).filterMap Sign.char? = (renderAll .plain commands).toList := by
  induction commands with
  | nil => rfl
  | cons c commands ih =>
      rw [List.flatMap_cons, List.filterMap_append, filterMap_char?_signs, ih, renderAll_cons,
        String.toList_append]

/-- Styled output without its style sequences is plain output. -/
theorem eraseStyles_renderAll {commands : List Command} (h : ∀ c ∈ commands, c.Clean) :
    eraseStyles (renderAll .terminal commands) = renderAll .plain commands := by
  rw [eraseStyles, (readsAs_renderAll h).signs_eq, filterMap_char?_flatMap_signs,
    String.ofList_toList]

/-- A text that selects a style itself is not clean, and does not come back. -/
example : eraseStyles (renderAll .terminal [.write "\x1b[1;31ma\x1b[x"]) = "a\x1b[x" := by
  decide

end Command

/-! ## The screen -/

/-- A text in one style. -/
def Style.paint (s : Style) (text : String) : List Cell := text.toList.map fun c => ⟨c, s⟩

namespace Screen

/-- Executes a command. The style that is set does not depend on the one before. -/
def execute (s : Screen) : Command → Screen
  | .reset => { s with style := {} }
  | .setStyle style => { s with style }
  | .write text => { s with cells := s.cells ++ s.style.paint text }

theorem foldl_read_map_char (s : Screen) (text : List Char) :
    (text.map Sign.char).foldl read s =
      { s with cells := s.cells ++ text.map (⟨·, s.style⟩) } := by
  induction text generalizing s with
  | nil => simp
  | cons c text ih => simp [ih, read]

theorem foldl_read_signs (s : Screen) (c : Command) :
    c.signs.foldl read s = s.execute c := by
  cases c with
  | reset => rfl
  | setStyle style =>
      -- A sequence begins with a reset, so the colour and the weight of `s` are gone.
      obtain ⟨_ | colour, _ | _⟩ := style
      · rfl
      · rfl
      · cases colour <;> rfl
      · cases colour <;> rfl
  | write text => exact foldl_read_map_char s text.toList

theorem foldl_read_flatMap_signs (s : Screen) (commands : List Command) :
    (commands.flatMap Command.signs).foldl read s = commands.foldl execute s := by
  induction commands generalizing s with
  | nil => rfl
  | cons c commands ih =>
      rw [List.flatMap_cons, List.foldl_append, foldl_read_signs, ih, List.foldl_cons]

/-- A screen shows styled output as if the commands were executed on it. -/
theorem ofText_renderAll {commands : List Command} (h : ∀ c ∈ commands, c.Clean) :
    ofText (Command.renderAll .terminal commands) = commands.foldl execute {} := by
  rw [ofText, (Command.readsAs_renderAll h).signs_eq, foldl_read_flatMap_signs]

end Screen

open Diagnostics ReportStep

/-! ## Clean calls -/

theorem escape_notMem_toString (n : Nat) : '\x1b' ∉ (toString n).toList := by
  intro hmem
  have hdigits : '\x1b' ∈ Nat.toDigits 10 n := by
    simpa [Nat.repr] using hmem
  exact absurd (Nat.isDigit_of_mem_toDigits (by decide) (by decide) hdigits) (by decide)

theorem escape_notMem_statisticsText (errors : Nat) :
    '\x1b' ∉ (statisticsText errors).toList := by
  match errors with
  | 0 => decide
  | 1 => decide
  | n + 2 => simpa [statisticsText] using escape_notMem_toString (n + 2)

theorem clean_messageCommands {m : Message} (h : '\x1b' ∉ m.text.toList) :
    ∀ c ∈ messageCommands m.level m.text, c.Clean := by
  obtain ⟨level, text⟩ := m
  cases level <;> simpa [messageCommands, Command.Clean, MessageLevel.name] using h

theorem clean_statisticsCommands (errors : Nat) : ∀ c ∈ statisticsCommands errors, c.Clean := by
  simpa [statisticsCommands, Command.Clean] using escape_notMem_statisticsText errors

namespace ReportStep

theorem clean_commands {step : ReportStep} (h : ∀ m ∈ step.messages, '\x1b' ∉ m.text.toList)
    (errors : Nat) : ∀ c ∈ step.commands errors, c.Clean := by
  obtain rfl | ⟨-, hcommands, -⟩ := step.next_cases
  · exact clean_statisticsCommands errors
  · intro c hc
    rw [hcommands] at hc
    obtain ⟨m, hm, hcm⟩ := List.mem_flatMap.mp hc
    exact clean_messageCommands (h m hm) c hcm

theorem clean_output {steps : List ReportStep}
    (h : ∀ m ∈ steps.flatMap messages, '\x1b' ∉ m.text.toList) (errors : Nat) :
    ∀ c ∈ output errors steps, c.Clean := by
  induction steps generalizing errors with
  | nil => simp [output]
  | cons step steps ih =>
      rw [List.flatMap_cons, List.forall_mem_append] at h
      exact List.forall_mem_append.mpr ⟨clean_commands h.1 errors, ih h.2 _⟩

end ReportStep

/-! ## What the calls show -/

/-- The prefix of a message: errors begin in bold red, notes in bold cyan. -/
def MessageLevel.painted : MessageLevel → List Cell
  | .error => Style.paint { colour := some .red, bold := true } "error: "
  | .note => Style.paint { colour := some .cyan, bold := true } "note: "

/-- A message as it is shown: after the prefix it is in the default style. -/
def Message.painted (m : Message) : List Cell :=
  m.level.painted ++ Style.paint {} (m.text ++ "\n")

namespace ReportStep

/-- What a call shows: the closing line in bold, red after errors and else green, or messages. -/
def painted (d : Diagnostics) : ReportStep → List Cell
  | .statistics =>
    Style.paint { colour := some (if d.errored then .red else .green), bold := true }
      (statisticsText (d.count .error) ++ "\n")
  | step => step.messages.flatMap Message.painted

/-- What a sequence of calls shows. -/
def paintedRun : Diagnostics → List ReportStep → List Cell
  | _, [] => []
  | d, step :: steps => step.painted d ++ paintedRun (step.next d) steps

end ReportStep

namespace Screen

/-- A message leaves the default style behind. -/
theorem execute_messageCommands (cells : List Cell) (m : Message) :
    (messageCommands m.level m.text).foldl execute { cells } =
      { cells := cells ++ m.painted } := by
  obtain ⟨level, text⟩ := m
  cases level <;>
    simp [messageCommands, execute, Message.painted, MessageLevel.painted, MessageLevel.name,
      MessageLevel.colour]

theorem execute_messagesCommands (cells : List Cell) (sent : List Message) :
    (messagesCommands sent).foldl execute { cells } =
      { cells := cells ++ sent.flatMap Message.painted } := by
  induction sent generalizing cells with
  | nil => simp [messagesCommands]
  | cons m sent ih =>
      have hrest := ih (cells ++ m.painted)
      rw [List.append_assoc, ← List.flatMap_cons, ← execute_messageCommands,
        ← List.foldl_append] at hrest
      exact hrest

theorem execute_statisticsCommands (cells : List Cell) (d : Diagnostics) :
    (statisticsCommands d.errors).foldl execute { cells } =
      { cells := cells ++ statistics.painted d } := by
  have hcolour : (if d.errors = 0 then Colour.green else .red) =
      if d.errored then .red else .green := by
    cases h : d.errors <;> simp [errored, h]
  simp only [statisticsCommands, hcolour]
  rfl

theorem execute_commands (cells : List Cell) (d : Diagnostics) (step : ReportStep) :
    (step.commands (d.count .error)).foldl execute { cells } =
      { cells := cells ++ step.painted d } := by
  cases step with
  | statistics => exact execute_statisticsCommands cells d
  | _ => exact execute_messagesCommands cells _

theorem execute_output (cells : List Cell) (d : Diagnostics) (steps : List ReportStep) :
    (output (d.count .error) steps).foldl execute { cells } =
      { cells := cells ++ paintedRun d steps } := by
  induction steps generalizing cells d with
  | nil => simp [output, paintedRun]
  | cons step steps ih =>
      have hrest := ih (cells ++ step.painted d) (step.next d)
      rw [count_next, ← execute_commands, ← List.foldl_append, List.append_assoc] at hrest
      exact hrest

end Screen

/-! ## Both media -/

/-- Colour changes how a report looks and not what it says: after every call of a sequence whose
messages have no escape character, the terminal output without its style sequences is the plain
output, and a terminal shows each part of it in its own style and is back in the default style. -/
theorem eraseStyles_run_and_ofText_run (steps : List ReportStep)
    (hclean : ∀ m ∈ steps.flatMap messages, '\x1b' ∉ m.text.toList) (n : Nat) :
    let plain := ReportStep.run (.new .plain) (steps.take n)
    let coloured := ReportStep.run (.new .terminal) (steps.take n)
    eraseStyles coloured.contents = plain.contents ∧
      Screen.ofText coloured.contents =
        { cells := paintedRun (.new .terminal) (steps.take n), style := {} } := by
  intro plain coloured
  have houtput : ∀ c ∈ output 0 (steps.take n), c.Clean := by
    apply clean_output
    intro m hm
    obtain ⟨step, hstep, hmstep⟩ := List.mem_flatMap.mp hm
    exact hclean m (List.mem_flatMap.mpr ⟨step, List.mem_of_mem_take hstep, hmstep⟩)
  have hcoloured : coloured.contents = Command.renderAll .terminal (output 0 (steps.take n)) :=
    contents_run .terminal (steps.take n)
  constructor
  · rw [hcoloured, Command.eraseStyles_renderAll houtput]
    exact (contents_run .plain (steps.take n)).symm
  · rw [hcoloured, Screen.ofText_renderAll houtput]
    exact Screen.execute_output [] (.new .terminal) (steps.take n)

/-- An error and the closing line after it, with a note still to come. -/
theorem eraseStyles_run_and_ofText_run_of_error :
    let steps := [ReportStep.error "a", .statistics, .note "b"]
    let plain := ReportStep.run (.new .plain) (steps.take 2)
    let coloured := ReportStep.run (.new .terminal) (steps.take 2)
    (∀ m ∈ steps.flatMap messages, '\x1b' ∉ m.text.toList) ∧
      eraseStyles coloured.contents = plain.contents ∧
      Screen.ofText coloured.contents =
        { cells := paintedRun (.new .terminal) (steps.take 2), style := {} } := by
  intro steps plain coloured
  have hclean : ∀ m ∈ steps.flatMap messages, '\x1b' ∉ m.text.toList := by
    simp [steps, messages]
  exact ⟨hclean, eraseStyles_run_and_ofText_run steps hclean 2⟩

end Nominal
