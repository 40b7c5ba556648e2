import Nominal.Typing.Report

/-!
# Reports and their history

A report is made by a sequence of calls on one `Diagnostics` (`ReportStep`). The counters, the
output and the answers are kept by separate code; here each is derived from the calls alone:

* `ReportStep.count_run` — the counters are the numbers of messages that the calls send;
* `ReportStep.grows_run_steps` — every medium gets the same commands;
* `Diagnostics.Shows.run` — plain output is the `transcript` of the calls;
* `ReportStep.count_false_answers` — every refused expression was counted as one error.

Main statement: `run_records_history`.
-/

namespace Nominal

/-! ## What is sent -/

/-- A message of a report. -/
structure Message where
  level : MessageLevel
  text : String
  deriving DecidableEq, Repr

namespace Message

/-- The line of a message in plain output. -/
def line (m : Message) : String := m.level.name ++ ": " ++ m.text ++ "\n"

/-- The number of messages of a level. -/
def countOf (level : MessageLevel) (messages : List Message) : Nat :=
  messages.countP (·.level = level)

theorem countOf_append (level : MessageLevel) (first second : List Message) :
    countOf level (first ++ second) = countOf level first + countOf level second :=
  List.countP_append

end Message

/-- The messages on a type error: its wording, and for an unknown method with a suggestion a note
that names the suggestion. -/
def TypeError.report : TypeError → List Message
  | err@(.unknownMethod _ _ (some name)) =>
    [⟨.error, err.message⟩, ⟨.note, "did you mean `" ++ name ++ "`?"⟩]
  | err => [⟨.error, err.message⟩]

/-- The messages on the outcome of a check. -/
def outcomeReport : Except TypeError Unit → List Message
  | .ok () => []
  | .error err => err.report

/-- A call on diagnostics. -/
inductive ReportStep where
  | check (ts : TypeSystem) (e : Expr)
  | emit (level : MessageLevel) (text : String)
  | error (text : String)
  | note (text : String)
  | statistics

namespace ReportStep

/-- The diagnostics after a call. -/
def next (d : Diagnostics) : ReportStep → Diagnostics
  | .check ts e => (d.checkAndReport ts e).diagnostics
  | .emit level text => d.emit level text
  | .error text => d.error text
  | .note text => d.note text
  | .statistics => d.writeStatistics

/-- The answer of a call, if it gives one: whether the expression is well typed. -/
def answer? (d : Diagnostics) : ReportStep → Option Bool
  | .check ts e => some (d.checkAndReport ts e).wellTyped
  | _ => none

/-- The diagnostics after a sequence of calls. -/
def run : Diagnostics → List ReportStep → Diagnostics :=
  List.foldl next

/-- The answers to a sequence of calls. -/
def answers : Diagnostics → List ReportStep → List Bool
  | _, [] => []
  | d, step :: steps => (step.answer? d).toList ++ answers (step.next d) steps

/-- The messages that a call sends, whatever was sent before. -/
def messages : ReportStep → List Message
  | .check ts e => outcomeReport (e.check ts)
  | .emit level text => [⟨level, text⟩]
  | .error text => [⟨.error, text⟩]
  | .note text => [⟨.note, text⟩]
  | .statistics => []

/-- What a call adds to plain output, after so many errors. -/
def written (errors : Nat) : ReportStep → String
  | .statistics => Diagnostics.statisticsText errors ++ "\n"
  | step => String.join (step.messages.map Message.line)

/-- The plain output of a sequence of calls, after so many errors. -/
def transcript : Nat → List ReportStep → String
  | _, [] => ""
  | errors, step :: steps =>
    step.written errors ++ transcript (errors + Message.countOf .error step.messages) steps

/-- The output of messages. -/
def messagesCommands (sent : List Message) : List Command :=
  sent.flatMap fun m => Diagnostics.messageCommands m.level m.text

/-- The output of a call, after so many errors. -/
def commands (errors : Nat) : ReportStep → List Command
  | .statistics => Diagnostics.statisticsCommands errors
  | step => messagesCommands step.messages

/-- The output of a sequence of calls, after so many errors. -/
def output : Nat → List ReportStep → List Command
  | _, [] => []
  | errors, step :: steps =>
    step.commands errors ++ output (errors + Message.countOf .error step.messages) steps

end ReportStep

open Diagnostics ReportStep

variable {d : Diagnostics}

/-! ## What a call does

A call sends its messages one after the other, or it writes the closing line. -/

/-- Emits messages one after the other. -/
def Diagnostics.send (d : Diagnostics) (sent : List Message) : Diagnostics :=
  sent.foldl (fun d m => d.emit m.level m.text) d

/-- An error that is reported is sent with its note. -/
theorem reportError_eq_send (d : Diagnostics) (err : TypeError) :
    d.reportError err = d.send err.report := by
  cases err with
  | unknownMethod type method suggestion =>
      cases suggestion with
      | none => rfl
      | some name => rfl
  | _ => rfl

theorem checkAndReport_of_ok {ts : TypeSystem} {e : Expr} (h : e.check ts = .ok ())
    (d : Diagnostics) :
    (d.checkAndReport ts e).wellTyped = true ∧ (d.checkAndReport ts e).diagnostics = d := by
  unfold checkAndReport
  rw [h]
  exact ⟨rfl, rfl⟩

theorem checkAndReport_of_error {ts : TypeSystem} {e : Expr} {err : TypeError}
    (h : e.check ts = .error err) (d : Diagnostics) :
    (d.checkAndReport ts e).wellTyped = false ∧
      (d.checkAndReport ts e).diagnostics = d.send err.report := by
  unfold checkAndReport
  rw [h, ← reportError_eq_send]
  exact ⟨rfl, rfl⟩

theorem ReportStep.next_check (d : Diagnostics) (ts : TypeSystem) (e : Expr) :
    (check ts e).next d = d.send (check ts e).messages := by
  show (d.checkAndReport ts e).diagnostics = d.send (outcomeReport (e.check ts))
  cases h : e.check ts with
  | ok => exact (checkAndReport_of_ok h d).2
  | error err => exact (checkAndReport_of_error h d).2

/-- A call writes the closing line, or else what it does and writes is what its messages say. -/
theorem ReportStep.next_cases (step : ReportStep) :
    step = statistics ∨
      (∀ d, step.next d = d.send step.messages) ∧
      (∀ errors, step.commands errors = messagesCommands step.messages) ∧
      ∀ errors, step.written errors = String.join (step.messages.map Message.line) := by
  cases step with
  | check ts e => exact .inr ⟨fun d => next_check d ts e, fun _ => rfl, fun _ => rfl⟩
  | emit level text => exact .inr ⟨fun _ => rfl, fun _ => rfl, fun _ => rfl⟩
  | error text => exact .inr ⟨fun _ => rfl, fun _ => rfl, fun _ => rfl⟩
  | note text => exact .inr ⟨fun _ => rfl, fun _ => rfl, fun _ => rfl⟩
  | statistics => exact .inl rfl

/-! ## Counters -/

theorem count_emit (d : Diagnostics) (m : Message) (level : MessageLevel) :
    (d.emit m.level m.text).count level = d.count level + Message.countOf level [m] := by
  obtain ⟨l, text⟩ := m
  cases l <;> cases level <;> rfl

theorem count_send (d : Diagnostics) (sent : List Message) (level : MessageLevel) :
    (d.send sent).count level = d.count level + Message.countOf level sent := by
  -- The diagnostics change with every message, so the induction is for all of them.
  induction sent generalizing d with
  | nil => rfl
  | cons m sent ih =>
      have hrest := ih (d.emit m.level m.text)
      rw [count_emit, Nat.add_assoc, ← Message.countOf_append] at hrest
      exact hrest

theorem count_writeStatistics (d : Diagnostics) (level : MessageLevel) :
    d.writeStatistics.count level = d.count level := by
  cases level <;> rfl

/-- A call counts the messages it sends, and nothing else. -/
theorem ReportStep.count_next (d : Diagnostics) (step : ReportStep) (level : MessageLevel) :
    (step.next d).count level = d.count level + Message.countOf level step.messages := by
  obtain rfl | ⟨hnext, -⟩ := step.next_cases
  · exact count_writeStatistics d level
  · rw [hnext, count_send]

theorem ReportStep.count_run (d : Diagnostics) (steps : List ReportStep) (level : MessageLevel) :
    (run d steps).count level = d.count level + Message.countOf level (steps.flatMap messages) := by
  induction steps generalizing d with
  | nil => rfl
  | cons step steps ih =>
      have hrest := ih (step.next d)
      rw [count_next, Nat.add_assoc, ← Message.countOf_append, ← List.flatMap_cons] at hrest
      exact hrest

/-! ## Output

What is sent to a medium is given by commands that do not depend on the medium. -/

/-- `d.Grows d' written`: `d'` went on from `d` with this output. -/
structure Diagnostics.Grows (d d' : Diagnostics) (written : List Command) : Prop where
  medium : d'.medium = d.medium
  octets : d'.octets = d.octets ++ Utf8.encode (Command.renderAll d.medium written)

theorem Command.renderAll_append (medium : Medium) (first second : List Command) :
    renderAll medium (first ++ second) = renderAll medium first ++ renderAll medium second := by
  rw [renderAll, List.map_append, String.join_append]
  rfl

namespace Diagnostics

theorem Grows.refl (d : Diagnostics) : d.Grows d [] :=
  ⟨rfl, (List.append_nil d.octets).symm⟩

/-- Octets of two texts in a row are the octets of one text, so nothing is lost between writes. -/
theorem Grows.trans {d' d'' : Diagnostics} {written more : List Command} (h : d.Grows d' written)
    (h' : d'.Grows d'' more) : d.Grows d'' (written ++ more) := by
  constructor
  · rw [h'.medium, h.medium]
  · rw [h'.octets, h.octets, h.medium, Command.renderAll_append, Utf8.encode_append,
      List.append_assoc]

theorem grows_run (d : Diagnostics) (commands : List Command) :
    d.Grows (d.run commands) commands :=
  ⟨rfl, rfl⟩

/-- Counting leaves the medium and what it was sent as they are. -/
theorem grows_emit (d : Diagnostics) (m : Message) :
    d.Grows (d.emit m.level m.text) (messageCommands m.level m.text) := by
  obtain ⟨level, text⟩ := m
  cases level with
  | error => exact ⟨rfl, rfl⟩
  | note => exact ⟨rfl, rfl⟩

theorem grows_send (d : Diagnostics) (sent : List Message) :
    d.Grows (d.send sent) (messagesCommands sent) := by
  induction sent generalizing d with
  | nil => exact Grows.refl d
  | cons m sent ih => exact (grows_emit d m).trans (ih (d.emit m.level m.text))

end Diagnostics

namespace ReportStep

/-- What a call writes depends on the calls before it through the number of errors only. -/
theorem grows_next (d : Diagnostics) (step : ReportStep) :
    d.Grows (step.next d) (step.commands (d.count .error)) := by
  obtain rfl | ⟨hnext, hcommands, -⟩ := step.next_cases
  · exact grows_run d (statisticsCommands d.errors)
  · rw [hnext, hcommands]
    exact grows_send d step.messages

theorem grows_run_steps (d : Diagnostics) (steps : List ReportStep) :
    d.Grows (run d steps) (output (d.count .error) steps) := by
  -- The output goes on with the errors that `count_next` says were counted by the first call.
  induction steps generalizing d with
  | nil => exact Grows.refl d
  | cons step steps ih =>
      have hrest := ih (step.next d)
      rw [count_next] at hrest
      exact (grows_next d step).trans hrest

theorem contents_run (medium : Medium) (steps : List ReportStep) :
    (run (.new medium) steps).contents = Command.renderAll medium (output 0 steps) := by
  have hgrows := grows_run_steps (.new medium) steps
  rw [contents, hgrows.octets]
  exact Utf8.decode_encode _

end ReportStep

/-! ## Plain output -/

/-- `d.Shows text`: the medium is plain, and was sent this text. -/
structure Diagnostics.Shows (d : Diagnostics) (text : String) : Prop where
  plain : d.medium = .plain
  octets : d.octets = Utf8.encode text

theorem shows_new : (Diagnostics.new .plain).Shows "" := ⟨rfl, rfl⟩

section Shows

variable {text : String}

theorem Diagnostics.Shows.contents_eq (h : d.Shows text) : d.contents = text := by
  rw [contents, h.octets, Utf8.decode_encode]

theorem Diagnostics.Shows.grows {d' : Diagnostics} {written : List Command} (h : d.Shows text)
    (hgrows : d.Grows d' written) : d'.Shows (text ++ Command.renderAll .plain written) := by
  constructor
  · rw [hgrows.medium, h.plain]
  · rw [hgrows.octets, h.octets, h.plain, Utf8.encode_append]

/-- Styles leave no trace in plain output. -/
theorem renderAll_messageCommands (m : Message) :
    Command.renderAll .plain (messageCommands m.level m.text) = m.line := by
  simp [Command.renderAll, messageCommands, Command.render, Message.line, String.append_assoc]

theorem renderAll_messagesCommands (sent : List Message) :
    Command.renderAll .plain (messagesCommands sent) = String.join (sent.map Message.line) := by
  induction sent with
  | nil => rfl
  | cons m sent ih =>
      rw [List.map_cons, String.join_cons, ← ih, ← renderAll_messageCommands,
        ← Command.renderAll_append]
      rfl

theorem renderAll_statisticsCommands (errors : Nat) :
    Command.renderAll .plain (statisticsCommands errors) = statisticsText errors ++ "\n" := by
  simp [Command.renderAll, statisticsCommands, Command.render]

theorem Diagnostics.Shows.send (h : d.Shows text) (sent : List Message) :
    (d.send sent).Shows (text ++ String.join (sent.map Message.line)) := by
  rw [← renderAll_messagesCommands]
  exact h.grows (grows_send d sent)

theorem Diagnostics.Shows.writeStatistics (h : d.Shows text) :
    d.writeStatistics.Shows (text ++ (statisticsText (d.count .error) ++ "\n")) := by
  rw [← renderAll_statisticsCommands]
  exact h.grows (grows_run d (statisticsCommands d.errors))

theorem Diagnostics.Shows.next (h : d.Shows text) (step : ReportStep) :
    (step.next d).Shows (text ++ step.written (d.count .error)) := by
  obtain rfl | ⟨hnext, -, hwritten⟩ := step.next_cases
  · exact h.writeStatistics
  · rw [hnext, hwritten]
    exact h.send step.messages

theorem Diagnostics.Shows.run (h : d.Shows text) (steps : List ReportStep) :
    (ReportStep.run d steps).Shows (text ++ transcript (d.count .error) steps) := by
  -- The transcript goes on with the errors that `count_next` says were counted by the first call.
  induction steps generalizing d text with
  | nil => simpa [ReportStep.run, transcript] using h
  | cons step steps ih =>
      have hrest := ih (h.next step)
      rw [count_next, String.append_assoc] at hrest
      exact hrest

end Shows

/-! ## The closing line -/

/-- `d.ClosesAs d' errors`: `d'` is `d` with the closing line for a number of errors. -/
structure Diagnostics.ClosesAs (d d' : Diagnostics) (errors : Nat) : Prop where
  count_eq : ∀ level, d'.count level = d.count level
  success_iff :
    d'.contents = d.contents ++ "Type checking finished successfully\n" ↔ errors = 0
  anError_iff :
    d'.contents = d.contents ++ "Type checking aborted due to an error\n" ↔ errors = 1
  errors_iff :
    d'.contents =
      d.contents ++ ("Type checking aborted due to " ++ toString errors ++ " errors\n") ↔ 1 < errors

theorem statisticsText_eq_success_iff (errors : Nat) :
    statisticsText errors ++ "\n" = "Type checking finished successfully\n" ↔ errors = 0 := by
  match errors with
  | 0 => decide
  | 1 => decide
  | errors + 2 => simp [statisticsText, String.ext_iff]

theorem statisticsText_eq_anError_iff (errors : Nat) :
    statisticsText errors ++ "\n" = "Type checking aborted due to an error\n" ↔ errors = 1 := by
  match errors with
  | 0 => decide
  | 1 => decide
  | errors + 2 =>
      simp only [statisticsText, String.ext_iff, String.toList_append]
      constructor
      · -- Both end with a line feed; before it stands `s` in the one and `r` in the other.
        intro h
        have hlast := congrArg (fun cs => cs.reverse[1]?) h
        simp at hlast
      · intro h
        omega

theorem statisticsText_eq_errors_iff (errors : Nat) :
    statisticsText errors ++ "\n" =
      "Type checking aborted due to " ++ toString errors ++ " errors\n" ↔ 1 < errors := by
  match errors with
  | 0 => decide
  | 1 => decide
  | errors + 2 => simp [statisticsText, String.append_assoc]

theorem Diagnostics.Shows.closesAs {text : String} (h : d.Shows text) :
    d.ClosesAs d.writeStatistics (d.count .error) := by
  have hnext : d.writeStatistics.contents =
      d.contents ++ (statisticsText (d.count .error) ++ "\n") := by
    rw [h.writeStatistics.contents_eq, h.contents_eq]
  constructor
  · exact count_writeStatistics d
  · rw [hnext, String.append_right_inj, statisticsText_eq_success_iff]
  · rw [hnext, String.append_right_inj, statisticsText_eq_anError_iff]
  · rw [hnext, String.append_right_inj, statisticsText_eq_errors_iff]

/-! ## The answer to a check -/

/-- `d.ReportsAs r outcome`: `r` is what reporting the outcome of a check to `d` comes to. -/
structure Diagnostics.ReportsAs (d : Diagnostics) (r : Reported) (outcome : Except TypeError Unit) :
    Prop where
  wellTyped_iff : r.wellTyped = true ↔ outcome = .ok ()
  silent_iff : r.diagnostics.contents = d.contents ↔ outcome = .ok ()
  /-- The error makes one line; a note follows exactly if a name was suggested. -/
  of_error : ∀ err, outcome = .error err → ∃ rest,
    r.diagnostics.contents = d.contents ++ ("error: " ++ err.message ++ "\n" ++ rest) ∧
    (∀ name, rest = "note: did you mean `" ++ name ++ "`?\n" ↔
      ∃ type method, err = .unknownMethod type method (some name)) ∧
    (rest = "" ↔ ∀ type method name, err ≠ .unknownMethod type method (some name))

/-- Only an unknown method with a suggestion gets a note. -/
theorem TypeError.report_cases (err : TypeError) :
    (∃ type method name, err = .unknownMethod type method (some name) ∧
      err.report = [⟨.error, err.message⟩, ⟨.note, "did you mean `" ++ name ++ "`?"⟩]) ∨
    ((∀ type method name, err ≠ .unknownMethod type method (some name)) ∧
      err.report = [⟨.error, err.message⟩]) := by
  cases err with
  | unknownMethod type method suggestion =>
      cases suggestion with
      | none => exact .inr ⟨by simp, rfl⟩
      | some name => exact .inl ⟨type, method, name, rfl, rfl⟩
  | _ => exact .inr ⟨by simp, rfl⟩

theorem join_report (err : TypeError) : ∃ rest,
    String.join (err.report.map Message.line) = "error: " ++ err.message ++ "\n" ++ rest ∧
    (∀ name, rest = "note: did you mean `" ++ name ++ "`?\n" ↔
      ∃ type method, err = .unknownMethod type method (some name)) ∧
    (rest = "" ↔ ∀ type method name, err ≠ .unknownMethod type method (some name)) := by
  obtain ⟨type, method, name, rfl, hreport⟩ | ⟨hother, hreport⟩ := err.report_cases
  · -- The name can be read off the note, so the note fits no other suggestion.
    refine ⟨"note: did you mean `" ++ name ++ "`?\n", ?_, ?_, ?_⟩
    · rw [hreport]
      simp [Message.line, MessageLevel.name, String.ext_iff]
    · intro other
      simp
    · constructor
      · intro hempty
        simp at hempty
      · intro hnot
        exact absurd rfl (hnot type method name)
  · refine ⟨"", ?_, ?_, ?_⟩
    · rw [hreport]
      simp [Message.line, MessageLevel.name, String.append_assoc]
    · intro name
      constructor
      · intro hempty
        simp [String.ext_iff] at hempty
      · rintro ⟨type, method, herr⟩
        exact absurd herr (hother type method name)
    · exact ⟨fun _ => hother, fun _ => rfl⟩

theorem Diagnostics.Shows.reportsAs {text : String} (h : d.Shows text) (ts : TypeSystem)
    (e : Expr) : d.ReportsAs (d.checkAndReport ts e) (e.check ts) := by
  cases hcheck : e.check ts with
  | ok =>
      obtain ⟨hanswer, hsame⟩ := checkAndReport_of_ok hcheck d
      constructor
      · simp [hanswer]
      · simp [hsame]
      · intro err herr
        cases herr
  | error err =>
      obtain ⟨hanswer, hsent⟩ := checkAndReport_of_error hcheck d
      obtain ⟨rest, hlines, hnote, hnone⟩ := join_report err
      have hcontents : (d.checkAndReport ts e).diagnostics.contents =
          d.contents ++ ("error: " ++ err.message ++ "\n" ++ rest) := by
        rw [hsent, (h.send err.report).contents_eq, h.contents_eq, hlines]
      constructor
      · simp [hanswer]
      · rw [hcontents, String.append_eq_left_iff]
        simp
      · rintro _ ⟨rfl⟩
        exact ⟨rest, hcontents, hnote, hnone⟩

/-! ## Checks alone -/

/-- A check that is answered with `false` sends one error, another one sends nothing. -/
theorem ReportStep.count_false_answer (d : Diagnostics) (ts : TypeSystem) (e : Expr) :
    ((check ts e).answer? d).toList.count false = Message.countOf .error (check ts e).messages ∧
      Message.countOf .note (check ts e).messages ≤
        Message.countOf .error (check ts e).messages := by
  show [(d.checkAndReport ts e).wellTyped].count false =
      Message.countOf .error (outcomeReport (e.check ts)) ∧
    Message.countOf .note (outcomeReport (e.check ts)) ≤
      Message.countOf .error (outcomeReport (e.check ts))
  cases hcheck : e.check ts with
  | ok =>
      rw [(checkAndReport_of_ok hcheck d).1]
      exact ⟨rfl, Nat.le_refl 0⟩
  | error err =>
      rw [(checkAndReport_of_error hcheck d).1]
      show 1 = Message.countOf .error err.report ∧
        Message.countOf .note err.report ≤ Message.countOf .error err.report
      obtain ⟨_, _, _, _, hreport⟩ | ⟨_, hreport⟩ := err.report_cases
      · rw [hreport]
        exact ⟨rfl, Nat.le_refl 1⟩
      · rw [hreport]
        exact ⟨rfl, Nat.zero_le 1⟩

/-- The calls that check one expression after the other. -/
def checks (exprs : List (TypeSystem × Expr)) : List ReportStep :=
  exprs.map fun c => .check c.1 c.2

theorem ReportStep.count_false_answers (d : Diagnostics) (exprs : List (TypeSystem × Expr)) :
    (answers d (checks exprs)).count false =
        Message.countOf .error ((checks exprs).flatMap messages) ∧
      Message.countOf .note ((checks exprs).flatMap messages) ≤
        Message.countOf .error ((checks exprs).flatMap messages) := by
  induction exprs generalizing d with
  | nil => exact ⟨rfl, Nat.le_refl 0⟩
  | cons c exprs ih =>
      obtain ⟨hfalse, hnotes⟩ := count_false_answer d c.1 c.2
      obtain ⟨hfalses, hrest⟩ := ih ((check c.1 c.2).next d)
      have hsent : (checks (c :: exprs)).flatMap messages =
          (check c.1 c.2).messages ++ (checks exprs).flatMap messages := rfl
      have hanswers : answers d (checks (c :: exprs)) =
          ((check c.1 c.2).answer? d).toList ++
            answers ((check c.1 c.2).next d) (checks exprs) := rfl
      rw [hsent, hanswers, List.count_append, Message.countOf_append, Message.countOf_append]
      omega

/-! ## Whole runs -/

/-- The output and the counters of diagnostics over a plain medium are what the history of calls
says: every call appends what it writes, every message is counted once under its level, the closing
line fits the number of errors, and a check is answered by the outcome of the check, of which it
writes the error. -/
theorem run_records_history (steps : List ReportStep) :
    let d := ReportStep.run (.new .plain) steps
    let sent := steps.flatMap messages
    d.contents = transcript 0 steps ∧
    (∀ step : ReportStep,
      (step.next d).contents = d.contents ++ step.written (Message.countOf .error sent)) ∧
    (∀ level, d.count level = Message.countOf level sent) ∧
    (d.errored = true ↔ 0 < d.count .error) ∧
    d.ClosesAs d.writeStatistics (Message.countOf .error sent) ∧
    (∀ ts e, d.ReportsAs (d.checkAndReport ts e) (e.check ts)) ∧
    ∀ exprs,
      (ReportStep.run (.new .plain) (checks exprs)).count .error =
        (answers (.new .plain) (checks exprs)).count false ∧
      (ReportStep.run (.new .plain) (checks exprs)).count .note ≤
        (ReportStep.run (.new .plain) (checks exprs)).count .error := by
  intro d sent
  have hzero : ∀ level, (Diagnostics.new .plain).count level = 0 := by
    intro level
    cases level <;> rfl
  have hcount : ∀ steps level, (ReportStep.run (.new .plain) steps).count level =
      Message.countOf level (steps.flatMap messages) := by
    intro steps level
    rw [count_run, hzero, Nat.zero_add]
  have hshows : d.Shows (transcript 0 steps) := by
    have hrun := shows_new.run steps
    rw [String.empty_append, hzero] at hrun
    exact hrun
  refine ⟨hshows.contents_eq, ?_, hcount steps, ?_, ?_, hshows.reportsAs, ?_⟩
  · intro step
    rw [(hshows.next step).contents_eq, hshows.contents_eq, hcount]
  · exact decide_eq_true_iff
  · rw [← hcount]
    exact hshows.closesAs
  · intro exprs
    rw [hcount, hcount]
    obtain ⟨hfalse, hnotes⟩ := count_false_answers (.new .plain) exprs
    exact ⟨hfalse.symm, hnotes⟩

/-- A note changes no closing line, an error does. -/
example : transcript 0 [.note "a", .statistics, .error "b", .statistics, .error "c", .statistics] =
    "note: a\nType checking finished successfully\nerror: b\n" ++
    "Type checking aborted due to an error\nerror: c\nType checking aborted due to 2 errors\n" := by
  decide

end Nominal
