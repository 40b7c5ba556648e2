import Nominal.Declaration.Build
import Nominal.Declaration.Printing
import Nominal.Declaration.Reading
import Nominal.Hierarchy.Edit
import Nominal.Text.Alignment
import Nominal.Typing.Report
import Nominal.Proofs.Expr.Tree
import Nominal.Proofs.Typing.Rules
import Nominal.Proofs.Typing.Checker
import Nominal.Proofs.Typing.FirstError
import Nominal.Proofs.Hierarchy.Extension
import Nominal.Proofs.Typing.Weakening
import Nominal.Proofs.Declaration.Course
import Nominal.Proofs.Declaration.Resolution
import Nominal.Proofs.Declaration.Members
import Nominal.Proofs.Declaration.Acceptance
import Nominal.Proofs.Declaration.Description
import Nominal.Proofs.Typing.Closed
import Nominal.Proofs.Json.Grammar
import Nominal.Proofs.Json.Texts
import Nominal.Proofs.Json.Recognition
import Nominal.Proofs.Json.Numerals
import Nominal.Proofs.Json.Values
import Nominal.Proofs.Json.Skipping
import Nominal.Proofs.Declaration.Documents
import Nominal.Proofs.Declaration.RoundTrip
import Nominal.Proofs.Hierarchy.Invariant
import Nominal.Proofs.Hierarchy.Replay
import Nominal.Proofs.Report.History
import Nominal.Proofs.Typing.Mismatch
import Nominal.Proofs.Names.Relation
import Nominal.Proofs.Names.Closest
import Nominal.Proofs.Typing.Congruence
import Nominal.Proofs.Typing.Log
import Nominal.Proofs.Typing.Agreement
import Nominal.Proofs.Typing.Suggestion
import Nominal.Proofs.Hierarchy.Naming
import Nominal.Proofs.Declaration.Order
import Nominal.Proofs.Typing.Widening
import Nominal.Proofs.Typing.CallForms
import Nominal.Proofs.Typing.ClassNames
import Nominal.Proofs.Declaration.Interning
import Nominal.Proofs.Report.Colour
import Nominal.Proofs.Json.Continuation
import Nominal.Proofs.Json.ContinuedReaders
import Nominal.Proofs.Declaration.FirstProblem
import Nominal.Proofs.Json.Truncation
import Nominal.Proofs.Declaration.Truncation
import Nominal.Proofs.Typing.Locality
import Nominal.Proofs.Hierarchy.Relabelling
import Nominal.Proofs.Typing.Relabelling
import Nominal.Proofs.Expr.Outline
import Nominal.Proofs.Names.Handles
import Nominal.Proofs.Typing.ReceiverChain
