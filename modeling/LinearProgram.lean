import LinearProgram.CommandLine.Invocation
import LinearProgram.CommandLine.Run
import LinearProgram.CommandLine.Switch
import LinearProgram.Decimal.Double
import LinearProgram.Decimal.Layout
import LinearProgram.Decimal.Numeral
import LinearProgram.Decimal.Shortest
import LinearProgram.Failure
import LinearProgram.Json.Form
import LinearProgram.Json.Reader
import LinearProgram.Json.Value
import LinearProgram.Main
import LinearProgram.Method
import LinearProgram.Problem
import LinearProgram.Problem.Dual
import LinearProgram.Problem.Feasible
import LinearProgram.Problem.Printer
import LinearProgram.Problem.Reader
import LinearProgram.Problem.StandardForm
import LinearProgram.Proofs.Checked.Access
import LinearProgram.Proofs.Checked.Grid
import LinearProgram.Proofs.Checked.Initial
import LinearProgram.Proofs.Checked.Mismatch
import LinearProgram.Proofs.Checked.Parts
import LinearProgram.Proofs.Checked.Pivot
import LinearProgram.Proofs.Checked.Solver
import LinearProgram.Proofs.CommandLine.DualThenSolve
import LinearProgram.Proofs.CommandLine.Ends
import LinearProgram.Proofs.CommandLine.Lines
import LinearProgram.Proofs.CommandLine.Steps
import LinearProgram.Proofs.Decimal.Digits
import LinearProgram.Proofs.Decimal.Layout
import LinearProgram.Proofs.Decimal.Numeral
import LinearProgram.Proofs.Decimal.Overflow
import LinearProgram.Proofs.Decimal.Rounding
import LinearProgram.Proofs.Decimal.Shortest
import LinearProgram.Proofs.Decimal.Text
import LinearProgram.Proofs.Double.Canonical
import LinearProgram.Proofs.Double.Flag
import LinearProgram.Proofs.Double.LeftmostBasis
import LinearProgram.Proofs.Double.NormalForm
import LinearProgram.Proofs.Double.Order
import LinearProgram.Proofs.Double.Packing
import LinearProgram.Proofs.Double.Quotient
import LinearProgram.Proofs.Double.Rank
import LinearProgram.Proofs.Double.Search
import LinearProgram.Proofs.Double.Signs
import LinearProgram.Proofs.Double.Spelling
import LinearProgram.Proofs.Double.Total
import LinearProgram.Proofs.Double.Units
import LinearProgram.Proofs.Double.Verdict
import LinearProgram.Proofs.Double.Zeros
import LinearProgram.Proofs.Json.Form
import LinearProgram.Proofs.Json.Grammar
import LinearProgram.Proofs.Json.Numeral
import LinearProgram.Proofs.Json.Text
import LinearProgram.Proofs.Problem.Dot
import LinearProgram.Proofs.Problem.DoubleDual
import LinearProgram.Proofs.Problem.Duality
import LinearProgram.Proofs.Problem.Forms
import LinearProgram.Proofs.Problem.Grammar
import LinearProgram.Proofs.Problem.NormalForm
import LinearProgram.Proofs.Problem.Opposite
import LinearProgram.Proofs.Problem.RoundTrip
import LinearProgram.Proofs.Problem.Sign
import LinearProgram.Proofs.Problem.Slack
import LinearProgram.Proofs.Problem.SlackColumns
import LinearProgram.Proofs.Problem.Spelling
import LinearProgram.Proofs.Problem.Turned
import LinearProgram.Proofs.Report.Grid
import LinearProgram.Proofs.Report.NegativeZero
import LinearProgram.Proofs.Report.Shown
import LinearProgram.Proofs.Scalar.ExactUnits
import LinearProgram.Proofs.Solver.Answer
import LinearProgram.Proofs.Solver.CanonicalRun
import LinearProgram.Proofs.Solver.DualOptimum
import LinearProgram.Proofs.Solver.Failing
import LinearProgram.Proofs.Solver.FailureKinds
import LinearProgram.Proofs.Solver.Flag
import LinearProgram.Proofs.Solver.Forward
import LinearProgram.Proofs.Solver.InPlace
import LinearProgram.Proofs.Solver.Limit
import LinearProgram.Proofs.Solver.Messages
import LinearProgram.Proofs.Solver.Opposite
import LinearProgram.Proofs.Solver.PrimalOptimum
import LinearProgram.Proofs.Solver.Reports
import LinearProgram.Proofs.Solver.SameForm
import LinearProgram.Proofs.Solver.SameProblem
import LinearProgram.Proofs.Solver.StrongDuality
import LinearProgram.Proofs.Solver.Termination
import LinearProgram.Proofs.Solver.Trace
import LinearProgram.Proofs.Solver.Transition
import LinearProgram.Proofs.Solver.Verdict
import LinearProgram.Proofs.Solver.Wording
import LinearProgram.Proofs.Tableau.BasicSolution
import LinearProgram.Proofs.Tableau.Candidates
import LinearProgram.Proofs.Tableau.CanonicalForm
import LinearProgram.Proofs.Tableau.Certificate
import LinearProgram.Proofs.Tableau.Direction
import LinearProgram.Proofs.Tableau.DualRule
import LinearProgram.Proofs.Tableau.Entries
import LinearProgram.Proofs.Tableau.Equations
import LinearProgram.Proofs.Tableau.Improvement
import LinearProgram.Proofs.Tableau.OneBasis
import LinearProgram.Proofs.Tableau.Opposite
import LinearProgram.Proofs.Tableau.RatioTest
import LinearProgram.Proofs.Tableau.Represents
import LinearProgram.Proofs.Tableau.Sequence
import LinearProgram.Proofs.Tableau.ShadowPrices
import LinearProgram.Proofs.Tableau.StartingBasis
import LinearProgram.Proofs.Tableau.UnitSearch
import LinearProgram.Proofs.Text.Delimited
import LinearProgram.Proofs.Text.Words
import LinearProgram.Reformulation
import LinearProgram.Relation
import LinearProgram.Report
import LinearProgram.Scalar
import LinearProgram.Sense
import LinearProgram.Solution
import LinearProgram.Solver
import LinearProgram.Solver.Call
import LinearProgram.Solver.Event
import LinearProgram.Solver.Log
import LinearProgram.Solver.Move
import LinearProgram.Solver.Step
import LinearProgram.Tableau
import LinearProgram.Tableau.Canonical
import LinearProgram.Tableau.Initial
import LinearProgram.Tableau.Pivot
import LinearProgram.Tableau.Search
import LinearProgram.Text.Blank
import LinearProgram.Text.Naming
import LinearProgram.Text.Piece
import LinearProgram.UnitColumn
