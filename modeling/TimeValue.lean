import TimeValue.CashFlow.Basic
import TimeValue.CashFlow.Return
import TimeValue.CashFlow.Table
import TimeValue.CashFlow.Text
import TimeValue.Command.FileTree
import TimeValue.Command.Reading
import TimeValue.Command.Report
import TimeValue.Command.Request
import TimeValue.Command.Run
import TimeValue.Command.Switch
import TimeValue.Compound.Formula
import TimeValue.Compound.Problem
import TimeValue.Compound.Solve
import TimeValue.Csv.Record
import TimeValue.Decimal.Binary64
import TimeValue.Decimal.Layout
import TimeValue.Decimal.Rounding
import TimeValue.Decimal.Shortest
import TimeValue.Error
import TimeValue.Expression.Error
import TimeValue.Expression.Evaluate
import TimeValue.Expression.Grammar
import TimeValue.Expression.Token
import TimeValue.Expression.Tokenize
import TimeValue.Json.Fault
import TimeValue.Json.Number
import TimeValue.Json.Printer
import TimeValue.Json.Reader
import TimeValue.Json.Skip
import TimeValue.Json.Struct
import TimeValue.Json.Text
import TimeValue.Main
import TimeValue.NumberText
import TimeValue.Proofs.CashFlow.LeftOfRoot
import TimeValue.Proofs.CashFlow.NetAmounts
import TimeValue.Proofs.CashFlow.PresentValue
import TimeValue.Proofs.CashFlow.Rescaling
import TimeValue.Proofs.CashFlow.Slope
import TimeValue.Proofs.CashFlow.Table
import TimeValue.Proofs.CashFlow.Text
import TimeValue.Proofs.Command.Files
import TimeValue.Proofs.Compound.Balance
import TimeValue.Proofs.Compound.Payment
import TimeValue.Proofs.Compound.RateEquation
import TimeValue.Proofs.Compound.Unknown
import TimeValue.Proofs.Csv.Lines
import TimeValue.Proofs.Decimal.Interval
import TimeValue.Proofs.Decimal.Layout
import TimeValue.Proofs.Decimal.Nearest
import TimeValue.Proofs.Decimal.RoundTrip
import TimeValue.Proofs.Decimal.Scientific
import TimeValue.Proofs.Decimal.Shortest
import TimeValue.Proofs.Exact.Real
import TimeValue.Proofs.Expression.Acceptance
import TimeValue.Proofs.Expression.Derivation
import TimeValue.Proofs.Expression.Faults
import TimeValue.Proofs.Expression.Formula
import TimeValue.Proofs.Expression.Lexeme
import TimeValue.Proofs.Expression.Limit
import TimeValue.Proofs.Expression.Moves
import TimeValue.Proofs.Expression.Origin
import TimeValue.Proofs.Expression.Parentheses
import TimeValue.Proofs.Expression.Pieces
import TimeValue.Proofs.Expression.Positions
import TimeValue.Proofs.Expression.Progress
import TimeValue.Proofs.Expression.Reading
import TimeValue.Proofs.Expression.Refusal
import TimeValue.Proofs.Expression.Rendering
import TimeValue.Proofs.Expression.Unfinished
import TimeValue.Proofs.Finite
import TimeValue.Proofs.Json.Grammar
import TimeValue.Proofs.Json.Number
import TimeValue.Proofs.Json.Reader
import TimeValue.Proofs.Json.Record
import TimeValue.Proofs.Json.Skip
import TimeValue.Proofs.Json.Text
import TimeValue.Proofs.Order
import TimeValue.Proofs.Series.Account
import TimeValue.Proofs.Series.Curve
import TimeValue.Proofs.Series.Growth
import TimeValue.Proofs.Series.Lengths
import TimeValue.Proofs.Series.Monotone
import TimeValue.Proofs.Series.Rates
import TimeValue.Proofs.Series.RunningTotal
import TimeValue.Proofs.Settings.Document
import TimeValue.Proofs.Settings.Overlay
import TimeValue.Proofs.Solver.Calls
import TimeValue.Proofs.Solver.Looser
import TimeValue.Proofs.Solver.MeasuredSlope
import TimeValue.Proofs.Solver.Resumption
import TimeValue.Proofs.Solver.Run
import TimeValue.Proofs.Text.Blank
import TimeValue.Proofs.Text.Numeral
import TimeValue.Proofs.Text.Utf8
import TimeValue.Scalar
import TimeValue.Series.RateRange
import TimeValue.Series.Sample
import TimeValue.Settings.Document
import TimeValue.Settings.Layer
import TimeValue.Settings.Variables
import TimeValue.Solver.Config
import TimeValue.Solver.Newton
import TimeValue.Text.Blank
import TimeValue.Text.Numeral
import TimeValue.Text.Printable
import TimeValue.Text.Utf8
