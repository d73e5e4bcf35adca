import TimeValue.Json.Printer
import TimeValue.Series.Sample

/-!
# Reports

What a calculation found, as lines for a reader and as JSON.  Amounts have two places, and series
are tables of two columns.

## Main definitions

* `Report` — what a calculation found.
* `Report.lines` — the lines of a report.
* `Report.json` — a report as JSON.
-/

namespace TimeValue.Command

open Json (Value)

/-! ### What is reported -/

/-- The value of a formula, or the text that says why it has none. -/
structure Valuation where
  /-- The formula, as given. -/
  formula : String
  /-- Its value. -/
  outcome : Except String Float

/-- What a calculation found. -/
inductive Report
  /-- The values of formulas. -/
  | values (valuations : List Valuation)
  /-- A quantity of a problem, and perhaps the growth of the solved problem. -/
  | solved (asked : Quantity) (value : Float) (growth : Option (List (Sample Float)))
  /-- A rate of return in percent, the net present value at that rate, the totals of the project,
  and perhaps its two curves: the net present value over the rate, and the running total. -/
  | returned (percent residue : Float) (summary : FlowSummary Float)
      (curves : Option (List (Sample Float) × List (Sample Float)))
  /-- The net present value at a rate in percent. -/
  | present (percent value : Float)

/-! ### Lines -/

/-- An amount. -/
def amount (x : Float) : String :=
  Decimal.fixed 2 x

/-- A number as short as it can be. -/
def plain (x : Float) : String :=
  Decimal.Style.plain.write x

/-- A line of a table. -/
def tableLine (first second : String) : String :=
  Decimal.padLeft 8 first ++ " " ++ Decimal.padLeft 16 second

/-- The lines of a series: titles, and the points with their places written by `place`. -/
def tableLines (place : Float → String) (first second : String)
    (samples : List (Sample Float)) : List String :=
  tableLine first second ::
    samples.map fun sample => tableLine (place sample.x) (amount sample.y)

/-- The line of a formula. -/
def Valuation.line (v : Valuation) : String :=
  match v.outcome with
  | .ok value => v.formula ++ " = " ++ plain value
  | .error message => v.formula ++ " : error: " ++ message

/-- The line of a solved quantity. -/
def solvedLine (asked : Quantity) (value : Float) : String :=
  match asked with
  | .rate => asked.label ++ " = " ++ Decimal.fixed 4 value ++ "%"
  | _ => asked.label ++ " = " ++ amount value

/-- The line of the totals of a project. -/
def summaryLine (s : FlowSummary Float) : String :=
  "Invested " ++ amount s.investment.abs ++ ", returned " ++ amount s.returns ++ " over " ++
    toString s.count ++ " cash flows (net " ++ amount s.net ++ ")"

/-- The lines of a report. -/
def Report.lines : Report → List String
  | .values valuations => valuations.map Valuation.line
  | .solved asked value growth =>
    solvedLine asked value ::
      match growth with
      | none => []
      | some samples => tableLines plain "Period" "Value" samples
  | .returned percent residue summary curves =>
    ["IRR = " ++ amount percent ++ "%", summaryLine summary,
      "NPV at IRR: " ++ Decimal.fixed 6 residue] ++
      match curves with
      | none => []
      | some (curve, total) =>
        "" :: tableLines (Decimal.fixed 1) "Rate %" "NPV" curve ++
          "" :: tableLines plain "Period" "Cumulative" total
  | .present percent value => ["NPV @ " ++ plain percent ++ "% = " ++ amount value]

/-! ### JSON -/

/-- A quantity as JSON names it. -/
def quantityName : Quantity → String
  | .rate => "Rate"
  | .periods => "Periods"
  | .presentValue => "PresentValue"
  | .payment => "Payment"
  | .futureValue => "FutureValue"

/-- A series as JSON. -/
def samplesJson (samples : List (Sample Float)) : Value :=
  .list (samples.map fun sample => .object [("x", .number sample.x), ("y", .number sample.y)])

/-- The value of a formula as JSON. -/
def Valuation.json (v : Valuation) : Value :=
  match v.outcome with
  | .ok value => .object [("expression", .text v.formula), ("value", .number value)]
  | .error message =>
    .object [("expression", .text v.formula), ("value", .null), ("error", .text message)]

/-- The totals of a project as JSON. -/
def summaryJson (s : FlowSummary Float) : Value :=
  .object
    [("count", .whole s.count), ("total_investment", .number s.investment),
      ("total_return", .number s.returns), ("net", .number s.net)]

/-- A report as JSON. -/
def Report.json : Report → Value
  | .values valuations => .list (valuations.map Valuation.json)
  | .solved asked value growth =>
    .object
      ([("solve_for", .text (quantityName asked)), ("value", .number value)] ++
        match growth with
        | none => []
        | some samples => [("growth", samplesJson samples)])
  | .returned percent _ summary curves =>
    .object
      ([("irr_pct", .number percent), ("summary", summaryJson summary)] ++
        match curves with
        | none => []
        | some (curve, total) =>
          [("npv_curve", samplesJson curve), ("cumulative", samplesJson total)])
  | .present percent value => .object [("rate_pct", .number percent), ("npv", .number value)]

/-- The text of a report, each line ended. -/
def Report.text (report : Report) (json : Bool) : String :=
  let lines := if json then [report.json.pretty] else report.lines
  String.join (lines.map (· ++ "\n"))

end TimeValue.Command
