import TimeValue.CashFlow.Table
import TimeValue.Command.Reading
import TimeValue.Command.Report
import TimeValue.Command.Request
import TimeValue.Compound.Solve
import TimeValue.Expression.Evaluate
import TimeValue.Settings.Document
import TimeValue.Settings.Variables

/-!
# Carrying out a command line

A run reads the files that its command line names, calculates, and answers with an exit code and
two texts.  The settings come first, then the cash flows or formulas, then the calculation; the
first failure ends the run, and a run that fails writes no result.

## Main definitions

* `World` — the files and the variables around a run.
* `Failure` — why a run failed, with its causes.
* `perform` — the report of a request.
* `Answer`, `run` — the answer to a command line.
-/

namespace TimeValue.Command

/-! ### Surroundings -/

/-- The files and the variables around a run. -/
structure World (m : Type → Type) where
  /-- What the reading of the file at a path comes to. -/
  read : String → m Reading
  /-- The value of a variable. -/
  lookup : String → Option String

/-! ### Failures -/

/-- Why a run failed. -/
structure Failure where
  /-- What could not be done. -/
  context : String
  /-- Why not, each text the cause of the one before. -/
  causes : List String

namespace Failure

/-- The causes that follow the one numbered `index`, with it, a line each. -/
def numbered (index : Nat) : List String → String
  | [] => ""
  | cause :: causes =>
    Decimal.padLeft 5 (toString index) ++ ": " ++ cause ++ "\n" ++ numbered (index + 1) causes

/-- The text of a failure.  A single cause has no number. -/
def message (failure : Failure) : String :=
  "Error: " ++ failure.context ++ "\n" ++
    match failure.causes with
    | [] => ""
    | [cause] => "\nCaused by:\n    " ++ cause ++ "\n"
    | causes => "\nCaused by:\n" ++ numbered 0 causes

/-- A calculation that failed. -/
def ofCalculation (context : String) (e : CalcError Float) : Failure :=
  ⟨context, [e.message, e.cause]⟩

end Failure

/-! ### Reading -/

variable {m : Type → Type} [Monad m]

/-- A computation in a world, which may fail. -/
abbrev Attempt (m : Type → Type) := ExceptT Failure m

/-- Goes on with a value, or fails. -/
def orFail {ε β : Type} (failure : ε → Failure) : Except ε β → Attempt m β
  | .ok value => pure value
  | .error e => throw (failure e)

/-- The bytes of a file, as far as its reader needs them. -/
def readFile (world : World m) (bytes : Reading → Except FileFault (List UInt8))
    (failure : String → Failure) (path : String) : Attempt m (List UInt8) := do
  let reading ← (world.read path : m _)
  orFail (fun fault => failure fault.message) (bytes reading)

/-- The settings of a run: those of a document, under those of the variables. -/
def loadSettings (world : World m) : Option String → Attempt m Settings
  | none => return Settings.standard.withVariables world.lookup
  | some path => do
    let failure := fun reason => ⟨"failed to load config " ++ path ++ ": " ++ reason, []⟩
    let bytes ← readFile world Reading.complete failure path
    let settings ← orFail (failure ·.message) (Settings.ofDocument bytes)
    return settings.withVariables world.lookup

/-- The cash flows of a source; the sample project if it has none.  A table is read record by
record, so one that can be opened but not read has no flows. -/
def loadFlows (world : World m) (source : FlowSource) : Attempt m (List (CashFlow Float)) :=
  match source.table with
  | some path => do
    let failure := fun reason => ⟨"failed to load cash flows from " ++ path ++ ": " ++ reason, []⟩
    let bytes ← readFile world Reading.available failure path
    orFail (failure ·.message) (flowsOfTable bytes)
  | none => return if source.given.isEmpty then CashFlow.sampleProject else source.given

/-- The formulas of a text: its lines, without the blanks around them, but for empty ones. -/
def formulasOf (text : List Char) : List String :=
  let lines := (text.splitOn '\n').map Text.trim
  (lines.filter (!·.isEmpty)).map String.ofList

/-- The formulas on the lines of a file. -/
def loadFormulas (world : World m) : Option String → Attempt m (List String)
  | none => return []
  | some path => do
    let failure := fun reason => ⟨"failed to read " ++ path, [reason]⟩
    let bytes ← readFile world Reading.complete failure path
    match Text.Utf8.decode bytes with
    | .ok text => return formulasOf text
    | .error _ => throw (failure DocumentFault.notUtf8.message)

/-! ### Calculating -/

/-- The value of a formula; one that is not finite is refused. -/
def valuation (formula : String) : Valuation :=
  ⟨formula,
    match (Expression.evaluate formula : Except (Expression.EvalError Float) Float) with
    | .ok value => if value.isFinite then .ok value else .error "result out of range"
    | .error e => .error e.message⟩

/-- The solution of a problem. -/
def reportSolved (settings : Settings) (asked : Quantity) (problem : Problem Float)
    (series : Bool) : Except Failure Report := do
  let value ← (solve asked settings.solver problem).mapError
    (.ofCalculation ("cannot solve for " ++ asked.label))
  if series then
    let growth ← (growthSeries (problem.fill asked value)).mapError fun e =>
      ⟨"cannot build growth series", [e.message]⟩
    return .solved asked value (some growth)
  else return .solved asked value none

/-- The rate of return of a project. -/
def reportReturned (settings : Settings) (flows : List (CashFlow Float)) (series : Bool) :
    Except Failure Report := do
  let percent ← (irr settings.solver flows).mapError (.ofCalculation "cannot compute IRR")
  let residue := npv flows (percentToRate percent)
  let summary := FlowSummary.ofFlows flows
  if series then
    let curve ← (npvCurve flows settings.range).mapError fun e =>
      ⟨"cannot build NPV curve", [e.message]⟩
    return .returned percent residue summary (some (curve, cumulativeSeries flows))
  else return .returned percent residue summary none

/-- The report of a task. -/
def performTask (world : World m) (settings : Settings) : Task → Attempt m Report
  | .evaluate formulas file => do
    let formulas := formulas ++ (← loadFormulas world file)
    if formulas.isEmpty then
      throw ⟨"nothing to evaluate: pass expressions or --file", []⟩
    else return .values (formulas.map valuation)
  | .compound asked problem series => orFail id (reportSolved settings asked problem series)
  | .irr source series => do
    let flows ← loadFlows world source
    orFail id (reportReturned settings flows series)
  | .npv percent source => do
    let flows ← loadFlows world source
    return .present percent (npv flows (percentToRate percent))

/-- The report of a request. -/
def perform (world : World m) (request : Request) : Attempt m Report := do
  let settings ← loadSettings world request.settings
  performTask world settings request.task

/-! ### Answers -/

/-- The answer to a command line. -/
structure Answer where
  /-- The exit code: 0 for a result, 1 for a failure, 2 for a misuse. -/
  code : Nat
  /-- The text of the result. -/
  output : String
  /-- The text of the failure. -/
  errors : String
  deriving Repr

/-- The text that explains the command line. -/
def usage : String :=
  String.join
    ["Usage: fincalc [--json] [--config FILE] COMMAND ...\n",
      "  eval [--file FILE] EXPRESSION...\n",
      "  compound --solve-for rate|periods|pv|pmt|fv [--rate PERCENT] [--periods N]\n",
      "           [--pv X] [--pmt X] [--fv X] [--timing begin|end] [--series]\n",
      "  irr [--flow PERIOD:AMOUNT]... [--csv FILE] [--series]\n",
      "  npv --rate PERCENT [--flow PERIOD:AMOUNT]... [--csv FILE]\n"]

/-- The name and the version of the program. -/
def versionLine : String :=
  "fincalc 0.1.0\n"

/-- The answer to a command line that is not carried out. -/
def Answer.ofEnding : Ending → Answer
  | .misuse => ⟨2, "", usage⟩
  | .help => ⟨0, usage, ""⟩
  | .version => ⟨0, versionLine, ""⟩

/-- The answer to a command line. -/
def run (world : World m) (arguments : List String) : m Answer := do
  match Request.ofArguments arguments with
  | .error ending => return .ofEnding ending
  | .ok request =>
    match ← (perform world request).run with
    | .ok report => return ⟨0, report.text request.json, ""⟩
    | .error failure => return ⟨1, "", failure.message⟩

end TimeValue.Command
