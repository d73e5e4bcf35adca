import TimeValue.CashFlow.Text
import TimeValue.Command.Switch
import TimeValue.Compound.Problem

/-!
# What a command line asks for

A command line is some general switches, the name of a command, and switches and words of that
command.  The general switches may also stand among those of the command, which then win.

## Main definitions

* `Task` — what is to be calculated.
* `Request` — a task, with what all tasks need.
* `Draft` — what the switches have said so far.
* `Form` — a command: its name, its switches, and the task it makes of them.
* `Request.ofArguments` — the request of a command line.
-/

namespace TimeValue.Command

/-! ### Requests -/

/-- Where cash flows come from.  A table hides flows that are given one by one. -/
structure FlowSource where
  /-- The path of a table. -/
  table : Option String
  /-- The flows that are given one by one. -/
  given : List (CashFlow Float)

/-- What is to be calculated. -/
inductive Task
  /-- The values of formulas, and of those on the lines of a file. -/
  | evaluate (formulas : List String) (file : Option String)
  /-- A quantity of a problem, perhaps with the growth of the solved problem. -/
  | compound (asked : Quantity) (problem : Problem Float) (series : Bool)
  /-- The rate of return of a project, perhaps with its curves. -/
  | irr (source : FlowSource) (series : Bool)
  /-- The present value of a project at a rate, in percent. -/
  | npv (percent : Float) (source : FlowSource)

/-- A task, with what all tasks need. -/
structure Request where
  /-- Whether the result is written as JSON. -/
  json : Bool
  /-- The path of a document of settings. -/
  settings : Option String
  /-- What is to be calculated. -/
  task : Task

/-! ### Switches -/

/-- What the switches have said so far. -/
structure Draft where
  /-- Whether the result is written as JSON. -/
  json : Bool
  /-- The path of a document of settings. -/
  settings : Option String
  /-- The path of a file of formulas. -/
  file : Option String
  /-- The quantity asked for. -/
  asked : Option Quantity
  /-- A rate, in percent. -/
  percent : Option Float
  /-- The problem, but for its rate. -/
  problem : Problem Float
  /-- Cash flows given one by one, the last one first. -/
  flows : List (CashFlow Float)
  /-- The path of a table of cash flows. -/
  table : Option String
  /-- Whether series are asked for. -/
  series : Bool

namespace Draft

/-- What is meant when no switch is given. -/
def empty : Draft where
  json := false
  settings := none
  file := none
  asked := none
  percent := none
  problem := ⟨0, 0, 0, 0, 0, .ordinary⟩
  flows := []
  table := none
  series := false

/-- Where the cash flows come from. -/
def source (draft : Draft) : FlowSource :=
  ⟨draft.table, draft.flows.reverse⟩

end Draft

/-- A path, which is not empty. -/
def readPath (text : String) : Option String :=
  if text.isEmpty then none else some text

/-- A decimal. -/
def readNumber (text : String) : Option Float :=
  (Text.readDecimal text.toList).toOption

/-- The timing of payments. -/
def readTiming (text : String) : Option PaymentTiming :=
  if text == "begin" then some .due
  else if text == "end" then some .ordinary
  else none

/-- A switch that takes a value once; `hyphens` tells whether the value may be anything. -/
def valueSwitch {β : Type} (name : String) (hyphens : Bool) (read : String → Option β)
    (put : Draft → β → Draft) : Switch Draft :=
  ⟨name, .value hyphens fun draft text => (read text).map (put draft), false⟩

/-- A switch that takes a number once, for the problem. -/
def amountSwitch (name : String) (hyphens : Bool) (q : Quantity) : Switch Draft :=
  valueSwitch name hyphens readNumber fun draft x =>
    { draft with problem := draft.problem.set q x }

/-- A rate, in percent. -/
def rateSwitch : Switch Draft :=
  valueSwitch "rate" true readNumber fun draft x => { draft with percent := some x }

/-- Asks for series. -/
def seriesSwitch : Switch Draft :=
  ⟨"series", .flag fun draft => { draft with series := true }, false⟩

/-- The switches of a source of cash flows. -/
def flowSwitches : List (Switch Draft) :=
  [⟨"flow", .value false fun draft text =>
      (CashFlow.ofText text.toList).toOption.map fun flow =>
        { draft with flows := flow :: draft.flows }, true⟩,
    valueSwitch "csv" false readPath fun draft path => { draft with table := some path }]

/-- The switches that may stand everywhere. -/
def generalSwitches : List (Switch Draft) :=
  [⟨"json", .flag fun draft => { draft with json := true }, false⟩,
    valueSwitch "config" false readPath fun draft path => { draft with settings := some path },
    ⟨"help", .stop .help, false⟩]

/-! ### Commands -/

/-- A command. -/
structure Form where
  /-- The name of the command. -/
  name : String
  /-- Its own switches. -/
  switches : List (Switch Draft)
  /-- Whether its words may start with a hyphen. -/
  hyphenWords : Bool
  /-- The task for switches and words. -/
  task : Draft → List String → Option Task

/-- The switches that are known after the name of a command. -/
def Form.level (form : Form) : Level Draft :=
  ⟨form.switches ++ generalSwitches, [('h', .help)], form.hyphenWords⟩

/-- A task of a command that takes no words. -/
def withoutWords (task : Draft → Option Task) (draft : Draft) : List String → Option Task
  | [] => task draft
  | _ :: _ => none

/-- The values of formulas. -/
def evaluateForm : Form where
  name := "eval"
  switches := [valueSwitch "file" false readPath fun draft path => { draft with file := some path }]
  hyphenWords := true
  task draft words := some (.evaluate words draft.file)

/-- A quantity of a problem. -/
def compoundForm : Form where
  name := "compound"
  switches :=
    [valueSwitch "solve-for" false (fun text => (Quantity.ofName text).toOption)
        fun draft q => { draft with asked := some q },
      rateSwitch,
      amountSwitch "periods" false .periods,
      amountSwitch "pv" true .presentValue,
      amountSwitch "pmt" true .payment,
      amountSwitch "fv" true .futureValue,
      valueSwitch "timing" false readTiming fun draft timing =>
        { draft with problem := { draft.problem with timing := timing } },
      seriesSwitch]
  hyphenWords := false
  task := withoutWords fun draft => do
    let asked ← draft.asked
    let rate := percentToRate (draft.percent.getD 0)
    return .compound asked (draft.problem.set .rate rate) draft.series

/-- The rate of return of a project. -/
def irrForm : Form where
  name := "irr"
  switches := seriesSwitch :: flowSwitches
  hyphenWords := false
  task := withoutWords fun draft => some (.irr draft.source draft.series)

/-- The present value of a project. -/
def npvForm : Form where
  name := "npv"
  switches := rateSwitch :: flowSwitches
  hyphenWords := false
  task := withoutWords fun draft => do
    let percent ← draft.percent
    return .npv percent draft.source

/-- All commands. -/
def forms : List Form :=
  [evaluateForm, compoundForm, irrForm, npvForm]

/-- The switches that are known before the name of a command. -/
def topLevel : Level Draft where
  switches := ⟨"version", .stop .version, false⟩ :: generalSwitches
  letters := [('h', .help), ('V', .version)]
  hyphenWords := false

/-- Help may be asked for as a command, about at most one command. -/
def helpEnding : List String → Ending
  | [] => .help
  | [name] =>
    if name == "help" || forms.any (·.name == name) then .help else .misuse
  | _ :: _ :: _ => .misuse

/-- The request of a command line after its general switches. -/
def Request.ofCommand (draft : Draft) (name : String) (arguments : List String) :
    Except Ending Request :=
  if name == "help" then .error (helpEnding arguments)
  else
    match forms.find? (·.name == name) with
    | none => .error .misuse
    | some form => do
      let scanned ← form.level.scan draft arguments
      match form.task scanned.state scanned.rest with
      | none => .error .misuse
      | some task => .ok ⟨scanned.state.json, scanned.state.settings, task⟩

/-- The request of a command line. -/
def Request.ofArguments (arguments : List String) : Except Ending Request := do
  let scanned ← topLevel.scan .empty arguments
  match scanned.separated, scanned.rest with
  | false, name :: arguments => Request.ofCommand scanned.state name arguments
  | _, _ => .error .misuse

end TimeValue.Command
