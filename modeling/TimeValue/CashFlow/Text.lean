import TimeValue.CashFlow.Basic
import TimeValue.Text.Blank
import TimeValue.Text.Numeral

/-!
# Cash flows as text

A flow is written `PERIOD:AMOUNT`, such as `0:-100000`.  Blanks around the two numbers do not
count; the text is split at its first colon.

## Main definitions

* `FlowFault` — why a text is not a flow.
* `CashFlow.ofText` — the flow of a text.
-/

namespace TimeValue

open Text

/-- Why a text is not a flow.  Parts are quoted as they stand, with their blanks. -/
inductive FlowFault
  /-- There is no colon. -/
  | noColon (text : List Char)
  /-- The part before the colon is not a period. -/
  | badPeriod (part : List Char) (fault : WholeFault)
  /-- The part after the colon is not an amount. -/
  | badAmount (part : List Char) (fault : DecimalFault)
  deriving DecidableEq, Repr

/-- The text of a fault. -/
def FlowFault.message : FlowFault → String
  | .noColon text => "expected PERIOD:AMOUNT, got '" ++ String.ofList text ++ "'"
  | .badPeriod part fault =>
    "invalid period '" ++ String.ofList part ++ "': " ++ fault.message
  | .badAmount part fault =>
    "invalid amount '" ++ String.ofList part ++ "': " ++ fault.message

/-- The texts before and after the first colon. -/
def splitAtColon? (cs : List Char) : Option (List Char × List Char) :=
  match cs.dropWhile (· != ':') with
  | [] => none
  | _ :: after => some (cs.takeWhile (· != ':'), after)

/-- The flow whose period and amount are written in these texts. -/
def CashFlow.ofParts (period amount : List Char) : Except FlowFault (CashFlow Float) :=
  match readWhole 10 maxWhole (trim period) with
  | .error fault => .error (.badPeriod period fault)
  | .ok p =>
    match readDecimal (trim amount) with
    | .error fault => .error (.badAmount amount fault)
    | .ok a => .ok ⟨p, a⟩

/-- The flow of a text. -/
def CashFlow.ofText (cs : List Char) : Except FlowFault (CashFlow Float) :=
  match splitAtColon? cs with
  | none => .error (.noColon cs)
  | some (period, amount) => CashFlow.ofParts period amount

end TimeValue
