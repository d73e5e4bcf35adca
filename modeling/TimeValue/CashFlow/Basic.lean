import TimeValue.Scalar

/-!
# Cash flows

A project is a list of signed amounts, each at a whole period.  The order is the reader's own;
periods may repeat and may be skipped.

## Main definitions

* `CashFlow` — an amount at a period.
* `CashFlow.sampleProject` — the project used when none is given.
* `FlowSummary` — what a project takes and what it gives.
-/

namespace TimeValue

/-- A signed amount at a whole period. -/
structure CashFlow (α : Type) where
  /-- How many periods after the start. -/
  period : Nat
  /-- What is received, or spent if negative. -/
  amount : α
  deriving Repr

variable {α : Type} [Scalar α]

/-- The project used when none is given: an investment with returns that grow each period. -/
def CashFlow.sampleProject : List (CashFlow α) :=
  [⟨0, -100000.0⟩, ⟨1, 25000.0⟩, ⟨2, 30000.0⟩, ⟨3, 35000.0⟩, ⟨4, 40000.0⟩, ⟨5, 45000.0⟩]

/-- What a project takes and what it gives, without regard to time. -/
structure FlowSummary (α : Type) where
  /-- How many flows there are. -/
  count : Nat
  /-- The sum of the negative amounts. -/
  investment : α
  /-- The sum of the other amounts. -/
  returns : α
  /-- The sum of all amounts. -/
  net : α
  deriving Repr

namespace FlowSummary

/-- The summary of no flows. -/
def empty : FlowSummary α :=
  ⟨0, 0, 0, 0⟩

/-- The summary with one more flow at the end. -/
def add (s : FlowSummary α) (flow : CashFlow α) : FlowSummary α where
  count := s.count + 1
  investment := if flow.amount < 0 then s.investment + flow.amount else s.investment
  returns := if flow.amount < 0 then s.returns else s.returns + flow.amount
  net := s.net + flow.amount

/-- The summary of a project; amounts are added in its order. -/
def ofFlows (flows : List (CashFlow α)) : FlowSummary α :=
  flows.foldl add empty

@[simp] theorem ofFlows_append_singleton (flows : List (CashFlow α)) (flow : CashFlow α) :
    ofFlows (flows ++ [flow]) = (ofFlows flows).add flow := by
  simp [ofFlows]

end FlowSummary

end TimeValue
