/-
SelectOutline.Phase — the steps of reading a query, in their order.

The clauses are taken off from the end of the query to its start; the
conditions and the aggregate check come last, when all text has been
shared out.
-/

namespace SelectOutline

/-- A step of reading a query, or the state after the last one. -/
inductive Phase where
  | distinct
  | limit
  | sorting
  | grouping
  | criteria
  | join
  | projection
  | conditions
  | aggregates
  | finished
  deriving DecidableEq

namespace Phase

/-- The place of a phase in the order. -/
def index : Phase → Nat
  | distinct => 0
  | limit => 1
  | sorting => 2
  | grouping => 3
  | criteria => 4
  | join => 5
  | projection => 6
  | conditions => 7
  | aggregates => 8
  | finished => 9

/-- The phase that follows. After the last one nothing changes. -/
def next : Phase → Phase
  | distinct => limit
  | limit => sorting
  | sorting => grouping
  | grouping => criteria
  | criteria => join
  | join => projection
  | projection => conditions
  | conditions => aggregates
  | aggregates => finished
  | finished => finished

/-- The name under which a phase is reported. -/
def name : Phase → String
  | distinct => "Distinct"
  | limit => "Limit"
  | sorting => "OrderBy"
  | grouping => "GroupBy"
  | criteria => "Criteria"
  | join => "Joins"
  | projection => "Projection"
  | conditions => "Conditions"
  | aggregates => "Aggregates"
  | finished => "EOF"

/-- The next phase is one further, up to the last. -/
theorem index_next (phase : Phase) : phase.next.index = min (phase.index + 1) 9 := by
  cases phase <;> rfl

end Phase

end SelectOutline
