/-
SelectOutline.Outline.Parse — reading a whole query.

Each phase takes its clause off the text that the one before it left,
and reports that it is done together with what is left. The first
fault ends the run.

The aggregate check looks at the text as it was without its groups,
that is with its conditions and its join.
-/
import SelectOutline.Aggregate
import SelectOutline.Criteria
import SelectOutline.Grouping
import SelectOutline.Limit
import SelectOutline.Outline
import SelectOutline.Projection

namespace SelectOutline.Outline

/-- Reports a completed phase and the text it left. -/
def report (phase : Phase) (remainder : Text) : Traced Unit :=
  emit (.phaseDone phase remainder)

/-- Reads a query. -/
def parse (policy : Policy) (text : Text) : Run Outline := do
  let distinct := Distinct.detach (Text.trim text)
  report .distinct distinct.rest
  let limit ← Limit.detach distinct.rest
  report .limit limit.rest
  let sorting ← Sorting.detach policy limit.rest
  report .sorting sorting.rest
  let grouping ← Grouping.detach sorting.rest
  report .grouping grouping.rest
  let criteria ← Criteria.detach grouping.rest
  report .criteria criteria.rest
  let join ← Join.detach policy criteria.rest
  report .join join.rest
  let projection ← Projection.parse join.rest
  report .projection []
  let conditions ← criteria.clause.elim (pure []) Criteria.parse
  report .conditions []
  let ungroupedAggregate := Aggregate.withoutGroups grouping.rest grouping.clause
  report .aggregates []
  return {
    fields := projection.fields
    table := projection.table
    conditions
    join := join.clause
    groups := grouping.clause
    ungroupedAggregate
    sortKeys := sorting.clause
    limit := limit.clause
    distinct := distinct.clause }

end SelectOutline.Outline
