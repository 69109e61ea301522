/-
SelectOutline.Outline — the outline of a query.
-/
import SelectOutline.Condition
import SelectOutline.Join
import SelectOutline.Sorting

namespace SelectOutline

/-- What a query selects, from where and how. An optional clause that
the query does not have is `none`. -/
structure Outline where
  fields : List Text
  table : Text
  /-- The conditions, empty without a `WHERE` clause. -/
  conditions : List Condition
  join : Option Join
  groups : Option (List Text)
  /-- Whether there is an aggregate call but no `GROUP BY` clause. -/
  ungroupedAggregate : Bool
  sortKeys : Option (List SortKey)
  limit : Option UInt64
  distinct : Bool
  deriving DecidableEq

end SelectOutline
