/-
SelectOutline.Outline.Encoding — outlines and their parts as JSON.

Every part has a value `toJson` and a reader `ofJson?`. Readers take an
object's members by name and ignore those they do not know. A join has
no object of its own in the outline: its members stand among those of
the outline, and a set of them that is incomplete or cannot be read
counts as no join.
-/
import SelectOutline.Json
import SelectOutline.Outline

namespace SelectOutline

/-! ## 1. Words -/

/-- The value among `values` that has the given name. -/
def named? {α : Type} (values : List α) (name : α → String) : Json → Option α
  | .str value => values.find? (name · == value)
  | _ => none

namespace Comparison

/-- An operator as a string. -/
def toJson (comparison : Comparison) : Json :=
  .str comparison.symbol

/-- Reads an operator by its exact spelling. -/
def ofJson? : Json → Option Comparison :=
  named? [equal, different, greater, greaterOrEqual, less, lessOrEqual, like] symbol

end Comparison

namespace Connective

/-- A connective as a string. -/
def toJson (connective : Connective) : Json :=
  .str connective.name

/-- Reads a connective by its exact spelling. -/
def ofJson? : Json → Option Connective :=
  named? [and, or] name

end Connective

namespace JoinKind

/-- A kind of join as a string. -/
def toJson (kind : JoinKind) : Json :=
  .str kind.name

/-- Reads a kind of join by its exact spelling. -/
def ofJson? : Json → Option JoinKind :=
  named? [inner, left, right] name

end JoinKind

namespace Direction

/-- A direction as a string. -/
def toJson (direction : Direction) : Json :=
  .ofText direction.toText

/-- Reads a direction; any string names one. -/
def ofJson? (json : Json) : Option Direction :=
  json.text?.map ofText

end Direction

/-! ## 2. Clauses -/

namespace Condition

/-- A condition as an object; the connective is left out when absent. -/
def toJson (condition : Condition) : Json :=
  .obj ([("field", .ofText condition.field),
    ("operator", condition.comparison.toJson),
    ("value", .ofText condition.value)] ++
    (condition.connective.map fun connective => ("connective", connective.toJson)).toList)

/-- Reads a condition. -/
def ofJson? (json : Json) : Option Condition := do
  let field ← json.required "field" Json.text?
  let comparison ← json.required "operator" Comparison.ofJson?
  let value ← json.required "value" Json.text?
  let connective ← json.optional "connective" Connective.ofJson?
  return { field, comparison, value, connective }

end Condition

namespace JoinKeys

/-- The pair of identifiers as an object. -/
def toJson (keys : JoinKeys) : Json :=
  .obj [("left", .ofText keys.left), ("right", .ofText keys.right)]

/-- Reads a pair of identifiers. -/
def ofJson? (json : Json) : Option JoinKeys := do
  let left ← json.required "left" Json.text?
  let right ← json.required "right" Json.text?
  return { left, right }

end JoinKeys

namespace Join

/-- The members that describe a join. -/
def members (join : Join) : List (String × Json) :=
  [("joinType", join.kind.toJson),
    ("joinTable", .ofText join.table),
    ("joinCondition", join.keys.toJson)]

/-- A join as an object of its own. -/
def toJson (join : Join) : Json :=
  .obj join.members

/-- Reads a join from the members of an object. -/
def ofJson? (json : Json) : Option Join := do
  let kind ← json.required "joinType" JoinKind.ofJson?
  let table ← json.required "joinTable" Json.text?
  let keys ← json.required "joinCondition" JoinKeys.ofJson?
  return { kind, table, keys }

end Join

namespace SortKey

/-- A sort key as an object. -/
def toJson (key : SortKey) : Json :=
  .obj [("fieldName", .ofText key.field), ("order", key.direction.toJson)]

/-- Reads a sort key. -/
def ofJson? (json : Json) : Option SortKey := do
  let field ← json.required "fieldName" Json.text?
  let direction ← json.required "order" Direction.ofJson?
  return { field, direction }

end SortKey

/-! ## 3. Outlines -/

namespace Outline

/-- An outline as an object. -/
def toJson (outline : Outline) : Json :=
  .obj ([("fields", .ofList .ofText outline.fields),
    ("table", .ofText outline.table),
    ("whereClauses", .ofList Condition.toJson outline.conditions)] ++
    (outline.join.map Join.members).getD [] ++
    [("groupByFields", .ofOption (.ofList .ofText) outline.groups),
    ("hasAggregateWithoutGroupBy", .bool outline.ungroupedAggregate),
    ("orderByFields", .ofOption (.ofList SortKey.toJson) outline.sortKeys),
    ("limit", .ofOption (fun limit => .nat limit.toNat) outline.limit),
    ("isDistinct", .bool outline.distinct)])

/-- Reads an outline. -/
def ofJson? (json : Json) : Option Outline := do
  let fields ← json.required "fields" (Json.list? Json.text?)
  let table ← json.required "table" Json.text?
  let conditions ← json.required "whereClauses" (Json.list? Condition.ofJson?)
  let groups ← json.optional "groupByFields" (Json.list? Json.text?)
  let ungroupedAggregate ← json.required "hasAggregateWithoutGroupBy" Json.bool?
  let sortKeys ← json.optional "orderByFields" (Json.list? SortKey.ofJson?)
  let limit ← json.optional "limit" Json.uint64?
  let distinct ← json.required "isDistinct" Json.bool?
  return { fields, table, conditions, join := Join.ofJson? json, groups, ungroupedAggregate,
           sortKeys, limit, distinct }

end Outline

end SelectOutline
