/-
SelectOutline.Fault — why a query is refused.

A fault is a cause together with the text it was found in. Its kind
names the clause that was being read, and its message is fixed by the
cause.
-/
import SelectOutline.Text.Basic

namespace SelectOutline

/-- The clause that was being read when a query was refused. -/
inductive FaultKind where
  | select
  | criteria
  | join
  | sorting
  | grouping
  | limit
  deriving DecidableEq

/-- Why a query is refused. -/
inductive Fault where
  /-- The text is not of the form `SELECT … FROM …`. -/
  | malformedSelect (text : Text)
  /-- The text is no condition. -/
  | malformedCondition (text : Text)
  /-- A further join keyword follows the first join; the text starts with it. -/
  | furtherJoin (text : Text)
  /-- An entry of the sort list names no field. -/
  | missingSortField (entry : Text)
  /-- An entry of the sort list has a direction that is not allowed. -/
  | unknownDirection (direction entry : Text)
  /-- The group list has an empty entry. -/
  | emptyGroup (list : Text)
  /-- The limit does not fit into 64 bits. -/
  | limitTooLarge (digits : Text)
  deriving DecidableEq

namespace Fault

/-- The clause that was being read. -/
def kind : Fault → FaultKind
  | malformedSelect _ => .select
  | malformedCondition _ => .criteria
  | furtherJoin _ => .join
  | missingSortField _ => .sorting
  | unknownDirection _ _ => .sorting
  | emptyGroup _ => .grouping
  | limitTooLarge _ => .limit

/-- What is wrong, in words. -/
def message : Fault → String
  | malformedSelect _ => "Invalid SELECT format"
  | malformedCondition _ => "Invalid WHERE clause format"
  | furtherJoin _ => "Multiple JOIN clauses are not supported"
  | missingSortField _ => "Invalid ORDER BY field"
  | unknownDirection direction _ =>
    "Invalid ORDER BY direction '" ++ String.ofList direction ++ "'"
  | emptyGroup _ => "Invalid GROUP BY field"
  | limitTooLarge _ => "Invalid LIMIT value"

/-- The text that was being read. -/
def text : Fault → Text
  | malformedSelect text => text
  | malformedCondition text => text
  | furtherJoin text => text
  | missingSortField entry => entry
  | unknownDirection _ entry => entry
  | emptyGroup list => list
  | limitTooLarge digits => digits

/-- The message as it is shown to a user. -/
def display (fault : Fault) : String :=
  "Query parsing error: " ++ fault.message

end Fault

end SelectOutline
