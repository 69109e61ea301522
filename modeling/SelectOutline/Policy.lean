/-
SelectOutline.Policy — how strictly a query is read.
-/

namespace SelectOutline

/-- What may stand as the direction of a sort key. -/
inductive DirectionRule where
  /-- Any word is kept, in upper case. -/
  | lenient
  /-- Only `ASC` and `DESC`. -/
  | strict
  deriving DecidableEq

/-- What happens to a query with several joins. -/
inductive JoinRule where
  /-- The first join is kept and the others are dropped with a warning. -/
  | keepFirst
  /-- The query is refused. -/
  | refuse
  deriving DecidableEq

/-- The choices a caller makes; by default nothing is refused that can
be read at all. -/
structure Policy where
  directions : DirectionRule := .lenient
  joins : JoinRule := .keepFirst
  deriving DecidableEq

/-- The policy that refuses unknown directions and further joins. -/
def Policy.strict : Policy where
  directions := .strict
  joins := .refuse

end SelectOutline
