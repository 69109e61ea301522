/-
SelectOutline.Sorting — the `ORDER BY` clause.

The clause runs from its keyword to the end of the text. Each entry of
its list is a field and an optional direction, ascending by default;
further words of an entry are ignored. Whether another direction than
the two usual ones is kept or refused is the caller's choice.
-/
import SelectOutline.Keyword.Vocabulary
import SelectOutline.Policy
import SelectOutline.Traced

namespace SelectOutline

open Text

/-! ## 1. Directions -/

/-- The direction of a sort key. -/
inductive Direction where
  | ascending
  | descending
  /-- Any other word, in upper case. -/
  | other (word : Text)
  deriving DecidableEq

namespace Direction

/-- The direction that a word names, in any case. -/
def ofText (word : Text) : Direction :=
  let word := upper word
  if word = "ASC".toList then ascending
  else if word = "DESC".toList then descending
  else other word

/-- The word for a direction. -/
def toText : Direction → Text
  | ascending => "ASC".toList
  | descending => "DESC".toList
  | other word => word

end Direction

/-! ## 2. Sort keys -/

/-- A field to sort by. -/
structure SortKey where
  field : Text
  direction : Direction
  deriving DecidableEq

/-- Reads one entry of the list. -/
def SortKey.parse (policy : Policy) (entry : Text) : Except Fault SortKey :=
  match words entry with
  | [] => .error (.missingSortField entry)
  | [field] => .ok ⟨field, .ascending⟩
  | field :: word :: _ =>
    match Direction.ofText word, policy.directions with
    | .other direction, .strict => .error (.unknownDirection direction entry)
    | direction, _ => .ok ⟨field, direction⟩

/-! ## 3. The clause -/

namespace Sorting

/-- Reads the entries of a list. The first one that cannot be read
decides the fault. -/
def parse (policy : Policy) (list : Text) : Except Fault (List SortKey) :=
  (entries list).mapM (SortKey.parse policy)

/-- Takes the sort keys off the end of a text. -/
def detach (policy : Policy) (text : Text) : Run (Detached (Option (List SortKey))) := do
  match ← search [kwOrderBy] text 0 with
  | none => return ⟨none, text⟩
  | some hit =>
    let keys ← parse policy (trim (text.drop hit.stop))
    return ⟨some keys, cut text hit.start text.length⟩

end Sorting

end SelectOutline
