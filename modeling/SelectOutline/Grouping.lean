/-
SelectOutline.Grouping — the `GROUP BY` clause.

The clause runs from its keyword to the end of the text. Its entries
are kept as they are written; none may be empty.
-/
import SelectOutline.Keyword.Vocabulary
import SelectOutline.Traced

namespace SelectOutline.Grouping

open Text

/-- Takes the groups off the end of a text. -/
def detach (text : Text) : Run (Detached (Option (List Text))) := do
  match ← search [kwGroupBy] text 0 with
  | none => return ⟨none, text⟩
  | some hit =>
    let list := trim (text.drop hit.stop)
    let groups := entries list
    if groups.any List.isEmpty then throw (.emptyGroup list)
    else return ⟨some groups, cut text hit.start text.length⟩

end SelectOutline.Grouping
