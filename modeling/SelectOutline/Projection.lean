/-
SelectOutline.Projection — the head of a query: `SELECT` with or without
`DISTINCT`, the fields and the table.
-/
import SelectOutline.Cursor
import SelectOutline.Keyword.Vocabulary
import SelectOutline.Traced

namespace SelectOutline

open Text

/-! ## 1. `DISTINCT` -/

/-- Takes `DISTINCT` out of a text that starts with `SELECT DISTINCT`.
The start is written anew, with one space after `SELECT`. -/
def Distinct.detach (text : Text) : Detached Bool :=
  let start : Cursor := { text }
  let second := (start.jump kwSelect.spelling.length).skipBlanks
  let third := (second.jump kwDistinct.spelling.length).skipBlanks
  if start.sees kwSelect && second.sees kwDistinct then
    ⟨true, kwSelect.spelling ++ ' ' :: third.rest⟩
  else ⟨false, text⟩

/-! ## 2. Fields and table -/

/-- The fields of a query and the table they come from. -/
structure Projection where
  fields : List Text
  table : Text
  deriving DecidableEq

/-- Reads `SELECT`, a list of fields, `FROM` and a table. There is room
for at least one character of fields: the search for `FROM` begins one
character after `SELECT`. -/
def Projection.parse (text : Text) : Run Projection := do
  let text := trim text
  let fieldsStart := kwSelect.spelling.length
  if Cursor.sees { text } kwSelect then
    match ← search [kwFrom] text (fieldsStart + 1) with
    | none => throw (.malformedSelect text)
    | some hit =>
      let fields := trim (slice text fieldsStart hit.start)
      let table := trim (text.drop hit.stop)
      if fields.isEmpty || table.isEmpty then throw (.malformedSelect text)
      else return { fields := entries fields, table }
  else throw (.malformedSelect text)

end SelectOutline
