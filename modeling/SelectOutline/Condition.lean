/-
SelectOutline.Condition — one condition of a `WHERE` clause.

A condition is a field, an operator and a value, none of them blank.
`LIKE` takes precedence over every symbol, wherever it stands; a
pattern in single quotes loses them, so that its text may be empty.
-/
import SelectOutline.Comparison
import SelectOutline.Keyword.Vocabulary
import SelectOutline.Traced

namespace SelectOutline

open Text

/-! ## 1. Conditions -/

/-- The word that ties a condition to the one before it. -/
inductive Connective where
  | and
  | or
  deriving DecidableEq

namespace Connective

/-- The word in upper case. -/
def name : Connective → String
  | and => "AND"
  | or => "OR"

/-- The connective at a place of `kwConnectives`. -/
def ofIndex : Nat → Connective
  | 0 => and
  | _ => or

end Connective

/-- A field compared with a value. -/
structure Condition where
  field : Text
  comparison : Comparison
  value : Text
  /-- What ties it to the condition before it, if there is one. -/
  connective : Option Connective
  deriving DecidableEq

namespace Condition

/-! ## 2. Reading -/

/-- A pattern without the single quotes around it, if it has both. -/
def unquote (pattern : Text) : Text :=
  match pattern with
  | '\'' :: rest => if rest.getLast? = some '\'' then rest.dropLast else pattern
  | _ => pattern

/-- Reads one condition; `connective` is what stood before it. -/
def parse (text : Text) (connective : Option Connective) : Run Condition := do
  let text := trim text
  match ← search [kwLike] text 0 with
  | some hit =>
    let field := trim (text.take hit.start)
    let pattern := trim (text.drop hit.stop)
    if field.isEmpty || pattern.isEmpty then throw (.malformedCondition text)
    else return { field, comparison := .like, value := unquote pattern, connective }
  | none =>
    match Comparison.find text with
    | some found =>
      let field := trim (text.take found.start)
      let value := trim (text.drop found.stop)
      if field.isEmpty || value.isEmpty then throw (.malformedCondition text)
      else return { field, comparison := found.comparison, value, connective }
    | none => throw (.malformedCondition text)

end Condition

end SelectOutline
