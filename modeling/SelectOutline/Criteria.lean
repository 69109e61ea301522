/-
SelectOutline.Criteria — the `WHERE` clause.

The clause runs from its keyword to the end of the text. Its conditions
are separated by `AND` and `OR` outside literals, without grouping or
precedence; each one remembers the word before it.
-/
import SelectOutline.Condition

namespace SelectOutline.Criteria

open Text

/-- Takes the criteria off the end of a text. A keyword with only blanks
after it leaves no criteria. -/
def detach (text : Text) : Traced (Detached (Option Text)) := do
  match ← search [kwWhere] text 0 with
  | none => return ⟨none, text⟩
  | some hit =>
    let criteria := trim (text.drop hit.stop)
    return ⟨if criteria.isEmpty then none else some criteria, trim (text.take hit.start)⟩

/-- Reads the conditions of `text` from position `start` on, where
`hits` are the connectives that follow and `connective` is the one
before. -/
def parseFrom (text : Text) (start : Nat) (connective : Option Connective) :
    List Hit → Run (List Condition)
  | [] => do
    let last ← Condition.parse (text.drop start) connective
    return [last]
  | hit :: hits => do
    emit (.ofHit hit)
    let first ← Condition.parse (slice text start hit.start) connective
    let others ← parseFrom text hit.stop (some (.ofIndex hit.index)) hits
    return first :: others

/-- Reads the conditions of a clause. -/
def parse (text : Text) : Run (List Condition) :=
  parseFrom text 0 none (Keyword.findAll kwConnectives text 0)

end SelectOutline.Criteria
