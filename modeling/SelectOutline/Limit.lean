/-
SelectOutline.Limit — the `LIMIT` clause.

The clause is the first `LIMIT` keyword that digits follow, with those
digits. What comes after them stays in the text, and so does a keyword
without a number. The number has to fit into 64 bits.
-/
import SelectOutline.Cursor
import SelectOutline.Keyword.Vocabulary
import SelectOutline.Traced

namespace SelectOutline.Limit

open Text

/-- Takes the limit out of a text, where `hits` are the keywords that
may introduce it. -/
def detachFrom (text : Text) : List Hit → Run (Detached (Option UInt64))
  | [] => return ⟨none, text⟩
  | hit :: hits => do
    emit (.ofHit hit)
    match (Cursor.mk text hit.stop).skipBlanks.readDigits with
    | none => detachFrom text hits
    | some (digits, after) =>
      if fits : decimalValue digits < UInt64.size then
        return ⟨some (UInt64.ofNatLT (decimalValue digits) fits),
          cut text hit.start after.position⟩
      else throw (.limitTooLarge digits)

/-- Takes the limit out of a text. -/
def detach (text : Text) : Run (Detached (Option UInt64)) :=
  detachFrom text (Keyword.findAll [kwLimit] text 0)

end SelectOutline.Limit
