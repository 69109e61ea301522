/-
SelectOutline.Join — the join of a query.

A join is a join keyword, a table, the word `ON` and two identifiers
with an equals sign between them. The table is all text up to an `ON`
that such a pair follows, and needs at least one character: the search
for `ON` begins two characters after the keyword, one for the blank and
one for the table, and takes that place to lie outside literals. A join
keyword that nothing of the kind follows is passed over.
-/
import SelectOutline.Cursor
import SelectOutline.Keyword.Vocabulary
import SelectOutline.Policy
import SelectOutline.Traced

namespace SelectOutline

open Text

/-! ## 1. Joins -/

/-- The kinds of join. -/
inductive JoinKind where
  | inner
  | left
  | right
  deriving DecidableEq

namespace JoinKind

/-- The word for a kind. -/
def name : JoinKind → String
  | inner => "INNER"
  | left => "LEFT"
  | right => "RIGHT"

/-- The kind at a place of `kwJoins`, which has three places. A hit of these
keywords has an index below 3 (`JoinKind.index_lt_of_mem_findAll`), so that
the last case is the third place and no other one is ever looked up. -/
def ofIndex : Nat → JoinKind
  | 0 => inner
  | 1 => left
  | _ => right

end JoinKind

/-- The two identifiers that a join equates. -/
structure JoinKeys where
  left : Text
  right : Text
  deriving DecidableEq

/-- A join of a further table. -/
structure Join where
  kind : JoinKind
  table : Text
  keys : JoinKeys
  deriving DecidableEq

/-- A join and the span of text it covers. -/
structure JoinSpan where
  join : Join
  /-- The position of the join keyword. -/
  start : Nat
  /-- The position after the right identifier. -/
  stop : Nat
  deriving DecidableEq

/-! ## 2. Reading -/

/-- Reads the pair of identifiers at a cursor, and gives the cursor after
it. -/
def JoinKeys.read (cursor : Cursor) : Option (JoinKeys × Cursor) := do
  let (left, cursor) ← cursor.skipBlanks.readIdentifier
  let cursor := cursor.skipBlanks
  if cursor.current = '=' then
    let (right, cursor) ← cursor.next.skipBlanks.readIdentifier
    return (⟨left, right⟩, cursor)
  else none

namespace Join

/-- The join with the keyword `keyword`, where `hits` are the words `ON`
that may introduce its pair of identifiers. -/
def completeFrom (text : Text) (keyword : Hit) : List Hit → Traced (Option JoinSpan)
  | [] => return none
  | hit :: hits => do
    emit (.ofHit hit)
    let table := trim (slice text (keyword.stop + 1) hit.start)
    match JoinKeys.read (Cursor.mk text hit.stop) with
    | some (keys, after) =>
      if table.isEmpty then completeFrom text keyword hits
      else
        return some ⟨⟨.ofIndex keyword.index, table, keys⟩, keyword.start, after.position⟩
    | none => completeFrom text keyword hits

/-- The join with the keyword `keyword`. -/
def complete (text : Text) (keyword : Hit) : Traced (Option JoinSpan) :=
  completeFrom text keyword (Keyword.findAll [kwOn] text (keyword.stop + 2))

/-- The first join with one of the keywords `hits`. -/
def locateFrom (text : Text) : List Hit → Traced (Option JoinSpan)
  | [] => return none
  | hit :: hits => do
    emit (.ofHit hit)
    match ← complete text hit with
    | some span => return some span
    | none => locateFrom text hits

/-- The first join of a text. -/
def locate (text : Text) : Traced (Option JoinSpan) :=
  locateFrom text (Keyword.findAll kwJoins text 0)

/-- The first join of a text and the span it covers. -/
def find (text : Text) : Option JoinSpan :=
  (locate text).value

/-- The first join of a text. -/
def ofText? (text : Text) : Option Join :=
  (find text).map (·.join)

/-! ## 3. The clause -/

/-- Takes the join, and all text from it on, off the end of a text. A
further join keyword after it is refused or warned of. -/
def detach (policy : Policy) (text : Text) : Run (Detached (Option Join)) := do
  match ← locate text with
  | none => return ⟨none, text⟩
  | some span =>
    let detached := ⟨some span.join, trim (text.take span.start)⟩
    match ← search kwJoins text span.stop with
    | none => return detached
    | some further =>
      let ignored := text.drop further.start
      match policy.joins with
      | .refuse => throw (.furtherJoin ignored)
      | .keepFirst =>
        emit (.joinsDropped ignored)
        return detached

end Join

end SelectOutline
