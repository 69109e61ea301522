/-
SelectOutline.Aggregate — aggregate calls in a query without groups.

An aggregate call is one of five function names, an opening
parenthesis, a star or a run of word characters, and a closing
parenthesis, with blanks allowed between them. The name may be in any
case and must not continue a word. The search works on plain text and
knows neither literals nor clauses.
-/
import SelectOutline.Text.CharClass

namespace SelectOutline.Aggregate

open Text

/-! ## 1. One call -/

/-- The names of the aggregate functions. -/
def names : List Text :=
  ["COUNT".toList, "AVG".toList, "SUM".toList, "MIN".toList, "MAX".toList]

/-- The upper-case letter that a character counts as in a name. Besides
the ASCII letters only the long s, which folds to `S`, counts as one. -/
def foldLetter (c : Char) : Char :=
  if c = 'ſ' then 'S' else c.toUpper

/-- What follows a name at the start of a text. -/
def stripName : (name text : Text) → Option Text
  | [], text => some text
  | _ :: _, [] => none
  | letter :: name, c :: text => if foldLetter c = letter then stripName name text else none

/-- What follows the argument at the start of a text. -/
def stripArgument : Text → Option Text
  | [] => none
  | c :: rest =>
    if c = '*' then some rest
    else if isWordChar c then some (rest.dropWhile isWordChar)
    else none

/-- Whether a parenthesised argument stands at the start of a text,
after blanks. The blank or the parenthesis that a name is followed by
also ends the word it stands in. -/
def argumentHere (text : Text) : Bool :=
  match trimStart text with
  | '(' :: rest =>
    match stripArgument (trimStart rest) with
    | some rest => (trimStart rest).head? == some ')'
    | none => false
  | _ => false

/-- Whether a call stands at the start of a text. -/
def callHere (text : Text) : Bool :=
  names.any fun name => (stripName name text).any argumentHere

/-! ## 2. Searching -/

/-- Whether a call stands anywhere in a text that has `before` in front
of it. -/
def hasCallAfter (before : Option Char) : Text → Bool
  | [] => false
  | c :: rest =>
    callHere (c :: rest) && !before.any isWordChar || hasCallAfter (some c) rest

/-- Whether a call stands anywhere in a text. -/
def hasCall (text : Text) : Bool :=
  hasCallAfter none text

/-- Whether a query text has an aggregate call although it has no
groups. -/
def withoutGroups (text : Text) (groups : Option (List Text)) : Bool :=
  groups.isNone && hasCall text

end SelectOutline.Aggregate
