/-
SelectOutline.Keyword — keywords and how they are recognised.

A keyword is one or more words (`LIMIT`, `GROUP BY`). In a text its
letters may be of either ASCII case and its words may be any non-empty
run of blanks apart. Three flags say what has to surround it: a blank
before it, a blank after it, and whether it may be the last thing in
the text at all.

`matchHere` looks at one place, given the character before it and the
text from there on; `matchAt` is the same by position.
-/
import SelectOutline.Text.Uppercase

namespace SelectOutline

open Text

/-- A keyword and what has to surround it. -/
structure Keyword where
  /-- The keyword as it is reported, in upper case. -/
  spelling : Text
  /-- Its words, in upper case. -/
  words : List Text
  /-- A blank has to stand before it. -/
  blankBefore : Bool := false
  /-- A blank has to follow, if anything does. -/
  blankAfter : Bool := false
  /-- It may end the text. -/
  mayEnd : Bool := false
  deriving DecidableEq

namespace Keyword

/-! ## 1. Making keywords -/

/-- The keyword with the words of `text` and no condition on what is
around it, except that something has to follow. -/
def ofText (text : Text) : Keyword where
  spelling := upper text
  words := (Text.words text).map upper

/-- The keyword with the words of `text`, between blanks. -/
def bounded (text : Text) : Keyword :=
  { ofText text with blankBefore := true, blankAfter := true }

/-! ## 2. Recognising the words -/

/-- What follows `word` at the start of the text, if it stands there in
either ASCII case. -/
def stripWord : (word text : Text) → Option Text
  | [], text => some text
  | _ :: _, [] => none
  | letter :: word, c :: text => if c.toUpper = letter then stripWord word text else none

/-- What follows the words at the start of the text, if they stand there
one after another with blanks between them. -/
def stripWords : (words : List Text) → (text : Text) → Option Text
  | [], text => some text
  | [word], text => stripWord word text
  | word :: next :: words, text =>
    match stripWord word text with
    | none => none
    | some rest =>
      if rest.head?.any isBlank then stripWords (next :: words) (trimStart rest) else none

/-! ## 3. Recognising the keyword -/

/-- The number of characters the keyword takes at the start of `text`,
where `before` is the character before the text. -/
def matchHere (keyword : Keyword) (before : Option Char) (text : Text) : Option Nat :=
  if keyword.blankBefore && !before.any isBlank then none
  else match stripWords keyword.words text with
    | none => none
    | some [] => if keyword.mayEnd then some text.length else none
    | some (next :: rest) =>
      if keyword.blankAfter && !isBlank next then none
      else some (text.length - (next :: rest).length)

/-- The number of characters the keyword takes at a position of `text`. -/
def matchAt (keyword : Keyword) (text : Text) (position : Nat) : Option Nat :=
  keyword.matchHere (charBefore text position) (text.drop position)

end Keyword

end SelectOutline
