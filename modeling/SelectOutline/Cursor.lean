/-
SelectOutline.Cursor — a reading position in a text.

Moving forward never passes the end of the text, but a cursor may be
put anywhere; past the end it sees nothing and reads nothing.
-/
import SelectOutline.Keyword
import SelectOutline.Text.CharClass

namespace SelectOutline

open Text

/-- A text and a position in it. -/
structure Cursor where
  text : Text
  position : Nat := 0
  deriving DecidableEq

namespace Cursor

/-! ## 1. Looking -/

/-- The text from the cursor on. -/
def rest (cursor : Cursor) : Text :=
  cursor.text.drop cursor.position

/-- Whether nothing is left to read. -/
def atEnd (cursor : Cursor) : Bool :=
  cursor.text.length ≤ cursor.position

/-- The character at a position, NUL past the end. -/
def charAt (cursor : Cursor) (position : Nat) : Char :=
  cursor.text.getD position '\x00'

/-- The character at the cursor, NUL past the end. -/
def current (cursor : Cursor) : Char :=
  cursor.charAt cursor.position

/-- The text from a position up to the cursor. -/
def since (cursor : Cursor) (position : Nat) : Text :=
  slice cursor.text position cursor.position

/-- Whether the keyword stands at the cursor. -/
def sees (cursor : Cursor) (keyword : Keyword) : Bool :=
  (keyword.matchAt cursor.text cursor.position).isSome

/-! ## 2. Moving -/

/-- One character further, unless at the end. -/
def next (cursor : Cursor) : Cursor :=
  if cursor.atEnd then cursor else { cursor with position := cursor.position + 1 }

/-- A number of characters further, at most to the end. -/
def jump (cursor : Cursor) (count : Nat) : Cursor :=
  { cursor with position := min (cursor.position + count) cursor.text.length }

/-- The cursor at another position. -/
def seek (cursor : Cursor) (position : Nat) : Cursor :=
  { cursor with position }

/-- Past the blanks at the cursor. -/
def skipBlanks (cursor : Cursor) : Cursor :=
  { cursor with position := cursor.position + (cursor.rest.takeWhile isBlank).length }

/-! ## 3. Reading -/

/-- The longest non-empty run of characters of a class at the cursor,
and the cursor after it. -/
def readRun (cursor : Cursor) (inClass : Char → Bool) : Option (Text × Cursor) :=
  match cursor.rest.takeWhile inClass with
  | [] => none
  | c :: run =>
    some (c :: run, { cursor with position := cursor.position + (c :: run).length })

/-- The identifier at the cursor. -/
def readIdentifier (cursor : Cursor) : Option (Text × Cursor) :=
  cursor.readRun isIdentifierChar

/-- The digits at the cursor. -/
def readDigits (cursor : Cursor) : Option (Text × Cursor) :=
  cursor.readRun isDigit

end Cursor

end SelectOutline
