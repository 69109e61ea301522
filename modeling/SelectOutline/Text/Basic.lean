/-
SelectOutline.Text.Basic — a text, its slices and its blanks.

A text is the list of its characters, and every position and length in
this library counts characters. Blank is the Unicode property
`White_Space`: it decides where a keyword ends, what trimming drops
and where one word stops and the next one begins.
-/
import SelectOutline.Text.Ranges

namespace SelectOutline

/-- A text: its characters, first to last. -/
abbrev Text := List Char

namespace Text

/-! ## 1. Positions -/

/-- The characters from position `start` up to, not including, `stop`.
Positions past the end mean the end, and a slice that would run
backwards is empty. -/
def slice (text : Text) (start stop : Nat) : Text :=
  (text.take stop).drop start

/-- The character just before a position; there is none at the start of
the text, nor past the position that follows its last character. -/
def charBefore (text : Text) : Nat → Option Char
  | 0 => none
  | position + 1 => text[position]?

/-! ## 2. Blanks -/

/-- The code ranges of the property `White_Space`. -/
def blankRanges : List (Nat × Nat) :=
  [(0x09, 0x0D), (0x20, 0x20), (0x85, 0x85), (0xA0, 0xA0), (0x1680, 0x1680), (0x2000, 0x200A),
   (0x2028, 0x2029), (0x202F, 0x202F), (0x205F, 0x205F), (0x3000, 0x3000)]

/-- Whether a character is white space. -/
def isBlank (c : Char) : Bool :=
  inRanges blankRanges c

/-! ## 3. Trimming -/

/-- A text without the blanks it starts with. -/
def trimStart (text : Text) : Text :=
  text.dropWhile isBlank

/-- A text without the blanks it ends with. -/
def trimEnd (text : Text) : Text :=
  (text.reverse.dropWhile isBlank).reverse

/-- A text without the blanks at its two ends. -/
def trim (text : Text) : Text :=
  trimEnd (trimStart text)

/-! ## 4. Words -/

/-- The maximal blank-free runs of a text, in order. A character that is
followed by a blank or by nothing ends its word; any other one belongs
to the word that starts right after it. -/
def words : Text → List Text
  | [] => []
  | c :: rest =>
    if isBlank c then words rest
    else if rest.head?.all isBlank then [c] :: words rest
    else (words rest).modifyHead (c :: ·)

/-! ## 5. Cutting a span out -/

/-- The text without the span from `start` to `stop`. The blanks around
the span go with it; one space stands in its place when there is text
on both sides. -/
def cut (text : Text) (start stop : Nat) : Text :=
  let before := trimEnd (text.take start)
  let after := trimStart (text.drop stop)
  if before.isEmpty || after.isEmpty then before ++ after else before ++ ' ' :: after

end Text

end SelectOutline
