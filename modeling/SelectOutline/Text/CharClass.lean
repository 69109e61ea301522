/-
SelectOutline.Text.CharClass — the characters of names.

Two classes are in use and they differ. An identifier, as read by the
scanner, is made of alphanumeric characters, the underscore and the
dot. A word character, as seen by the search for aggregate calls, also
takes combining marks, all connecting punctuation and the two joining
controls, but neither the dot nor the numeric signs that are no digits.

The tables are those of Unicode 17, which identifiers follow. Word
characters stay with Unicode 16: a letter, mark or digit that was
added after it is none.
-/
import SelectOutline.Text.Basic
import SelectOutline.Text.Alphabetic
import SelectOutline.Text.Numeric
import SelectOutline.Text.Mark

namespace SelectOutline.Text

/-! ## 1. Identifiers -/

/-- Whether a character is a letter or a number of any script. -/
def isAlphanumeric (c : Char) : Bool :=
  isAlphabetic c || isDecimalDigit c || isOtherNumber c

/-- Whether a character may stand in an identifier. -/
def isIdentifierChar (c : Char) : Bool :=
  isAlphanumeric c || c == '_' || c == '.'

/-! ## 2. Word characters -/

/-- The code ranges of the general category `Pc`, connecting punctuation. -/
def connectorRanges : List (Nat × Nat) :=
  [(0x5F, 0x5F), (0x203F, 0x2040), (0x2054, 0x2054), (0xFE33, 0xFE34), (0xFE4D, 0xFE4F),
   (0xFF3F, 0xFF3F)]

/-- The code range of the property `Join_Control`. -/
def joinControlRanges : List (Nat × Nat) :=
  [(0x200C, 0x200D)]

/-- The code ranges of the letters, marks and digits that Unicode 17
added. -/
def recentRanges : List (Nat × Nat) :=
  [(0x88F, 0x88F), (0xC5C, 0xC5C), (0xCDC, 0xCDC), (0x1ACF, 0x1ADD), (0x1AE0, 0x1AEB),
   (0xA7CE, 0xA7CF), (0xA7D2, 0xA7D2), (0xA7D4, 0xA7D4), (0xA7F1, 0xA7F1), (0x10940, 0x10959),
   (0x10EC5, 0x10EC7), (0x10EFA, 0x10EFB), (0x11B60, 0x11B67), (0x11DB0, 0x11DDB),
   (0x11DE0, 0x11DE9), (0x16EA0, 0x16EB8), (0x16EBB, 0x16ED3), (0x16FF2, 0x16FF6),
   (0x187F8, 0x187FF), (0x18D09, 0x18D1E), (0x18D80, 0x18DF2), (0x1E6C0, 0x1E6DE),
   (0x1E6E0, 0x1E6F5), (0x1E6FE, 0x1E6FF), (0x2B73A, 0x2B73F), (0x2CEA2, 0x2CEAD),
   (0x323B0, 0x33479)]

/-- Whether a character is a word character. -/
def isWordChar (c : Char) : Bool :=
  (isAlphabetic c || isDecimalDigit c || isMark c || inRanges connectorRanges c ||
    inRanges joinControlRanges c) && !inRanges recentRanges c

/-! ## 3. Digits of a number -/

/-- Whether a character is one of the ten ASCII digits. -/
def isDigit (c : Char) : Bool :=
  inRanges [(0x30, 0x39)] c

/-- The number that a run of ASCII digits writes in base ten. -/
def decimalValue (digits : Text) : Nat :=
  digits.foldl (fun value digit => 10 * value + (digit.toNat - 0x30)) 0

end SelectOutline.Text
