/-
SelectOutline.Comparison — the operators of conditions.

An operator is written as a symbol, or as the word `LIKE`; the symbol
`<>` is another way to write `!=`. In a condition the earliest symbol
outside literals counts, and of several that start there the longest.
-/
import SelectOutline.Text.Uppercase
import SelectOutline.Text.Quoting

namespace SelectOutline

open Text

/-- How a condition compares its field with its value. -/
inductive Comparison where
  | equal
  | different
  | greater
  | greaterOrEqual
  | less
  | lessOrEqual
  | like
  deriving DecidableEq

namespace Comparison

/-! ## 1. Spelling -/

/-- The operator as it is written out. -/
def symbol : Comparison → String
  | equal => "="
  | different => "!="
  | greater => ">"
  | greaterOrEqual => ">="
  | less => "<"
  | lessOrEqual => "<="
  | like => "LIKE"

/-- The symbols of operators. One that starts with another comes before
it, so that the first that fits is the longest. -/
def symbols : List (Text × Comparison) :=
  [(">=".toList, greaterOrEqual), ("<=".toList, lessOrEqual), ("!=".toList, different),
   ("<>".toList, different), ("=".toList, equal), (">".toList, greater), ("<".toList, less)]

/-- The operator that a text spells, in any case. -/
def ofText? (text : Text) : Option Comparison :=
  (symbols ++ [("LIKE".toList, like)]).lookup (upper text)

/-- What is said of a text that spells no operator. -/
def invalidMessage (text : Text) : String :=
  "Invalid comparer operator: '" ++ String.ofList text ++ "'"

/-! ## 2. Searching -/

/-- A symbol found in a text. -/
structure Found where
  /-- The position of its first character. -/
  start : Nat
  /-- The position after its last character. -/
  stop : Nat
  /-- The operator it stands for. -/
  comparison : Comparison
  deriving DecidableEq

/-- The first symbol of `text`, which begins at `position` in the state
`quoting`. -/
def findFrom (quoting : Quoting) (position : Nat) : Text → Option Found
  | [] => none
  | c :: rest =>
    match if quoting.plain c then symbols.find? (·.1.isPrefixOf (c :: rest)) else none with
    | some (symbol, comparison) => some ⟨position, position + symbol.length, comparison⟩
    | none => findFrom (quoting.step c) (position + 1) rest

/-- The first symbol outside literals. -/
def find (text : Text) : Option Found :=
  findFrom .outside 0 text

end Comparison

end SelectOutline
