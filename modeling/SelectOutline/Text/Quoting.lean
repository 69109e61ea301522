/-
SelectOutline.Text.Quoting — what is inside a literal, and the commas
that separate the entries of a list.

A literal is opened by a single or a double quote and closed by the
next quote of the same kind; nothing inside it counts. A list is
separated by the commas that stand outside literals and outside
parentheses. A closing parenthesis too many is ignored.
-/
import SelectOutline.Text.Basic

namespace SelectOutline.Text

/-! ## 1. Literals -/

/-- Whether a character opens and closes literals. -/
def isQuote (c : Char) : Bool :=
  c == '\'' || c == '"'

/-- Where a scan stands with respect to literals. -/
inductive Quoting where
  | outside
  | inside (delimiter : Char)
  deriving DecidableEq

/-- The state after one more character. -/
def Quoting.step : Quoting → Char → Quoting
  | .outside, c => if isQuote c then .inside c else .outside
  | .inside delimiter, c => if c = delimiter then .outside else .inside delimiter

/-- Whether the next character `c` is plain text: it stands outside
literals and opens none. -/
def Quoting.plain (state : Quoting) (c : Char) : Bool :=
  state == .outside && !isQuote c

/-! ## 2. Parentheses -/

/-- Where a scan stands with respect to literals and parentheses. -/
structure Nesting where
  quoting : Quoting := .outside
  depth : Nat := 0
  deriving DecidableEq

/-- The state after one more character. Parentheses count in plain text
only, and the depth never goes below zero. -/
def Nesting.step (state : Nesting) (c : Char) : Nesting where
  quoting := state.quoting.step c
  depth :=
    if state.quoting.plain c then
      if c = '(' then state.depth + 1 else if c = ')' then state.depth - 1 else state.depth
    else state.depth

/-- Whether `c` is a comma that separates two entries. -/
def Nesting.separates (state : Nesting) (c : Char) : Bool :=
  c == ',' && state.quoting == .outside && state.depth == 0

/-! ## 3. Lists -/

/-- The text between the separating commas, as it stands. -/
def segments (state : Nesting) : Text → List Text
  | [] => [[]]
  | c :: rest =>
    if state.separates c then [] :: segments state rest
    else (segments (state.step c) rest).modifyHead (c :: ·)

/-- The entries of a list, trimmed. A blank text has one empty entry. -/
def entries (text : Text) : List Text :=
  (segments {} text).map trim

end SelectOutline.Text
