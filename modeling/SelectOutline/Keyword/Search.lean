/-
SelectOutline.Keyword.Search — finding keywords outside literals.

`find` looks for the first of several keywords from a position on. It
takes the position to lie outside literals, whatever stands before it;
only the blank a keyword may need before it is looked up there.
`findAll` repeats the search from the end of each hit.
-/
import SelectOutline.Keyword
import SelectOutline.Text.Quoting

namespace SelectOutline

open Text

/-- A keyword found in a text. -/
structure Hit where
  /-- The position of its first character. -/
  start : Nat
  /-- The position after its last character. -/
  stop : Nat
  /-- Its place among the keywords that were searched for. -/
  index : Nat
  /-- The keyword itself. -/
  keyword : Keyword
  deriving DecidableEq

namespace Keyword

/-! ## 1. One place -/

/-- The first of the keywords that stands at the start of `text`, which
begins at `position` and has `before` in front of it. -/
def firstHere (keywords : List Keyword) (before : Option Char) (position : Nat) (text : Text) :
    Option Hit :=
  keywords.zipIdx.findSome? fun (keyword, index) =>
    (keyword.matchHere before text).map fun length =>
      { start := position, stop := position + length, index, keyword }

/-! ## 2. One search -/

/-- The first hit in `text`, which begins at `position` in the state
`quoting` and has `before` in front of it. -/
def findFrom (keywords : List Keyword) (quoting : Quoting) (before : Option Char)
    (position : Nat) : Text → Option Hit
  | [] => none
  | c :: rest =>
    match if quoting.plain c then firstHere keywords before position (c :: rest) else none with
    | some hit => some hit
    | none => findFrom keywords (quoting.step c) (some c) (position + 1) rest

/-- The first hit at or after `start`. -/
def find (keywords : List Keyword) (text : Text) (start : Nat) : Option Hit :=
  findFrom keywords .outside (charBefore text start) start (text.drop start)

/-- A hit begins where the search for it stood. -/
theorem firstHere_start {keywords : List Keyword} {before : Option Char} {position : Nat}
    {text : Text} {hit : Hit} (h : firstHere keywords before position text = some hit) :
    hit.start = position := by
  obtain ⟨⟨keyword, index⟩, _, hmatch⟩ := List.exists_of_findSome?_eq_some h
  obtain ⟨length, _, rfl⟩ := Option.map_eq_some_iff.1 hmatch
  rfl

/-- A hit lies inside the text that is searched. -/
theorem findFrom_start {keywords : List Keyword} {quoting : Quoting} {before : Option Char}
    {position : Nat} {text : Text} {hit : Hit}
    (h : findFrom keywords quoting before position text = some hit) :
    position ≤ hit.start ∧ hit.start < position + text.length := by
  induction text generalizing quoting before position with
  | nil => simp [findFrom] at h
  | cons c rest ih =>
    rw [findFrom] at h
    split at h
    · next found hfound =>
      obtain rfl := Option.some.inj h
      split at hfound
      · have := firstHere_start hfound
        simp only [List.length_cons]
        omega
      · cases hfound
    · have := ih h
      simp only [List.length_cons]
      omega

/-- A hit begins at or after the start of the search and before the end
of the text. -/
theorem find_start {keywords : List Keyword} {text : Text} {start : Nat} {hit : Hit}
    (h : find keywords text start = some hit) : start ≤ hit.start ∧ hit.start < text.length := by
  have := findFrom_start h
  simp only [List.length_drop] at this
  omega

/-! ## 3. Repeated search -/

/-- The hits of repeated searches, each of which begins where the hit
before it ends. A keyword without words takes no characters, so that
the search cannot go on after it. -/
def findAll (keywords : List Keyword) (text : Text) (start : Nat) : List Hit :=
  match _found : find keywords text start with
  | none => []
  | some hit =>
    if hit.start < hit.stop then hit :: findAll keywords text hit.stop else [hit]
termination_by text.length - start
decreasing_by
  have := find_start _found
  omega

end Keyword

end SelectOutline
