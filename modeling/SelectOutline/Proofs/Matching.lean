/-
SelectOutline.Proofs.Matching — where a keyword is seen, whatever it is.

The keywords of a query are capital letters, but a keyword can be made from
any text (`Keyword.Made`). Its words may hold quotes, digits or letters of
other scripts, its upper case may be longer than the text it was made from,
and a blank text makes a keyword of no words.

`Keyword.Occurs` says without a matcher what it is for a keyword to take a
number of characters at a position: they spell its words, and what stands
before and behind them is as the flags ask. The matcher passes all the
blanks between two words at once and never tries fewer. That it misses
nothing by this rests on one fact only: no word is empty, and none holds a
blank, in upper case either (`Made.bare`). A blank in the text can then
belong to a gap and to nothing else, and the end of the words is settled by
their beginning (`matchAt_iff_of_made`).
-/
import SelectOutline.Proofs.Phrases
import SelectOutline.Proofs.Uppercase
import SelectOutline.Proofs.Words

namespace SelectOutline

open Text

namespace Keyword

/-! ## 1. Keywords from any text -/

/-- The keywords that can be made from a text: one that stands anywhere or
one between blanks, and then with any of the three flags set. -/
inductive Made (source : Text) : Keyword → Prop
  | ofText : Made source (.ofText source)
  | bounded : Made source (.bounded source)
  | blankBefore {keyword : Keyword} (h : Made source keyword) :
      Made source { keyword with blankBefore := true }
  | blankAfter {keyword : Keyword} (h : Made source keyword) :
      Made source { keyword with blankAfter := true }
  | mayEnd {keyword : Keyword} (h : Made source keyword) :
      Made source { keyword with mayEnd := true }

namespace Made

variable {source : Text} {keyword : Keyword}

/-- No flag changes the words. -/
theorem words_eq (h : Made source keyword) : keyword.words = (Text.words source).map upper := by
  induction h with
  | ofText => rfl
  | bounded => rfl
  | blankBefore _ ih => exact ih
  | blankAfter _ ih => exact ih
  | mayEnd _ ih => exact ih

/-- The words of a keyword hold no blank, and none is empty. -/
theorem bare (h : Made source keyword) : Bare keyword.words := by
  intro word hword
  rw [h.words_eq] at hword
  obtain ⟨plain, hplain, rfl⟩ := List.mem_map.mp hword
  obtain ⟨hne, hunblank⟩ := words_unblank source plain hplain
  exact ⟨upper_ne_nil hne, isBlank_of_mem_upper hunblank⟩

end Made

/-! ## 2. Places -/

/-- The keyword takes `length` characters at a position: they spell its
words, and what is around them is as its flags ask. -/
structure Occurs (keyword : Keyword) (text : Text) (position length : Nat) : Prop where
  inside : position + length ≤ text.length
  spelled : Spells keyword.words (slice text position (position + length))
  before : keyword.blankBefore = true →
    0 < position ∧ text[position - 1]?.any isBlank = true
  ending : position + length = text.length → keyword.mayEnd = true
  after : keyword.blankAfter = true → position + length < text.length →
    text[position + length]?.any isBlank = true

theorem any_charBefore_iff {text : Text} {position : Nat} :
    (charBefore text position).any isBlank = true ↔
      0 < position ∧ text[position - 1]?.any isBlank = true := by
  cases position with
  | zero => simp [charBefore]
  | succ position => simp [charBefore]

/-- What a keyword asks of the text behind it, by position. -/
theorem admits_drop_iff {keyword : Keyword} {text : Text} {stop : Nat}
    (hstop : stop ≤ text.length) :
    keyword.Admits (text.drop stop) ↔
      (stop = text.length → keyword.mayEnd = true) ∧
      (keyword.blankAfter = true → stop < text.length → text[stop]?.any isBlank = true) := by
  rcases Nat.eq_or_lt_of_le hstop with hend | hlt
  · rw [List.drop_eq_nil_of_le hend.ge]
    simp [Admits, hend]
  · rw [List.drop_eq_getElem_cons hlt]
    simp [Admits, hlt, hlt.ne]

/-- The matcher sees a keyword exactly where it occurs. -/
theorem matchAt_eq_some_iff {keyword : Keyword} (hw : Bare keyword.words) {text : Text}
    {position : Nat} (hposition : position ≤ text.length) {length : Nat} :
    keyword.matchAt text position = some length ↔ keyword.Occurs text position length := by
  rw [matchAt, matchHere_eq_some_iff hw, any_charBefore_iff]
  constructor
  · rintro ⟨hbefore, s, rest, heq, hs, rfl, hrest⟩
    have hlength : position + s.length ≤ text.length := by
      have := congrArg List.length heq
      rw [List.length_drop, List.length_append] at this
      omega
    have hslice : slice text position (position + s.length) = s := by
      rw [slice_add, heq, List.take_left]
    have hdrop : text.drop (position + s.length) = rest := by
      rw [← List.drop_drop, heq, List.drop_left]
    rw [← hdrop, admits_drop_iff hlength] at hrest
    exact ⟨hlength, hslice.symm ▸ hs, hbefore, hrest.1, hrest.2⟩
  · intro h
    refine ⟨h.before, slice text position (position + length), text.drop (position + length),
      drop_eq_slice_append text (Nat.le_add_right position length), h.spelled, ?_, ?_⟩
    · rw [length_slice h.inside, Nat.add_sub_cancel_left]
    · exact (admits_drop_iff h.inside).mpr ⟨h.ending, h.after⟩

/-- **Where a keyword is seen.** A keyword that was made from any text in any
way has the words of that text in upper case; the matcher sees it at a
position exactly if the text from there on spells these words and the
characters around them are as the flags ask; and then it takes one number of
characters only. -/
theorem matchAt_iff_of_made {source : Text} {keyword : Keyword} (hmade : Made source keyword)
    {text : Text} {position : Nat} (hposition : position ≤ text.length) :
    keyword.words = (Text.words source).map upper ∧
    (∀ length, keyword.matchAt text position = some length ↔
      keyword.Occurs text position length) ∧
    ∀ length length', keyword.Occurs text position length →
      keyword.Occurs text position length' → length = length' := by
  have hmatch : ∀ {length : Nat}, keyword.matchAt text position = some length ↔
      keyword.Occurs text position length := matchAt_eq_some_iff hmade.bare hposition
  refine ⟨hmade.words_eq, fun length => hmatch, ?_⟩
  intro length length' h h'
  have hsame := (hmatch.mpr h).symm.trans (hmatch.mpr h')
  exact Option.some.inj hsame

/-- A keyword that is longer in upper case, with a run of different blanks
between its words, at the end of a text. -/
theorem matchAt_iff_of_made_ligature :
    Made "ﬁx by".toList { bounded "ﬁx by".toList with mayEnd := true } ∧
    2 ≤ "t fiX \n bY".toList.length ∧
    (bounded "ﬁx by".toList).words = ["FIX".toList, "BY".toList] ∧
    { bounded "ﬁx by".toList with mayEnd := true }.Occurs "t fiX \n bY".toList 2 8 ∧
    ∀ length, { bounded "ﬁx by".toList with mayEnd := true }.Occurs "t fiX \n bY".toList 2 length →
      length = 8 := by
  have hmade : Made "ﬁx by".toList { bounded "ﬁx by".toList with mayEnd := true } :=
    .mayEnd .bounded
  have hposition : 2 ≤ "t fiX \n bY".toList.length := by decide
  obtain ⟨hwords, hmatch, hunique⟩ := matchAt_iff_of_made hmade hposition
  have hoccurs := (hmatch 8).mp (by decide +kernel)
  refine ⟨hmade, hposition, ?_, hoccurs, fun length h => hunique length 8 h hoccurs⟩
  exact hwords.trans (by decide +kernel)

end Keyword

end SelectOutline
