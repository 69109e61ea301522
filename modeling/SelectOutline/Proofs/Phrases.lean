/-
SelectOutline.Proofs.Phrases — where words stand between blanks.

Statements about a whole text say where a keyword stands by its position
alone, without a search: the characters from there on spell its words in
any case, and a blank is on either side (`Phrase`, and `wordAt` for a
single word). `Hit.Splits.phrase` and `Phrase.splits` tie this to the hits
of a search. Of a single word a search finds the first place outside
literals (`Keyword.firstWord_of_find`, `Keyword.find_of_firstWord`), and it
finds nothing only if there is no such place
(`Keyword.find_word_eq_none_iff`).
-/
import SelectOutline.Proofs.Positions

namespace SelectOutline

open Text

/-! ## 1. Slices -/

theorem Text.length_slice {text : Text} {start stop : Nat} (h : stop ≤ text.length) :
    (slice text start stop).length = stop - start := by
  rw [slice, List.length_drop, List.length_take, Nat.min_eq_left h]

theorem Text.slice_add (text : Text) (start length : Nat) :
    slice text start (start + length) = (text.drop start).take length := by
  rw [slice, List.drop_take, Nat.add_sub_cancel_left]

/-- A text from a place on, taken apart at a later one. -/
theorem Text.drop_eq_slice_append (text : Text) {start stop : Nat} (h : start ≤ stop) :
    text.drop start = slice text start stop ++ text.drop stop := by
  obtain ⟨length, rfl⟩ := Nat.exists_eq_add_of_le h
  rw [slice_add, ← List.drop_drop, List.take_append_drop]

/-! ## 2. Phrases -/

/-- The words stand in the text from `start` up to `stop`, in any case and
between blanks. -/
structure Text.Phrase (words : List Text) (text : Text) (start stop : Nat) : Prop where
  spells : Keyword.Spells words (slice text start stop)
  blank_before : (charBefore text start).any isBlank = true
  blank_after : text[stop]?.any isBlank = true

/-- The hit of a keyword is a phrase of its words. -/
theorem Hit.Splits.phrase {hit : Hit} {text before spelled after : Text}
    (h : hit.Splits text before spelled after) :
    Phrase hit.keyword.words text hit.start hit.stop := by
  have hslice : slice text hit.start hit.stop = spelled := by
    rw [slice, h.take_stop, h.start_eq, List.drop_left]
  refine ⟨hslice ▸ h.spells, ?_, ?_⟩
  · have hle : hit.start ≤ text.length := by
      have := h.stop_le
      have := h.start_eq
      have := h.stop_eq
      omega
    rw [charBefore_eq_getLast?_take hle, h.take_start]
    exact h.blank_before
  · have hblank := h.blank_after
    rw [← h.drop_stop, List.head?_drop] at hblank
    exact hblank

namespace Text.Phrase

variable {words : List Text} {text : Text} {start stop : Nat}

theorem bounds (h : Phrase words text start stop) (hw : Keyword.Lettered words)
    (hne : words ≠ []) : start < stop ∧ stop < text.length := by
  have hstop : stop < text.length := by
    by_contra hge
    have hblank := h.blank_after
    rw [List.getElem?_eq_none (by omega)] at hblank
    cases hblank
  have hpos := List.length_pos_iff.mpr (h.spells.ne_nil hw.bare hne)
  rw [length_slice hstop.le] at hpos
  exact ⟨by omega, hstop⟩

/-- A phrase of the words of a keyword is a hit of that keyword. -/
theorem splits (hit : Hit) (hk : hit.keyword.Regular)
    (h : Phrase hit.keyword.words text hit.start hit.stop) :
    hit.Splits text (text.take hit.start) (slice text hit.start hit.stop) (text.drop hit.stop) := by
  obtain ⟨hlt, hstop⟩ := h.bounds hk.lettered hk.words_ne_nil
  have hstart : (text.take hit.start).length = hit.start := by
    rw [List.length_take]
    omega
  refine ⟨?_, hstart.symm, ?_, h.spells, ?_, ?_⟩
  · rw [← take_eq_append_slice text hlt.le, List.take_append_drop]
  · rw [hstart, length_slice hstop.le]
    omega
  · rw [← charBefore_eq_getLast?_take (by omega)]
    exact h.blank_before
  · rw [List.head?_drop]
    exact h.blank_after

end Text.Phrase

/-! ## 3. Single words -/

/-- Whether a word in capital letters stands at a position, in any case and
between blanks. -/
def Text.wordAt (word text : Text) (position : Nat) : Bool :=
  (charBefore text position).any isBlank &&
    (slice text position (position + word.length)).map Char.toUpper == word &&
    text[position + word.length]?.any isBlank

theorem Keyword.spells_singleton_iff {word s : Text} :
    Spells [word] s ↔ s.map Char.toUpper = word := by
  constructor
  · intro h
    cases h with
    | single h => exact h
  · exact .single

theorem Text.wordAt_iff {word text : Text} {position : Nat} :
    wordAt word text position = true ↔ Phrase [word] text position (position + word.length) := by
  rw [wordAt, Bool.and_eq_true, Bool.and_eq_true, beq_iff_eq]
  constructor
  · rintro ⟨⟨hbefore, hspells⟩, hafter⟩
    exact ⟨.single hspells, hbefore, hafter⟩
  · rintro ⟨hspells, hbefore, hafter⟩
    exact ⟨⟨hbefore, Keyword.spells_singleton_iff.mp hspells⟩, hafter⟩

/-- A word begins at its position. -/
theorem Text.wordAt_head? {word text : Text} {position : Nat}
    (h : wordAt word text position = true) (hne : word ≠ []) :
    text[position]?.map Char.toUpper = word.head? := by
  have hlength : position < position + word.length := by
    have := List.length_pos_iff.mpr hne
    omega
  have hspells := Keyword.spells_singleton_iff.mp (wordAt_iff.mp h).spells
  conv_rhs => rw [← hspells]
  rw [List.head?_map, slice, List.head?_drop, List.getElem?_take_of_lt hlength]

/-- A word takes as many characters as it has letters. -/
theorem Hit.Splits.stop_eq_of_word {hit : Hit} {word text before spelled after : Text}
    (h : hit.Splits text before spelled after) (hword : hit.keyword.words = [word]) :
    hit.stop = hit.start + word.length := by
  have hspells := h.spells
  rw [hword, Keyword.spells_singleton_iff] at hspells
  rw [h.stop_eq, h.start_eq, ← hspells, List.length_map]

/-- The hit of a keyword of one word. -/
theorem Hit.Splits.wordAt {hit : Hit} {word text before spelled after : Text}
    (h : hit.Splits text before spelled after) (hword : hit.keyword.words = [word]) :
    Text.wordAt word text hit.start = true := by
  have hphrase := h.phrase
  rw [hword, h.stop_eq_of_word hword] at hphrase
  exact wordAt_iff.mpr hphrase

/-- Where a word stands, the keyword of that word has a hit. -/
theorem Text.splits_of_wordAt {keyword : Keyword} (hk : keyword.Regular) {word text : Text}
    (hword : keyword.words = [word]) {position : Nat} (h : wordAt word text position = true)
    (index : Nat) :
    Hit.Splits ⟨position, position + word.length, index, keyword⟩ text (text.take position)
      (slice text position (position + word.length)) (text.drop (position + word.length)) := by
  have hphrase := wordAt_iff.mp h
  rw [← hword] at hphrase
  exact Phrase.splits ⟨position, position + word.length, index, keyword⟩ hk hphrase

/-- The first place outside literals at which a word stands. -/
structure Text.FirstWord (word text : Text) (position : Nat) : Prop where
  stands : wordAt word text position = true
  closed : Closed (text.take position)
  first : ∀ earlier < position, Closed (text.take earlier) → wordAt word text earlier = false

/-- There is only one first place. -/
theorem Text.FirstWord.unique {word text : Text} {position position' : Nat}
    (h : FirstWord word text position) (h' : FirstWord word text position') :
    position = position' := by
  rcases Nat.lt_trichotomy position position' with hlt | heq | hlt
  · exact absurd h.stands (by simp [h'.first position hlt h.closed])
  · exact heq
  · exact absurd h'.stands (by simp [h.first position' hlt h'.closed])

/-! ## 4. Searches for a single word -/

namespace Keyword

variable {keyword : Keyword} (hk : keyword.Regular) {word : Text} (hword : keyword.words = [word])
  {text : Text} {position : Nat}
include hk hword

/-- A search for a word does not pass a place outside literals at which it
stands. -/
theorem exists_find_of_wordAt (h : wordAt word text position = true)
    (hclosed : Closed (text.take position)) :
    ∃ found, find [keyword] text 0 = some found ∧ found.start ≤ position := by
  have hsplits := splits_of_wordAt hk hword h 0
  exact exists_find_le_of_splits hk.single (by simp) hsplits rfl (Nat.zero_le _) hclosed

/-- What a search for a word finds is its first place. -/
theorem firstWord_of_find {hit : Hit} (h : find [keyword] text 0 = some hit) :
    FirstWord word text hit.start ∧
      hit = ⟨hit.start, hit.start + word.length, 0, keyword⟩ := by
  obtain ⟨before, spelled, after, hsplits, -, hclosed, hindex⟩ := find_splits hk.single h
  obtain ⟨hzero, hkeyword⟩ := List.getElem?_eq_some_iff.mp hindex
  have hindex0 : hit.index = 0 := by simpa using hzero
  have hsame : hit.keyword = keyword := by simpa [hindex0] using hkeyword.symm
  have hword' : hit.keyword.words = [word] := by rw [hsame, hword]
  refine ⟨⟨hsplits.wordAt hword', ?_, ?_⟩, ?_⟩
  · rw [hsplits.take_start]
    exact hclosed
  · intro earlier hlt hclosed'
    rw [← Bool.not_eq_true]
    intro hstands
    obtain ⟨found, hfound, hle⟩ := exists_find_of_wordAt hk hword hstands hclosed'
    obtain rfl := Option.some.inj (hfound.symm.trans h)
    omega
  · rw [← hsplits.stop_eq_of_word hword', ← hsame, ← hindex0]

/-- A search for a word finds the first place outside literals at which it
stands. -/
theorem find_of_firstWord (h : FirstWord word text position) :
    find [keyword] text 0 = some ⟨position, position + word.length, 0, keyword⟩ := by
  obtain ⟨found, hfound, -⟩ := exists_find_of_wordAt hk hword h.stands h.closed
  obtain ⟨hfirst, heq⟩ := firstWord_of_find hk hword hfound
  rw [hfound, heq, h.unique hfirst]

/-- A search for a word finds nothing exactly if the word stands nowhere
outside literals. -/
theorem find_word_eq_none_iff :
    find [keyword] text 0 = none ↔
      ∀ position, Closed (text.take position) → wordAt word text position = false := by
  constructor
  · intro hnone position hclosed
    rw [← Bool.not_eq_true]
    intro hstands
    obtain ⟨found, hfound, -⟩ := exists_find_of_wordAt hk hword hstands hclosed
    rw [hnone] at hfound
    cases hfound
  · intro hnowhere
    rw [Option.eq_none_iff_forall_ne_some]
    intro hit hhit
    have hfirst := (firstWord_of_find hk hword hhit).1
    exact absurd hfirst.stands (by simp [hnowhere _ hfirst.closed])

end Keyword

end SelectOutline
