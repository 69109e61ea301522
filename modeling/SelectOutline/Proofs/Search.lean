/-
SelectOutline.Proofs.Search — what a search for keywords finds.

A hit splits the text in three: what stands before the keyword, the
keyword as it is written, and what follows (`Hit.Splits`). The text
between the start of a search and its hit is closed, so that a hit
never lies in a literal that the search has seen the beginning of
(`find_splits`), and this stays so when the search goes on behind the
hit (`findAll_splits`).

The other way round, a search passes over text in which no keyword
stands. `findFrom_append` is the general form of that, and
`Absent.findFrom_eq` the one for a text known to hold none.
-/
import SelectOutline.Keyword.Search
import SelectOutline.Proofs.Spelling

namespace SelectOutline

open Text

/-! ## 1. Keywords between blanks -/

/-- A keyword of capital letters that has to stand between blanks. All
keywords of the vocabulary but the two that open a query are such. -/
structure Keyword.Regular (keyword : Keyword) : Prop where
  lettered : Keyword.Lettered keyword.words
  words_ne_nil : keyword.words ≠ []
  blankBefore : keyword.blankBefore = true
  blankAfter : keyword.blankAfter = true
  mayEnd : keyword.mayEnd = false

theorem regular_from : kwFrom.Regular := ⟨by decide, by decide, rfl, rfl, rfl⟩
theorem regular_on : kwOn.Regular := ⟨by decide, by decide, rfl, rfl, rfl⟩
theorem regular_where : kwWhere.Regular := ⟨by decide, by decide, rfl, rfl, rfl⟩
theorem regular_groupBy : kwGroupBy.Regular := ⟨by decide, by decide, rfl, rfl, rfl⟩
theorem regular_orderBy : kwOrderBy.Regular := ⟨by decide, by decide, rfl, rfl, rfl⟩
theorem regular_limit : kwLimit.Regular := ⟨by decide, by decide, rfl, rfl, rfl⟩
theorem regular_like : kwLike.Regular := ⟨by decide, by decide, rfl, rfl, rfl⟩

theorem regular_joins : ∀ keyword ∈ kwJoins, keyword.Regular := by
  intro keyword h
  simp only [kwJoins, List.mem_cons, List.not_mem_nil, or_false] at h
  rcases h with rfl | rfl | rfl <;> exact ⟨by decide, by decide, rfl, rfl, rfl⟩

theorem regular_connectives : ∀ keyword ∈ kwConnectives, keyword.Regular := by
  intro keyword h
  simp only [kwConnectives, List.mem_cons, List.not_mem_nil, or_false] at h
  rcases h with rfl | rfl <;> exact ⟨by decide, by decide, rfl, rfl, rfl⟩

/-- The same for a search of one keyword. -/
theorem Keyword.Regular.single {keyword : Keyword} (h : keyword.Regular) :
    ∀ other ∈ [keyword], other.Regular := by
  intro other hother
  rw [List.mem_singleton.mp hother]
  exact h

/-- No later word of one of the keywords begins as one of the keywords
does. -/
abbrev Keyword.Apart (keywords : List Keyword) : Prop :=
  ∀ keyword ∈ keywords, ∀ word ∈ keyword.words.tail, ∀ other ∈ keywords,
    word.head? ≠ other.initial

/-- Keywords that do not get in each other's way: they stand between blanks,
begin with different letters, and no later word of one begins as another
does. -/
structure Keyword.Separate (keywords : List Keyword) : Prop where
  regular : ∀ keyword ∈ keywords, keyword.Regular
  initials : (keywords.map Keyword.initial).Nodup
  apart : Keyword.Apart keywords

theorem Keyword.Regular.separate {keyword : Keyword} (h : keyword.Regular)
    (hapart : Keyword.Apart [keyword]) : Keyword.Separate [keyword] :=
  ⟨h.single, by simp, hapart⟩

theorem separate_joins : Keyword.Separate kwJoins := ⟨regular_joins, by decide, by decide⟩
theorem separate_connectives : Keyword.Separate kwConnectives :=
  ⟨regular_connectives, by decide, by decide⟩
theorem separate_on : Keyword.Separate [kwOn] := regular_on.separate (by decide)
theorem separate_limit : Keyword.Separate [kwLimit] := regular_limit.separate (by decide)

/-- A keyword of capital letters that may stand at the very start of a
text and has to be followed by a blank. -/
structure Keyword.Opening (keyword : Keyword) (word : Text) : Prop where
  words_eq : keyword.words = [word]
  lettered : Keyword.Lettered keyword.words
  blankBefore : keyword.blankBefore = false
  blankAfter : keyword.blankAfter = true
  mayEnd : keyword.mayEnd = false

theorem opening_select : kwSelect.Opening "SELECT".toList := ⟨by decide, by decide, rfl, rfl, rfl⟩
theorem opening_distinct : kwDistinct.Opening "DISTINCT".toList :=
  ⟨by decide, by decide, rfl, rfl, rfl⟩

theorem Text.charBefore_append (s t : Text) : charBefore (s ++ t) s.length = s.getLast? := by
  cases hs : s.length with
  | zero =>
    rw [List.length_eq_zero_iff.mp hs]
    rfl
  | succ n =>
    rw [charBefore, List.getElem?_append_left (by omega), List.getLast?_eq_getElem?, hs]
    rfl

/-- What stands before a place is the end of the text up to it. -/
theorem Text.charBefore_eq_getLast?_take {text : Text} {position : Nat}
    (h : position ≤ text.length) : charBefore text position = (text.take position).getLast? := by
  have hsplit := charBefore_append (text.take position) (text.drop position)
  rw [List.take_append_drop, List.length_take, Nat.min_eq_left h] at hsplit
  exact hsplit

/-- A text up to a place, taken apart at an earlier one. -/
theorem Text.take_eq_append_slice (text : Text) {start position : Nat} (h : start ≤ position) :
    text.take position = text.take start ++ slice text start position := by
  have hsplit := (List.take_append_drop start (text.take position)).symm
  rw [List.take_take, Nat.min_eq_left h] at hsplit
  exact hsplit

/-! ## 2. One place -/

/-- A hit splits a text into what stands before the keyword, the keyword
and what stands after it. -/
structure Hit.Splits (hit : Hit) (text before spelled after : Text) : Prop where
  text_eq : text = before ++ spelled ++ after
  start_eq : hit.start = before.length
  stop_eq : hit.stop = before.length + spelled.length
  spells : Keyword.Spells hit.keyword.words spelled
  blank_before : before.getLast?.any isBlank = true
  blank_after : after.head?.any isBlank = true

namespace Hit.Splits

variable {hit : Hit} {text before spelled after : Text}

/-- Where a keyword stands does not depend on its place among others. -/
theorem withIndex (h : hit.Splits text before spelled after) (index : Nat) :
    { hit with index }.Splits text before spelled after :=
  ⟨h.text_eq, h.start_eq, h.stop_eq, h.spells, h.blank_before, h.blank_after⟩

/-- In a text without quotes every keyword stands outside literals. -/
theorem closed_drop (h : hit.Splits text before spelled after) (hquote : Unquoted text)
    (start : Nat) : Closed (before.drop start) := by
  refine Unquoted.closed fun c hc => hquote c ?_
  rw [h.text_eq, List.append_assoc]
  exact List.mem_append_left _ (List.mem_of_mem_drop hc)

theorem take_start (h : hit.Splits text before spelled after) : text.take hit.start = before := by
  rw [h.start_eq, h.text_eq, List.append_assoc, List.take_left]

theorem drop_stop (h : hit.Splits text before spelled after) : text.drop hit.stop = after := by
  rw [h.stop_eq, h.text_eq, ← List.length_append, List.drop_left]

theorem take_stop (h : hit.Splits text before spelled after) :
    text.take hit.stop = before ++ spelled := by
  rw [h.stop_eq, h.text_eq, ← List.length_append, List.take_left]

theorem stop_le (h : hit.Splits text before spelled after) : hit.stop < text.length := by
  have hne : after ≠ [] := by
    rintro rfl
    exact absurd h.blank_after (by simp)
  have := List.length_pos_iff.mpr hne
  rw [h.stop_eq, h.text_eq, List.length_append, List.length_append]
  omega

theorem start_lt_stop (h : hit.Splits text before spelled after) (hk : hit.keyword.Regular) :
    hit.start < hit.stop := by
  have := List.length_pos_iff.mpr (h.spells.ne_nil hk.lettered.bare hk.words_ne_nil)
  rw [h.start_eq, h.stop_eq]
  omega

/-- Of two keywords that stand in a text the first one ends, and a blank
follows it, before the second one begins. -/
theorem stop_lt_start {keywords : List Keyword} (hk : Keyword.Separate keywords) {hit' : Hit}
    {before' spelled' after' : Text}
    (h : hit.Splits text before spelled after) (h' : hit'.Splits text before' spelled' after')
    (hmem : hit.keyword ∈ keywords) (hmem' : hit'.keyword ∈ keywords)
    (hlt : hit.start < hit'.start) : hit.stop < hit'.start := by
  have hregular := hk.regular _ hmem
  have hregular' := hk.regular _ hmem'
  obtain ⟨c, rest, rfl, hc⟩ :=
    h'.spells.exists_initial hregular'.lettered hregular'.words_ne_nil
  have hbare : isBlank c = false := h'.spells.startsBare hregular'.lettered.bare c rfl
  rw [h.start_eq, h'.start_eq] at hlt
  rw [h.stop_eq, h'.start_eq]
  have hprefix : before <+: text := ⟨spelled ++ after, by rw [h.text_eq, List.append_assoc]⟩
  have hprefix' : before' <+: text :=
    ⟨c :: rest ++ after', by rw [h'.text_eq, List.append_assoc]⟩
  obtain ⟨gap, rfl⟩ := List.prefix_of_prefix_length_le hprefix hprefix' hlt.le
  have hne : gap ≠ [] := by
    rintro rfl
    simp at hlt
  have hblank := h'.blank_before
  rw [List.getLast?_append_of_ne_nil _ hne] at hblank
  have heq : spelled ++ after = gap ++ (c :: rest ++ after') := by
    have := h.text_eq.symm.trans h'.text_eq
    simpa using this
  rcases List.append_eq_append_iff.mp heq with ⟨u, rfl, -⟩ | ⟨u, rfl, hu⟩
  · -- The first keyword ends before the blank that the second one needs.
    cases u with
    | nil =>
      obtain ⟨b, hb, hisBlank⟩ := (Option.any_eq_true _ _).mp hblank
      rw [List.append_nil] at hb
      rw [h.spells.endsBare hregular.lettered.bare b hb] at hisBlank
      cases hisBlank
    | cons d u => simp
  · -- The second keyword would begin with a later word of the first.
    cases u with
    | nil =>
      obtain ⟨b, hb, hisBlank⟩ := (Option.any_eq_true _ _).mp hblank
      rw [h.spells.endsBare hregular.lettered.bare b (by simpa using hb)] at hisBlank
      cases hisBlank
    | cons d u =>
      obtain rfl := (List.cons.inj hu).1
      obtain ⟨word, hword, hinitial⟩ :=
        h.spells.exists_later_word hregular.lettered rfl hblank hbare
      exact absurd (hinitial.symm.trans hc) (hk.apart _ hmem word hword _ hmem')

end Hit.Splits

namespace Keyword

/-- A regular keyword is followed by a blank. -/
theorem Admits.blank_head {keyword : Keyword} {rest : Text} (h : keyword.Admits rest)
    (hk : keyword.Regular) : rest.head?.any isBlank = true := by
  cases rest with
  | nil =>
    rw [Admits, hk.mayEnd] at h
    cases h
  | cons c rest => exact h hk.blankAfter

theorem admits_of_blank_head {keyword : Keyword} {rest : Text}
    (h : rest.head?.any isBlank = true) : keyword.Admits rest := by
  cases rest with
  | nil => cases h
  | cons c rest => exact fun _ => h

theorem matchAt_append (keyword : Keyword) (s t : Text) :
    keyword.matchAt (s ++ t) s.length = keyword.matchHere s.getLast? t := by
  rw [matchAt, charBefore_append, List.drop_left]

/-- Where an opening keyword is seen. -/
theorem Opening.matchHere_eq_some_iff {keyword : Keyword} {word : Text} (h : keyword.Opening word)
    {before : Option Char} {text : Text} {length : Nat} :
    keyword.matchHere before text = some length ↔
      ∃ s rest, text = s ++ rest ∧ s.map Char.toUpper = word ∧ s.length = length ∧
        rest.head?.any isBlank = true := by
  rw [Keyword.matchHere_eq_some_iff h.lettered.bare, h.words_eq, h.blankBefore]
  constructor
  · rintro ⟨-, s, rest, heq, hs, hlength, hadmits⟩
    refine ⟨s, rest, heq, ?_, hlength, ?_⟩
    · cases hs with
      | single hs => exact hs
    · cases rest with
      | nil =>
        rw [Admits, h.mayEnd] at hadmits
        cases hadmits
      | cons c rest => exact hadmits h.blankAfter
  · rintro ⟨s, rest, heq, hs, hlength, hblank⟩
    refine ⟨Bool.noConfusion, s, rest, heq, .single hs, hlength, ?_⟩
    cases rest with
    | nil => cases hblank
    | cons c rest => exact fun _ => hblank

theorem firstHere_eq_none_iff {keywords : List Keyword} {before : Option Char} {position : Nat}
    {text : Text} :
    firstHere keywords before position text = none ↔
      ∀ keyword ∈ keywords, keyword.matchHere before text = none := by
  simp only [firstHere, List.findSome?_eq_none_iff, Option.map_eq_none_iff, Prod.forall]
  constructor
  · intro h keyword hmem
    obtain ⟨index, hindex⟩ := List.mem_iff_getElem?.mp hmem
    exact h keyword index (List.mem_zipIdx_iff_getElem?.mpr hindex)
  · intro h keyword index hmem
    exact h keyword (List.mem_of_getElem? (List.mem_zipIdx_iff_getElem?.mp hmem))

theorem firstHere_eq_some {keywords : List Keyword} {before : Option Char} {position : Nat}
    {text : Text} {hit : Hit} (h : firstHere keywords before position text = some hit) :
    hit.start = position ∧ keywords[hit.index]? = some hit.keyword ∧
      ∃ length, hit.keyword.matchHere before text = some length ∧
        hit.stop = position + length := by
  obtain ⟨⟨keyword, index⟩, hmem, hmatch⟩ := List.exists_of_findSome?_eq_some h
  obtain ⟨length, hlength, rfl⟩ := Option.map_eq_some_iff.1 hmatch
  exact ⟨rfl, List.mem_zipIdx_iff_getElem?.mp hmem, length, hlength, rfl⟩

/-- None of the keywords before the one that is reported matches. -/
theorem matchHere_of_firstHere {keywords : List Keyword} {before : Option Char} {position : Nat}
    {text : Text} {hit : Hit} (h : firstHere keywords before position text = some hit)
    {index : Nat} (hlt : index < hit.index) {keyword : Keyword}
    (hkeyword : keywords[index]? = some keyword) : keyword.matchHere before text = none := by
  unfold firstHere at h
  obtain ⟨earlier, ⟨found, place⟩, later, hsplit, hmatch, hnone⟩ :=
    List.findSome?_eq_some_iff.mp h
  obtain ⟨length, -, rfl⟩ := Option.map_eq_some_iff.mp hmatch
  -- The places along `keywords.zipIdx` are 0, 1, 2 and so on.
  have hplace : place = earlier.length := by
    have hget : keywords.zipIdx[earlier.length]? = some (found, place) := by simp [hsplit]
    rw [List.getElem?_zipIdx] at hget
    obtain ⟨_, -, hpair⟩ := Option.map_eq_some_iff.mp hget
    simpa using (congrArg Prod.snd hpair).symm
  have hget : earlier[index]? = some (keyword, index) := by
    have : keywords.zipIdx[index]? = some (keyword, index) := by
      simp [List.getElem?_zipIdx, hkeyword]
    rw [hsplit, List.getElem?_append_left (by simpa [← hplace] using hlt)] at this
    exact this
  exact Option.map_eq_none_iff.mp (hnone _ (List.mem_of_getElem? hget))

/-- Two places at which the same keywords match. -/
theorem firstHere_congr {keywords : List Keyword} {before before' : Option Char} {s s' : Text}
    (h : ∀ keyword ∈ keywords, keyword.matchHere before s = keyword.matchHere before' s')
    (position : Nat) :
    firstHere keywords before position s = firstHere keywords before' position s' := by
  rw [firstHere, firstHere, ← List.head?_filterMap, ← List.head?_filterMap]
  congr 1
  refine List.filterMap_congr ?_
  rintro ⟨keyword, index⟩ hmem
  have hkeyword := List.mem_of_getElem? (List.mem_zipIdx_iff_getElem?.mp hmem)
  simp only [h keyword hkeyword]

/-- Of several keywords the first that matches is reported. -/
theorem firstHere_of_match {keywords : List Keyword} {index : Nat} {keyword : Keyword}
    (hindex : keywords[index]? = some keyword) {before : Option Char} {text : Text} {length : Nat}
    (hmatch : keyword.matchHere before text = some length)
    (hfirst : ∀ other ∈ keywords.take index, other.matchHere before text = none)
    (position : Nat) :
    firstHere keywords before position text =
      some ⟨position, position + length, index, keyword⟩ := by
  have hlt : index < keywords.length := (List.getElem?_eq_some_iff.mp hindex).1
  have hlength : (keywords.take index).length = index := by
    rw [List.length_take]
    omega
  have hsplit : keywords = keywords.take index ++ keyword :: keywords.drop (index + 1) := by
    rw [← (List.getElem?_eq_some_iff.mp hindex).2, List.getElem_cons_drop,
      List.take_append_drop]
  have hnone : firstHere (keywords.take index) before position text = none :=
    firstHere_eq_none_iff.mpr hfirst
  rw [firstHere] at hnone
  rw [firstHere, hsplit, List.zipIdx_append, List.findSome?_append, hnone, hlength]
  simp [hmatch]

/-- Keywords that begin with different letters do not get in each
other's way: the one that is written is the one that is seen. -/
theorem firstHere_spelled {keywords : List Keyword} (hk : ∀ keyword ∈ keywords, keyword.Regular)
    (hinitials : (keywords.map initial).Nodup) {index : Nat} {keyword : Keyword}
    (hindex : keywords[index]? = some keyword) {before : Option Char}
    (hbefore : before.any isBlank = true) {s after : Text} (hs : Spells keyword.words s)
    (hafter : after.head?.any isBlank = true) (position : Nat) :
    firstHere keywords before position (s ++ after) =
      some ⟨position, position + s.length, index, keyword⟩ := by
  have hregular := hk keyword (List.mem_of_getElem? hindex)
  refine firstHere_of_match hindex ?_ ?_ position
  · exact (matchHere_eq_some_iff hregular.lettered.bare).mpr
      ⟨fun _ => hbefore, s, after, rfl, hs, rfl, admits_of_blank_head hafter⟩
  · intro other hmem
    obtain ⟨j, hj⟩ := List.mem_iff_getElem?.mp hmem
    have hjlt : j < index := by
      have := (List.getElem?_eq_some_iff.mp hj).1
      rw [List.length_take] at this
      omega
    rw [List.getElem?_take_of_lt hjlt] at hj
    obtain ⟨c, rest, rfl, hc⟩ := hs.exists_initial hregular.lettered hregular.words_ne_nil
    have hother := hk other (List.mem_of_getElem? hj)
    refine matchHere_of_initial_ne hother.lettered hother.words_ne_nil ?_ before (rest ++ after)
    rw [hc]
    intro heq
    have hj' : (keywords.map initial)[j]? = (keywords.map initial)[index]? := by
      rw [List.getElem?_map, List.getElem?_map, hj, hindex, Option.map_some, Option.map_some, heq]
    have hlt : j < (keywords.map initial).length := by
      rw [List.length_map]
      exact (List.getElem?_eq_some_iff.mp hj).1
    have := (List.getElem?_inj hlt hinitials).mp hj'
    omega

/-- What a hit of a keyword between blanks says about the text around
it. -/
theorem firstHere_splits {keywords : List Keyword} (hk : ∀ keyword ∈ keywords, keyword.Regular)
    {before rest : Text} {hit : Hit}
    (h : firstHere keywords before.getLast? before.length rest = some hit) :
    ∃ spelled after, hit.Splits (before ++ rest) before spelled after := by
  obtain ⟨hstart, hindex, length, hmatch, hstop⟩ := firstHere_eq_some h
  have hregular := hk hit.keyword (List.mem_of_getElem? hindex)
  obtain ⟨hbefore, s, after, rfl, hs, rfl, hafter⟩ :=
    (matchHere_eq_some_iff hregular.lettered.bare).mp hmatch
  refine ⟨s, after, ?_, hstart, hstop, hs, hbefore hregular.blankBefore,
    hafter.blank_head hregular⟩
  rw [List.append_assoc]

/-! ## 3. One search -/

theorem findFrom_cons {keywords : List Keyword} {quoting : Quoting} {before : Option Char}
    {position : Nat} {c : Char} {rest : Text}
    (h : quoting.plain c = true → firstHere keywords before position (c :: rest) = none) :
    findFrom keywords quoting before position (c :: rest) =
      findFrom keywords (quoting.step c) (some c) (position + 1) rest := by
  rw [findFrom]
  by_cases hplain : quoting.plain c = true
  · simp [hplain, h hplain]
  · simp [hplain]

theorem findFrom_of_firstHere {keywords : List Keyword} {before : Option Char} {position : Nat}
    {c : Char} {rest : Text} {hit : Hit} (hc : isQuote c = false)
    (h : firstHere keywords before position (c :: rest) = some hit) :
    findFrom keywords .outside before position (c :: rest) = some hit := by
  rw [findFrom, if_pos (Quoting.plain_outside hc), h]

/-- A search passes over text that no keyword begins in. -/
theorem findFrom_append {keywords : List Keyword} {quoting : Quoting} {before : Option Char}
    {position : Nat} {s t : Text}
    (h : ∀ u c v, s = u ++ c :: v → (quoting.scan u).plain c = true →
      firstHere keywords (u.getLast?.or before) (position + u.length) (c :: v ++ t) = none) :
    findFrom keywords quoting before position (s ++ t) =
      findFrom keywords (quoting.scan s) (s.getLast?.or before) (position + s.length) t := by
  induction s generalizing quoting before position with
  | nil => rfl
  | cons c s ih =>
    have hfirst : quoting.plain c = true →
        firstHere keywords before position (c :: (s ++ t)) = none := h [] c s rfl
    rw [List.cons_append, findFrom_cons hfirst, ih]
    · rw [Quoting.scan_cons, List.length_cons, List.getLast?_cons, Nat.add_right_comm,
        Nat.add_assoc]
      cases s.getLast? <;> rfl
    · intro u d v heq hplain
      have := h (c :: u) d v (by rw [heq]; rfl) hplain
      rw [List.getLast?_cons, List.length_cons] at this
      rw [Nat.add_assoc, Nat.add_comm 1]
      cases hu : u.getLast? <;> simpa [hu] using this

/-- A search that comes to a place where a keyword stands stops there, if
it has not stopped before. -/
theorem findFrom_of_firstHere_append {keywords : List Keyword} {quoting : Quoting}
    {last : Option Char} {position : Nat} {u v : Text} {c : Char} {hit : Hit}
    (hplain : (quoting.scan u).plain c = true)
    (hfirst : firstHere keywords (u.getLast?.or last) (position + u.length) (c :: v) = some hit) :
    ∃ found, findFrom keywords quoting last position (u ++ c :: v) = some found ∧
      (found = hit ∨ found.start < hit.start) := by
  induction u generalizing quoting last position with
  | nil =>
    have hhere : firstHere keywords last position (c :: v) = some hit := hfirst
    have hc : quoting.plain c = true := hplain
    refine ⟨hit, ?_, .inl rfl⟩
    rw [List.nil_append, findFrom, if_pos hc, hhere]
  | cons d u ih =>
    rw [List.cons_append, findFrom]
    split
    · next found hfound =>
      refine ⟨found, rfl, .inr ?_⟩
      have hstart : found.start = position := by
        split at hfound
        · exact firstHere_start hfound
        · cases hfound
      rw [hstart, firstHere_start hfirst, List.length_cons]
      omega
    · refine ih hplain ?_
      rw [List.getLast?_cons, List.length_cons] at hfirst
      rw [Nat.add_assoc, Nat.add_comm 1]
      cases hu : u.getLast? <;> simpa [hu] using hfirst

/-- Where a search stops, the text it has passed is closed. -/
theorem findFrom_eq_some {keywords : List Keyword} {quoting : Quoting} {before : Option Char}
    {position : Nat} {text : Text} {hit : Hit}
    (h : findFrom keywords quoting before position text = some hit) :
    ∃ u v, text = u ++ v ∧ quoting.scan u = .outside ∧
      firstHere keywords (u.getLast?.or before) (position + u.length) v = some hit := by
  induction text generalizing quoting before position with
  | nil => cases h
  | cons c rest ih =>
    by_cases hplain : quoting.plain c = true
    · cases hfirst : firstHere keywords before position (c :: rest) with
      | some found =>
        simp only [findFrom, hplain, if_true, hfirst] at h
        obtain rfl := Option.some.inj h
        exact ⟨[], c :: rest, rfl, (Quoting.plain_iff.mp hplain).1, hfirst⟩
      | none =>
        rw [findFrom_cons (fun _ => hfirst)] at h
        obtain ⟨u, v, rfl, hscan, hhit⟩ := ih h
        refine ⟨c :: u, v, rfl, hscan, ?_⟩
        rw [List.getLast?_cons, List.length_cons]
        rw [Nat.add_assoc, Nat.add_comm 1] at hhit
        cases hu : u.getLast? <;> simpa [hu] using hhit
    · rw [findFrom_cons (fun hc => absurd hc hplain)] at h
      obtain ⟨u, v, rfl, hscan, hhit⟩ := ih h
      refine ⟨c :: u, v, rfl, hscan, ?_⟩
      rw [List.getLast?_cons, List.length_cons]
      rw [Nat.add_assoc, Nat.add_comm 1] at hhit
      cases hu : u.getLast? <;> simpa [hu] using hhit

theorem find_append (keywords : List Keyword) (s t : Text) :
    find keywords (s ++ t) s.length =
      findFrom keywords .outside s.getLast? s.length t := by
  rw [find, charBefore_append, List.drop_left]

theorem find_zero (keywords : List Keyword) (text : Text) :
    find keywords text 0 = findFrom keywords .outside none 0 text := rfl

/-- A hit splits the text, and lies outside the literals that begin
after the start of the search. -/
theorem find_splits {keywords : List Keyword} (hk : ∀ keyword ∈ keywords, keyword.Regular)
    {text : Text} {start : Nat} {hit : Hit} (h : find keywords text start = some hit) :
    ∃ before spelled after, hit.Splits text before spelled after ∧ start ≤ before.length ∧
      Closed (before.drop start) ∧ keywords[hit.index]? = some hit.keyword := by
  have hlt := find_start h
  have hlength : (text.take start).length = start := by
    rw [List.length_take]
    omega
  have htext : text = text.take start ++ text.drop start := (List.take_append_drop start text).symm
  have hfrom : findFrom keywords .outside (text.take start).getLast? start (text.drop start)
      = some hit := by
    rw [← h, find, charBefore_eq_getLast?_take (by omega)]
  obtain ⟨u, v, hsplit, hclosed, hhit⟩ := findFrom_eq_some hfrom
  rw [← List.getLast?_append] at hhit
  have hposition : start + u.length = (text.take start ++ u).length := by
    rw [List.length_append, hlength]
  rw [hposition] at hhit
  obtain ⟨spelled, after, hsplits⟩ := firstHere_splits hk hhit
  rw [List.append_assoc, ← hsplit, ← htext] at hsplits
  refine ⟨_, spelled, after, hsplits, by omega, ?_, (firstHere_eq_some hhit).2.1⟩
  rw [List.drop_left' hlength]
  exact hclosed

/-! ## 4. Repeated search -/

theorem findAll_of_none {keywords : List Keyword} {text : Text} {start : Nat}
    (h : find keywords text start = none) : findAll keywords text start = [] := by
  rw [findAll]
  split
  · rfl
  · next hit hfound =>
    rw [h] at hfound
    cases hfound

theorem findAll_of_some {keywords : List Keyword} (hk : ∀ keyword ∈ keywords, keyword.Regular)
    {text : Text} {start : Nat} {hit : Hit} (h : find keywords text start = some hit) :
    findAll keywords text start = hit :: findAll keywords text hit.stop := by
  obtain ⟨before, spelled, after, hsplits, -, -, hindex⟩ := find_splits hk h
  have hlt := hsplits.start_lt_stop (hk _ (List.mem_of_getElem? hindex))
  rw [findAll]
  split
  · next hfound =>
    rw [h] at hfound
    cases hfound
  · next found hfound =>
    rw [h] at hfound
    obtain rfl := Option.some.inj hfound
    rw [if_pos hlt]

/-- What holds of a repeated search: each hit is put in front of the hits
of the search behind it. -/
theorem findAll_induction {keywords : List Keyword} (hk : ∀ keyword ∈ keywords, keyword.Regular)
    {text : Text} {motive : Nat → List Hit → Prop}
    (hnone : ∀ start, find keywords text start = none → motive start [])
    (hsome : ∀ start hit, find keywords text start = some hit →
      motive hit.stop (findAll keywords text hit.stop) →
        motive start (hit :: findAll keywords text hit.stop)) (start : Nat) :
    motive start (findAll keywords text start) := by
  induction hn : text.length - start using Nat.strong_induction_on generalizing start with
  | _ n ih =>
    cases hfind : find keywords text start with
    | none =>
      rw [findAll_of_none hfind]
      exact hnone start hfind
    | some hit =>
      obtain ⟨before, spelled, after, hsplits, hle, -, hindex⟩ := find_splits hk hfind
      have hlt := hsplits.start_lt_stop (hk _ (List.mem_of_getElem? hindex))
      have hstart := hsplits.start_eq
      have hstop := hsplits.stop_le
      rw [findAll_of_some hk hfind]
      exact hsome start hit hfind (ih (text.length - hit.stop) (by omega) hit.stop rfl)

/-- Two texts in which every search finds the same, from the places on
that the searches come to. -/
theorem findAll_congr {keywords : List Keyword} (hk : ∀ keyword ∈ keywords, keyword.Regular)
    {s s' : Text} {P : Nat → Prop}
    (hfind : ∀ start, P start → find keywords s start = find keywords s' start)
    (hstop : ∀ start hit, P start → find keywords s start = some hit → P hit.stop) {start : Nat}
    (hstart : P start) : findAll keywords s start = findAll keywords s' start := by
  revert hstart
  refine findAll_induction (motive := fun start hits => P start → hits = findAll keywords s' start)
    hk ?_ ?_ start
  · intro start hnone hstart
    rw [hfind start hstart] at hnone
    rw [findAll_of_none hnone]
  · intro start hit hhit ih hstart
    have hrest := ih (hstop start hit hstart hhit)
    rw [hfind start hstart] at hhit
    rw [findAll_of_some hk hhit, hrest]

/-- A repeated search sees the literals that one search over the text
sees: every hit ends outside literals, so that the next search may
begin there afresh. -/
theorem findAll_splits {keywords : List Keyword} (hk : ∀ keyword ∈ keywords, keyword.Regular)
    {text : Text} {start : Nat} {hit : Hit} (h : hit ∈ findAll keywords text start) :
    ∃ before spelled after, hit.Splits text before spelled after ∧ start ≤ before.length ∧
      Closed (before.drop start) ∧ keywords[hit.index]? = some hit.keyword := by
  revert h
  refine findAll_induction (motive := fun start hits => hit ∈ hits →
    ∃ before spelled after, hit.Splits text before spelled after ∧ start ≤ before.length ∧
      Closed (before.drop start) ∧ keywords[hit.index]? = some hit.keyword) hk ?_ ?_ start
  · intro start _ hmem
    cases hmem
  · intro start first hfind ih hmem
    obtain ⟨before, spelled, after, hsplits, hstart, hclosed, hindex⟩ := find_splits hk hfind
    rcases List.mem_cons.mp hmem with rfl | hmem
    · exact ⟨before, spelled, after, hsplits, hstart, hclosed, hindex⟩
    have hstop := hsplits.stop_eq
    have hregular := hk first.keyword (List.mem_of_getElem? hindex)
    obtain ⟨before', spelled', after', hsplits', hstart', hclosed', hindex'⟩ := ih hmem
    refine ⟨before', spelled', after', hsplits', by omega, ?_, hindex'⟩
    -- `before'` goes on behind the first hit, whose text holds no quotes.
    have htake : before'.take first.stop = before ++ spelled := by
      have htext : before' ++ (spelled' ++ after') = before ++ spelled ++ after := by
        rw [← List.append_assoc, ← hsplits'.text_eq, hsplits.text_eq]
      have := congrArg (List.take first.stop) htext
      rw [List.take_append_of_le_length hstart', hstop, ← List.length_append,
        List.take_left] at this
      rw [hstop, ← List.length_append]
      exact this
    have hdrop : before'.drop start = before.drop start ++ spelled ++ before'.drop first.stop := by
      calc before'.drop start
          = (before'.take first.stop ++ before'.drop first.stop).drop start := by
            rw [List.take_append_drop]
        _ = before.drop start ++ spelled ++ before'.drop first.stop := by
            rw [htake, List.append_assoc, List.drop_append_of_le_length hstart,
              List.append_assoc]
    rw [hdrop]
    exact (hclosed.append (hsplits.spells.unquoted hregular.lettered).closed).append hclosed'

/-! ## 5. Places of keywords -/

/-- One of the keywords stands at a position, outside the literals that
begin at or after `start`. -/
structure Stands (keywords : List Keyword) (text : Text) (start position : Nat) : Prop where
  le : start ≤ position
  closed : Closed (slice text start position)
  seen : ∃ keyword ∈ keywords, (keyword.matchAt text position).isSome = true

/-- None of the keywords stands in the text outside literals. -/
def Absent (keywords : List Keyword) (text : Text) : Prop :=
  ∀ position, Closed (text.take position) →
    ∀ keyword ∈ keywords, keyword.matchAt text position = none

theorem absent_iff {keywords : List Keyword} {text : Text} :
    Absent keywords text ↔ ∀ position, ¬ Stands keywords text 0 position := by
  constructor
  · rintro h position ⟨-, hclosed, keyword, hmem, hseen⟩
    rw [h position hclosed keyword hmem] at hseen
    cases hseen
  · intro h position hclosed keyword hmem
    by_contra hne
    exact h position ⟨Nat.zero_le _, hclosed, keyword, hmem, Option.isSome_iff_ne_none.mpr hne⟩

/-- Where a keyword stands it splits the text. -/
theorem stands_iff_splits {keywords : List Keyword} (hk : ∀ keyword ∈ keywords, keyword.Regular)
    {text : Text} {start position : Nat} :
    Stands keywords text start position ↔
      ∃ (hit : Hit) (before spelled after : Text),
        hit.Splits text before spelled after ∧ hit.start = position ∧ hit.keyword ∈ keywords ∧
        start ≤ before.length ∧ Closed (before.drop start) := by
  constructor
  · rintro ⟨hle, hclosed, keyword, hmem, hseen⟩
    have hregular := hk keyword hmem
    obtain ⟨length, hmatch⟩ := Option.isSome_iff_exists.mp hseen
    rw [matchAt] at hmatch
    obtain ⟨hbefore, s, after, heq, hs, -, hadmits⟩ :=
      (matchHere_eq_some_iff hregular.lettered.bare).mp hmatch
    have hlength : position ≤ text.length := by
      have hne := hs.ne_nil hregular.lettered.bare hregular.words_ne_nil
      by_contra hlt
      rw [List.drop_eq_nil_of_le (by omega)] at heq
      exact hne (List.append_eq_nil_iff.mp heq.symm).1
    have htake : (text.take position).length = position := by simp [hlength]
    refine ⟨⟨position, position + s.length, 0, keyword⟩, text.take position, s, after,
      ⟨?_, htake.symm, by rw [htake], hs, ?_, hadmits.blank_head hregular⟩, rfl, hmem, by omega,
      hclosed⟩
    · rw [List.append_assoc, ← heq, List.take_append_drop]
    · rw [← charBefore_eq_getLast?_take hlength]
      exact hbefore hregular.blankBefore
  · rintro ⟨hit, before, spelled, after, hsplits, rfl, hmem, hle, hclosed⟩
    rw [hsplits.start_eq]
    refine ⟨hle, ?_, hit.keyword, hmem, ?_⟩
    · rw [slice, ← hsplits.start_eq, hsplits.take_start]
      exact hclosed
    · rw [hsplits.text_eq, List.append_assoc, matchAt_append,
        (matchHere_eq_some_iff (hk _ hmem).lettered.bare).mpr ⟨fun _ => hsplits.blank_before, spelled,
          after, rfl, hsplits.spells, rfl, admits_of_blank_head hsplits.blank_after⟩]
      rfl

theorem firstHere_of_findFrom_eq_none {keywords : List Keyword} {quoting : Quoting}
    {before : Option Char} {position : Nat} {u v : Text} {c : Char}
    (h : findFrom keywords quoting before position (u ++ c :: v) = none)
    (hplain : (quoting.scan u).plain c = true) :
    firstHere keywords (u.getLast?.or before) (position + u.length) (c :: v) = none := by
  rw [Option.eq_none_iff_forall_ne_some]
  intro hit hfirst
  obtain ⟨found, hfound, -⟩ := findFrom_of_firstHere_append hplain hfirst
  rw [h] at hfound
  cases hfound

/-- A search that finds nothing says that there is nothing to find. -/
theorem not_stands_of_find_eq_none {keywords : List Keyword}
    (hk : ∀ keyword ∈ keywords, keyword.Regular) {text : Text} {start position : Nat}
    (h : find keywords text start = none) : ¬ Stands keywords text start position := by
  intro hstands
  obtain ⟨hit, before, spelled, after, hsplits, rfl, hmem, hle, hclosed⟩ :=
    (stands_iff_splits hk).mp hstands
  have hregular := hk _ hmem
  obtain ⟨c, rest, hspelled, -⟩ :=
    hsplits.spells.exists_initial hregular.lettered hregular.words_ne_nil
  have hquote : isQuote c = false :=
    hsplits.spells.unquoted hregular.lettered c (by simp [hspelled])
  have hbefore : before = text.take start ++ before.drop start := by
    conv_lhs => rw [← List.take_append_drop start before]
    rw [hsplits.text_eq, List.append_assoc, List.take_append_of_le_length hle]
  have hdrop : text.drop start = before.drop start ++ c :: (rest ++ after) := by
    rw [hsplits.text_eq, List.append_assoc, List.drop_append_of_le_length hle, hspelled,
      List.cons_append]
  have hlength : start ≤ text.length := by
    have := hsplits.stop_le
    have := hsplits.stop_eq
    omega
  rw [find, charBefore_eq_getLast?_take hlength, hdrop] at h
  have hfirst := firstHere_of_findFrom_eq_none h (Quoting.plain_iff.mpr ⟨hclosed, hquote⟩)
  rw [← List.getLast?_append, ← hbefore, firstHere_eq_none_iff] at hfirst
  -- The keyword would have been seen where it stands.
  have hnone := hfirst _ hmem
  rw [(matchHere_eq_some_iff hregular.lettered.bare).mpr ⟨fun _ => hsplits.blank_before, spelled, after,
    by rw [hspelled]; rfl, hsplits.spells, rfl, admits_of_blank_head hsplits.blank_after⟩] at hnone
  cases hnone

/-- A search finds something exactly if there is something to find. -/
theorem isSome_find_iff {keywords : List Keyword} (hk : ∀ keyword ∈ keywords, keyword.Regular)
    {text : Text} {start : Nat} :
    (find keywords text start).isSome = true ↔ ∃ position, Stands keywords text start position := by
  constructor
  · intro h
    obtain ⟨hit, hfind⟩ := Option.isSome_iff_exists.mp h
    obtain ⟨before, spelled, after, hsplits, hle, hclosed, hindex⟩ := find_splits hk hfind
    exact ⟨hit.start, (stands_iff_splits hk).mpr ⟨hit, before, spelled, after, hsplits, rfl,
      List.mem_of_getElem? hindex, hle, hclosed⟩⟩
  · rintro ⟨position, hstands⟩
    rw [Option.isSome_iff_ne_none]
    intro hnone
    exact not_stands_of_find_eq_none hk hnone hstands

theorem absent_of_find_eq_none {keywords : List Keyword}
    (hk : ∀ keyword ∈ keywords, keyword.Regular) {text : Text}
    (h : find keywords text 0 = none) : Absent keywords text :=
  absent_iff.mpr fun _ => not_stands_of_find_eq_none hk h

/-- A search passes over a text that none of the keywords stands in, and
over the blank after it, if what follows cannot complete a keyword. -/
theorem Absent.findFrom_eq {keywords : List Keyword}
    (hk : ∀ keyword ∈ keywords, keyword.Regular) {head s rest : Text} {b : Char}
    (h : Absent keywords (head ++ s ++ [b])) (hhead : Closed head) (hb : isBlank b = true)
    (hrest : ∀ keyword ∈ keywords, ∀ word ∈ keyword.words.tail,
      stripWord word (trimStart rest) = none) (position : Nat) :
    findFrom keywords .outside head.getLast? position (s ++ b :: rest) =
      findFrom keywords (Quoting.outside.scan s) (some b) (position + s.length + 1) rest := by
  have happend : s ++ b :: rest = (s ++ [b]) ++ rest := by simp
  rw [happend, findFrom_append]
  · rw [Quoting.scan_append, List.getLast?_concat, List.length_append]
    rw [Quoting.scan_unquoted (Quoting.scan_proper Quoting.proper_outside s)
      (fun c hc => by rw [List.mem_singleton.mp hc]; exact isQuote_of_isBlank hb)]
    rfl
  · intro u c v heq hplain
    rw [firstHere_eq_none_iff]
    intro keyword hmem
    -- The place is one of `head ++ s ++ [b]`, where nothing stands.
    have hnone := h (head ++ u).length (by
      rw [List.append_assoc, heq, ← List.append_assoc, List.take_left]
      exact hhead.append (Quoting.plain_iff.mp hplain).1) keyword hmem
    rw [List.append_assoc, heq, ← List.append_assoc, matchAt_append, List.getLast?_append] at hnone
    obtain ⟨w, hw⟩ : ∃ w, c :: v = w ++ [b] := by
      have hlast : (c :: v).getLast? = some b := by
        have := congrArg List.getLast? heq
        rw [List.getLast?_concat, List.getLast?_append_of_ne_nil u (List.cons_ne_nil c v)] at this
        exact this.symm
      exact ⟨(c :: v).dropLast, (List.dropLast_append_getLast? b hlast).symm⟩
    rw [hw] at hnone ⊢
    rw [List.append_assoc, List.singleton_append,
      matchHere_append_blank (hk keyword hmem).lettered hb (hrest keyword hmem)]
    exact hnone

end Keyword

end SelectOutline
