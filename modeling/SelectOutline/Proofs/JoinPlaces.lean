/-
SelectOutline.Proofs.JoinPlaces — the join of a text without quotes, by
the places of its parts.

The join is found by a search for join keywords around a search for `ON`.
What the two come to is said here by positions alone. The join begins at
the first join keyword there is. Its table ends at the first `ON` behind
that keyword that has something before it and a pair of identifiers behind
it (`Closes`), and if there is no such `ON` the text has no join at all,
whatever keywords follow: `Join.find_places` also says that going on to a
later keyword never finds anything.

`FirstJoin` says which join is found by the parts of the text. Its theorem
is used here and the searches are not opened again, except to see that the
first keyword alone decides (`Join.find_eq_value_complete`).
-/
import Mathlib.Data.Nat.Find
import SelectOutline.Proofs.FirstJoin
import SelectOutline.Proofs.Phrases

namespace SelectOutline

open Text

/-! ## 1. Pairs of identifiers -/

/-- A pair of identifiers stands in the text from `start` up to `stop`, and
its right identifier does not go on there. -/
structure JoinKeys.StandsAt (keys : JoinKeys) (text : Text) (start stop : Nat) : Prop where
  le : start ≤ stop
  inside : stop ≤ text.length
  written : keys.Written (slice text start stop)
  left : IsIdentifier keys.left
  right : IsIdentifier keys.right
  ends : ∀ c ∈ text[stop]?, isIdentifierChar c = false

/-- The pair that is read at a place is the one that stands there. -/
theorem JoinKeys.read_eq_some_iff {keys : JoinKeys} {text : Text} {start stop : Nat}
    (hstart : start ≤ text.length) :
    (∃ after : Cursor, JoinKeys.read ⟨text, start⟩ = some (keys, after) ∧ stop = after.position) ↔
      keys.StandsAt text start stop := by
  constructor
  · rintro ⟨after, h, rfl⟩
    obtain ⟨hleft, hright, hends, pair, hwritten, hpasses⟩ := read_eq_some h
    have hafter : after.rest = text.drop after.position := by rw [Cursor.rest, hpasses.text_eq]
    have hrest : text.drop start = pair ++ text.drop after.position := hafter ▸ hpasses.rest_eq
    have hstop : after.position = start + pair.length := hpasses.position_eq
    have hlength := congrArg List.length hrest
    simp only [List.length_append, List.length_drop] at hlength
    refine ⟨by omega, by omega, ?_, hleft, hright, ?_⟩
    · rw [hstop, slice_add, hrest, List.take_left]
      exact hwritten
    · rw [← List.head?_drop, ← hafter]
      exact hends
  · rintro ⟨hle, hinside, ⟨gap, gap', gap'', hgap, hgap', hgap'', hslice⟩, hleft, hright, hends⟩
    have hlength : (text.take start).length = start := by simp [hstart]
    have htext : text = text.take start ++ gap ++ keys.left ++ gap' ++ ['='] ++ gap'' ++ keys.right ++
        text.drop stop := by
      conv_lhs => rw [← List.take_append_drop start text, drop_eq_slice_append text hle, hslice]
      simp
    have hread := JoinKeys.read_eq htext hgap hleft hgap' hgap'' hright (by rwa [List.head?_drop])
    rw [hlength] at hread
    refine ⟨_, hread, ?_⟩
    have := congrArg List.length htext
    rw [List.length_append, List.length_drop] at this
    simp only
    omega

/-! ## 2. Places -/

/-- The word `ON`. -/
abbrev Join.onWord : Text := "ON".toList

theorem Join.words_on : kwOn.words = [Join.onWord] := rfl

theorem JoinKind.words_keyword (kind : JoinKind) :
    kind.keyword.words = [kind.name.toList, "JOIN".toList] := by
  cases kind <;> rfl

theorem JoinKind.regular_keyword (kind : JoinKind) : kind.keyword.Regular :=
  regular_joins _ kind.keyword_mem

/-- The first join keyword of a text, of whatever kind, stands from `start`
up to `stop`. -/
structure JoinKind.First (kind : JoinKind) (text : Text) (start stop : Nat) : Prop where
  stands : Phrase [kind.name.toList, "JOIN".toList] text start stop
  first : ∀ {other : JoinKind} {start' stop' : Nat},
    Phrase [other.name.toList, "JOIN".toList] text start' stop' → start ≤ start'

/-- An `ON` at `position` makes a join with a keyword that ends at `stop`:
there is a table between them, and behind it stands a pair of identifiers
that ends at `last`. -/
structure Join.Closes (text : Text) (stop position : Nat) (keys : JoinKeys) (last : Nat) :
    Prop where
  behind : stop ≤ position
  on : wordAt onWord text position = true
  table : trim (slice text stop position) ≠ []
  pair : keys.StandsAt text (position + onWord.length) last

/-- A join by its places: the keyword of its kind is the first join keyword
of the text and ends at `stop`, and `position` is that of the first `ON`
behind it that makes a join. -/
structure JoinSpan.Placed (span : JoinSpan) (text : Text) (stop position : Nat) : Prop where
  keyword : span.join.kind.First text span.start stop
  closes : Join.Closes text stop position span.join.keys span.stop
  least : ∀ earlier < position, ∀ keys last, ¬ Join.Closes text stop earlier keys last
  table : span.join.table = trim (slice text stop position)

/-! ## 3. Words `ON` -/

namespace Join

variable {text before spelled rest : Text} {keyword : Hit} {position : Nat}

/-- The hit of an `ON`. -/
def onHit (position : Nat) : Hit :=
  ⟨position, position + onWord.length, 0, kwOn⟩

/-- An `ON` behind a keyword splits the text after the keyword. -/
theorem splits_onHit (h : keyword.Splits text before spelled rest) (hle : keyword.stop ≤ position)
    (hon : wordAt onWord text position = true) :
    (onHit position).Splits text (before ++ spelled ++ slice text keyword.stop position)
      (slice text position (position + onWord.length)) (text.drop (position + onWord.length)) := by
  rw [← h.take_stop, ← take_eq_append_slice text hle]
  exact splits_of_wordAt regular_on words_on hon 0

/-- There is a pair of identifiers behind an `ON` if the text goes on with
one. -/
theorem exists_closes_iff {stop : Nat} :
    (∃ keys last, Closes text stop position keys last) ↔
      stop ≤ position ∧ wordAt onWord text position = true ∧ trim (slice text stop position) ≠ [] ∧
        JoinKeys.Begins (text.drop (position + onWord.length)) := by
  rw [← JoinKeys.isSome_read_iff]
  constructor
  · rintro ⟨keys, last, hbehind, hon, htable, hpair⟩
    obtain ⟨after, hread, -⟩ :=
      (JoinKeys.read_eq_some_iff (hpair.le.trans hpair.inside)).mpr hpair
    exact ⟨hbehind, hon, htable, Option.isSome_of_eq_some hread⟩
  · rintro ⟨hbehind, hon, htable, hread⟩
    obtain ⟨⟨keys, after⟩, hread⟩ := Option.isSome_iff_exists.mp hread
    have hinside := ((wordAt_iff.mp hon).bounds regular_on.lettered (by simp)).2
    exact ⟨keys, after.position, hbehind, hon, htable,
      (JoinKeys.read_eq_some_iff hinside.le).mp ⟨after, hread, rfl⟩⟩

/-- Of the words `ON` that make a join one is the first. -/
theorem Closes.exists_least {stop last : Nat} {keys : JoinKeys}
    (h : Closes text stop position keys last) :
    ∃ first keys' last', Closes text stop first keys' last' ∧
      ∀ earlier < first, ∀ keys last, ¬ Closes text stop earlier keys last := by
  classical
  have hexists : ∃ position keys last, Closes text stop position keys last :=
    ⟨position, keys, last, h⟩
  obtain ⟨keys', last', hfirst⟩ := Nat.find_spec hexists
  refine ⟨Nat.find hexists, keys', last', hfirst, ?_⟩
  intro earlier hlt keys last hearlier
  exact Nat.find_min hexists hlt ⟨keys, last, hearlier⟩

/-- The join that a keyword and an `ON` make, by their places. -/
theorem spanAt_onHit_eq_some_iff {span : JoinSpan} (h : keyword.Splits text before spelled rest)
    (hle : keyword.stop ≤ position) (hon : wordAt onWord text position = true) :
    spanAt text keyword (onHit position) = some span ↔
      span.start = keyword.start ∧ span.join.kind = .ofIndex keyword.index ∧
        span.join.table = trim (slice text keyword.stop position) ∧
        Closes text keyword.stop position span.join.keys span.stop := by
  have hinside := ((wordAt_iff.mp hon).bounds regular_on.lettered (by simp)).2
  have htable : trim (slice text (keyword.stop + 1) (onHit position).start) =
      trim (slice text keyword.stop position) := trim_slice_of_splits h (splits_onHit h hle hon)
  have hread : (∃ after : Cursor, JoinKeys.read ⟨text, (onHit position).stop⟩ =
      some (span.join.keys, after) ∧ span.stop = after.position) ↔ _ :=
    JoinKeys.read_eq_some_iff hinside.le
  rw [spanAt_eq_some_iff, htable]
  constructor
  · rintro ⟨hstart, hkind, heq, hne, hafter⟩
    exact ⟨hstart, hkind, heq, hle, hon, heq ▸ hne, hread.mp hafter⟩
  · rintro ⟨hstart, hkind, heq, hcloses⟩
    exact ⟨hstart, hkind, heq, heq ▸ hcloses.table, hread.mpr hcloses.pair⟩

end Join

/-! ## 4. Parts and places -/

/-- The keyword of a kind that stands somewhere is a hit. -/
theorem JoinKind.splits_of_phrase {kind : JoinKind} {text : Text} {start stop : Nat}
    (h : Phrase [kind.name.toList, "JOIN".toList] text start stop) :
    Hit.Splits ⟨start, stop, kind.index, kind.keyword⟩ text (text.take start)
      (slice text start stop) (text.drop stop) :=
  Phrase.splits ⟨start, stop, kind.index, kind.keyword⟩ kind.regular_keyword
    (kind.words_keyword ▸ h)

theorem JoinKind.phrase_of_splits {kind : JoinKind} {hit : Hit} {text before spelled after : Text}
    (h : hit.Splits text before spelled after) (hkeyword : kind.keyword = hit.keyword) :
    Phrase [kind.name.toList, "JOIN".toList] text hit.start hit.stop := by
  rw [← kind.words_keyword, hkeyword]
  exact h.phrase

theorem JoinKind.exists_keyword_eq {keyword : Keyword} (h : keyword ∈ kwJoins) :
    ∃ kind : JoinKind, kind.keyword = keyword := by
  obtain ⟨index, hindex⟩ := List.mem_iff_getElem?.mp h
  exact ⟨.ofIndex index, keyword_ofIndex hindex⟩

theorem JoinKind.getElem?_index (kind : JoinKind) : kwJoins[kind.index]? = some kind.keyword := by
  cases kind <;> rfl

namespace JoinSpan

variable {span : JoinSpan} {text : Text}

/-- The parts of the first join give its places. -/
theorem First.placed {before spelled body on pair after : Text}
    (h : span.First text before spelled body on pair after) :
    span.Placed text (before ++ spelled).length (before ++ spelled ++ body).length := by
  have hkeyword := h.hit.withIndex span.join.kind.index
  have hstop : (before ++ spelled).length = before.length + spelled.length := List.length_append
  have hon : wordAt Join.onWord text (before ++ spelled ++ body).length = true :=
    h.hit_on.wordAt Join.words_on
  have hend := h.hit_on.stop_eq_of_word Join.words_on
  have hle : before.length + spelled.length ≤ (before ++ spelled ++ body).length := by
    rw [List.length_append, hstop]
    omega
  have hspan := Join.spanAt_of_splits h.toSplits
  simp only at hend
  rw [hend] at hspan
  obtain ⟨-, -, htable, hcloses⟩ := (Join.spanAt_onHit_eq_some_iff hkeyword hle hon).mp hspan
  rw [hstop]
  refine ⟨⟨?_, ?_⟩, hcloses, ?_, htable⟩
  · rw [h.start_eq]
    exact JoinKind.phrase_of_splits hkeyword rfl
  · intro other start' stop' hother
    have hsplits := JoinKind.splits_of_phrase hother
    rw [h.start_eq, show start' = (text.take start').length from hsplits.start_eq]
    exact h.keyword_first hsplits other.keyword_mem
  · -- An earlier `ON` that made a join would be the first one.
    intro earlier hlt keys last hearlier
    obtain ⟨hbehind, hon', htable', hbegins⟩ := Join.exists_closes_iff.mp ⟨keys, last, hearlier⟩
    have hsplits := Join.splits_onHit hkeyword hbehind hon'
    have hlength := h.on_first hsplits rfl htable' hbegins
    have hstart := hsplits.start_eq
    simp only [Join.onHit, List.length_append] at hstart hlt hlength
    omega

/-- A join that is placed in a text without quotes has the parts of the
first join. -/
theorem Placed.exists_first (hquote : Unquoted text) {stop position : Nat}
    (h : span.Placed text stop position) :
    ∃ before spelled body on pair after, span.First text before spelled body on pair after := by
  have hkeyword := JoinKind.splits_of_phrase h.keyword.stands
  have hon := Join.splits_onHit hkeyword h.closes.behind h.closes.on
  have hroom := Join.room_of_splits hkeyword hon h.closes.table
  have hspan : Join.spanAt text ⟨span.start, stop, span.join.kind.index, span.join.kind.keyword⟩
      (Join.onHit position) = some span :=
    (Join.spanAt_onHit_eq_some_iff hkeyword h.closes.behind h.closes.on).mpr
      ⟨rfl, (JoinKind.ofIndex_index _).symm, h.table, h.closes⟩
  have hclosed : Closed (text.take span.start) :=
    Unquoted.closed fun c hc => hquote c (List.mem_of_mem_take hc)
  obtain ⟨body, pair, after, hbody, hparts⟩ := Join.splits_of_spanAt hkeyword
    span.join.kind.getElem?_index hclosed hon rfl hroom hspan
  obtain rfl : slice text stop position = body := List.append_cancel_left hbody
  refine ⟨_, _, _, _, pair, after, hparts, ?_, ?_⟩
  · intro other b s a hother hmem
    obtain ⟨kind, hkind⟩ := JoinKind.exists_keyword_eq hmem
    rw [← hparts.start_eq, ← hother.start_eq]
    exact h.keyword.first (JoinKind.phrase_of_splits hother hkind)
  · intro other table s a hother hkwOn htable hbegins
    by_contra hlt
    have hstop := hkeyword.stop_eq
    have hstart := hother.start_eq
    have hposition := hon.start_eq
    simp only [Join.onHit, List.length_append] at hstop hstart hposition
    have hwords : other.keyword.words = [Join.onWord] := by rw [hkwOn, Join.words_on]
    have hslice : slice text stop other.start = table := by
      rw [slice, hother.take_start]
      exact List.drop_left' (List.length_append.trans hstop.symm)
    have hcloses : ∃ keys last, Join.Closes text stop other.start keys last := by
      refine Join.exists_closes_iff.mpr ⟨by omega, hother.wordAt hwords, ?_, ?_⟩
      · rw [hslice]
        exact htable
      · rw [← hother.stop_eq_of_word hwords, hother.drop_stop]
        exact hbegins
    obtain ⟨keys, last, hcloses⟩ := hcloses
    exact h.least other.start (by omega) keys last hcloses

end JoinSpan

/-! ## 5. The join that is found -/

namespace Join

section

variable {text : Text} (hquote : Unquoted text)
include hquote

/-- The join that is found is the one that is placed in the text. -/
theorem find_eq_some_iff_placed {span : JoinSpan} :
    find text = some span ↔ ∃ stop position, span.Placed text stop position := by
  constructor
  · intro h
    obtain ⟨before, spelled, body, on, pair, after, hfirst⟩ := (find_eq_some_iff hquote).mp h
    exact ⟨_, _, hfirst.placed⟩
  · rintro ⟨stop, position, hplaced⟩
    exact (find_eq_some_iff hquote).mpr (hplaced.exists_first hquote)

/-- No join is found exactly if no `ON` makes one with the first join
keyword. -/
theorem find_eq_none_iff :
    find text = none ↔ ∀ (kind : JoinKind) (start stop : Nat), kind.First text start stop →
      ∀ position keys last, ¬ Closes text stop position keys last := by
  constructor
  · intro hnone kind start stop hkind position keys last hcloses
    obtain ⟨position', keys', last', hcloses', hleast⟩ := hcloses.exists_least
    have hplaced : JoinSpan.Placed ⟨⟨kind, trim (slice text stop position'), keys'⟩, start, last'⟩
        text stop position' :=
      ⟨hkind, hcloses', hleast, rfl⟩
    rw [(find_eq_some_iff_placed hquote).mpr ⟨stop, position', hplaced⟩] at hnone
    cases hnone
  · intro hnowhere
    rw [Option.eq_none_iff_forall_ne_some]
    intro span hspan
    obtain ⟨stop, position, hplaced⟩ := (find_eq_some_iff_placed hquote).mp hspan
    exact hnowhere _ _ _ hplaced.keyword _ _ _ hplaced.closes

/-- A later join keyword is never the one of the join that is found. -/
theorem find_eq_value_complete {hit : Hit} (h : Keyword.find kwJoins text 0 = some hit) :
    find text = (complete text hit).value := by
  have hhits := Keyword.findAll_of_some regular_joins h
  have hpairwise := Keyword.findAll_pairwise regular_joins text 0
  rw [hhits] at hpairwise
  cases hcomplete : (complete text hit).value with
  | some span =>
    rw [find, locate, value_locateFrom, hhits, List.findSome?_cons, hcomplete]
  | none =>
    rw [Option.eq_none_iff_forall_ne_some]
    intro span hspan
    obtain ⟨other, hmem, hstart, -, hother⟩ := locateFrom_eq_some hspan
    obtain ⟨before, spelled, body, on, pair, after, hfirst⟩ := (find_eq_some_iff hquote).mp hspan
    obtain ⟨before', spelled', after', hsplits, -, -, hindex⟩ := Keyword.find_splits regular_joins h
    have hle := hfirst.keyword_first hsplits (List.mem_of_getElem? hindex)
    rw [← hfirst.start_eq, ← hsplits.start_eq, hstart] at hle
    rw [hhits] at hmem
    rcases List.mem_cons.mp hmem with rfl | hmem
    · rw [hcomplete] at hother
      cases hother
    · have := (List.pairwise_cons.mp hpairwise).1 other hmem
      omega

/-- **The join of a text without quotes.** There is none exactly if no `ON`
makes one with the first join keyword; else it is the one that the first
join keyword and the first such `ON` place. Going on to a later keyword
finds no other. -/
theorem find_places :
    (find text = none ↔ ∀ (kind : JoinKind) (start stop : Nat), kind.First text start stop →
      ∀ position keys last, ¬ Closes text stop position keys last) ∧
    (∀ span, find text = some span ↔ ∃ stop position, span.Placed text stop position) ∧
    (∀ hit, Keyword.find kwJoins text 0 = some hit → find text = (complete text hit).value) := by
  refine ⟨find_eq_none_iff hquote, ?_, ?_⟩
  · intro span
    exact find_eq_some_iff_placed hquote
  · intro hit hfind
    exact find_eq_value_complete hquote hfind

end

/-- An `ON` with nothing before it makes no join, and a join keyword inside
the table counts for nothing. -/
theorem find_places_blank_table :
    Unquoted "t inner join on b left join c on x = y".toList ∧
    (∃ stop position, JoinSpan.Placed
      ⟨⟨.inner, "on b left join c".toList, "x".toList, "y".toList⟩, 2, 38⟩
      "t inner join on b left join c on x = y".toList stop position) ∧
    find "t inner join on b left join c on x = y".toList =
      (complete "t inner join on b left join c on x = y".toList ⟨2, 12, 0, kwInnerJoin⟩).value := by
  have hquote : Unquoted "t inner join on b left join c on x = y".toList := by decide
  obtain ⟨-, hplaced, hretry⟩ := find_places hquote
  exact ⟨hquote, (hplaced _).mp (by decide +kernel), hretry _ (by decide +kernel)⟩

end Join

end SelectOutline
