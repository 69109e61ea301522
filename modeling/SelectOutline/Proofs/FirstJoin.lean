/-
SelectOutline.Proofs.FirstJoin — which join a text without quotes has.

The search for a join is two searches, one for the join keyword and one
for the word `ON` behind it, and a keyword that no `ON` completes is passed
over. In a text without quotes nothing comes of that: a word `ON` that
completes a later keyword completes an earlier one as well. So the join
begins at the first join keyword there is and its table ends at the first
`ON` that a pair of identifiers follows (`First`), and it is found exactly
there (`find_eq_some_iff`).

Both are about places in the text, so that the join stays the same when
text is added behind it (`First.append`) and when what stands in front of
it is exchanged (`First.exchange`).
-/
import SelectOutline.Proofs.Passing
import SelectOutline.Proofs.Positions
import SelectOutline.Proofs.SingleJoin

namespace SelectOutline

open Text

/-! ## 1. Pairs of identifiers -/

/-- The text begins with a pair of identifiers. -/
def JoinKeys.Begins (text : Text) : Prop :=
  ∃ (keys : JoinKeys) (pair after : Text), text = pair ++ after ∧ keys.Written pair ∧
    IsIdentifier keys.left ∧ IsIdentifier keys.right

/-- A pair is read wherever the text from there on begins with one. -/
theorem JoinKeys.isSome_read_iff {text : Text} {position : Nat} :
    (JoinKeys.read ⟨text, position⟩).isSome = true ↔ Begins (text.drop position) := by
  constructor
  · intro h
    obtain ⟨⟨keys, after⟩, hread⟩ := Option.isSome_iff_exists.mp h
    obtain ⟨hleft, hright, -, pair, hwritten, hpasses⟩ := read_eq_some hread
    exact ⟨keys, pair, after.rest, hpasses.rest_eq, hwritten, hleft, hright⟩
  · rintro ⟨⟨left, right⟩, pair, after, heq, ⟨gap, gap', gap'', hgap, hgap', hgap'', rfl⟩, hleft,
      hright⟩
    have hlength : (text.take position).length = position := by
      have hne := congrArg List.length heq
      simp only [List.length_drop, List.length_append, List.length_singleton] at hne
      rw [List.length_take]
      omega
    -- The right identifier is read up to its end, which may lie further on.
    have htext : text = text.take position ++ gap ++ left ++ gap' ++ ['='] ++ gap'' ++
        (right ++ after.takeWhile isIdentifierChar) ++ after.dropWhile isIdentifierChar := by
      conv_lhs => rw [← List.take_append_drop position text, heq]
      conv_lhs => rw [← List.takeWhile_append_dropWhile (p := isIdentifierChar) (l := after)]
      simp only [List.append_assoc]
    have hclass : ∀ c ∈ right ++ after.takeWhile isIdentifierChar, isIdentifierChar c = true :=
      List.forall_mem_append.mpr ⟨hright.2, fun c hc => List.mem_takeWhile_imp hc⟩
    have hstop : ∀ c ∈ (after.dropWhile isIdentifierChar).head?, isIdentifierChar c = false := by
      intro c hc
      have := List.head?_dropWhile_not isIdentifierChar after
      rw [hc] at this
      simpa using this
    have hread := JoinKeys.read_eq htext hgap hleft hgap' hgap''
      ⟨List.append_ne_nil_of_left_ne_nil hright.1 _, hclass⟩ hstop
    rw [hlength] at hread
    rw [hread]
    rfl

/-- A whole pair does not fit into what stands before the right
identifier of another one. -/
theorem JoinKeys.Written.not_before_right {keys : JoinKeys} {pair : Text} (h : keys.Written pair)
    (hright : IsIdentifier keys.right) {gap left gap' gap'' x y : Text} (hgap : AllBlank gap)
    (hleft : IsIdentifier left) (hgap' : AllBlank gap') (hgap'' : AllBlank gap'') :
    x ++ pair ++ y ≠ gap ++ left ++ (gap' ++ '=' :: gap'') := by
  obtain ⟨g, g', g'', -, -, -, rfl⟩ := h
  intro heq
  have hequals : '=' ∈ x ++ (g ++ keys.left ++ g' ++ ['='] ++ g'' ++ keys.right) := by simp
  have hfront : '=' ∉ gap ++ left := by
    intro hmem
    rcases List.mem_append.mp hmem with hmem | hmem
    · exact absurd (hgap _ hmem) (by decide)
    · exact absurd (hleft.2 _ hmem) (by decide +kernel)
  rcases List.append_eq_append_iff.mp heq with ⟨w, hw, -⟩ | ⟨w, hw, hback⟩
  · rw [hw] at hfront
    exact hfront (List.mem_append_left w hequals)
  · -- The pair ends with a character of an identifier, and so does what is left of it.
    cases hlast : w.getLast? with
    | none =>
      rw [List.getLast?_eq_none_iff.mp hlast, List.append_nil] at hw
      rw [← hw] at hfront
      exact hfront hequals
    | some c =>
      have hc : isIdentifierChar c = true := by
        have hend := congrArg List.getLast? hw
        rw [← List.append_assoc, List.getLast?_append_of_ne_nil _ hright.1,
          List.getLast?_append_of_ne_nil _ (by rintro rfl; cases hlast), hlast] at hend
        exact hright.2 c (List.mem_of_getLast? hend)
      have hmem : c ∈ gap' ++ '=' :: gap'' := by
        rw [hback]
        exact List.mem_append_left y (List.mem_of_getLast? hlast)
      simp only [List.mem_append, List.mem_cons] at hmem
      rcases hmem with hmem | rfl | hmem
      · rw [isIdentifierChar_of_isBlank (hgap' c hmem)] at hc
        cases hc
      · exact absurd hc (by decide +kernel)
      · rw [isIdentifierChar_of_isBlank (hgap'' c hmem)] at hc
        cases hc

/-- A text that holds a pair anywhere does not have to be added to for one
to begin it. -/
theorem JoinKeys.Begins.of_append {text rest x pair y : Text} (h : Begins (text ++ rest))
    (heq : text = x ++ pair ++ y) {keys : JoinKeys} (hwritten : keys.Written pair)
    (hkey : IsIdentifier keys.right) : Begins text := by
  obtain ⟨⟨left, right⟩, -, after, hsplit, ⟨gap, gap', gap'', hgap, hgap', hgap'', rfl⟩, hleft,
    hright⟩ := h
  have hfront : text ++ rest = (gap ++ left ++ (gap' ++ '=' :: gap'')) ++ (right ++ after) := by
    rw [hsplit]
    simp
  rcases List.append_eq_append_iff.mp hfront with ⟨w, hw, -⟩ | ⟨w, hw, hback⟩
  · have hpair : x ++ pair ++ (y ++ w) = gap ++ left ++ (gap' ++ '=' :: gap'') := by
      rw [hw, heq]
      simp only [List.append_assoc]
    exact absurd hpair (hwritten.not_before_right hkey hgap hleft hgap' hgap'')
  · cases w with
    | nil =>
      rw [List.append_nil, heq] at hw
      exact absurd hw (hwritten.not_before_right hkey hgap hleft hgap' hgap'')
    | cons c w =>
      -- One character of the right identifier is there, and one is enough.
      have hc : isIdentifierChar c = true := by
        obtain ⟨d, tail, rfl⟩ := List.exists_cons_of_ne_nil hright.1
        obtain rfl := (List.cons.inj hback).1
        exact hright.2 d (by simp)
      refine ⟨⟨left, [c]⟩, gap ++ left ++ gap' ++ ['='] ++ gap'' ++ [c], w, ?_,
        ⟨gap, gap', gap'', hgap, hgap', hgap'', rfl⟩, hleft, by simp, by simpa using hc⟩
      rw [hw]
      simp

/-! ## 2. The first join -/

/-- The six parts of the first join that a text holds: no join keyword
stands before its keyword, and no `ON` with a table in front of it and a
pair of identifiers behind it stands before its `ON`. -/
structure JoinSpan.First (span : JoinSpan) (text before spelled body on pair after : Text) : Prop
    extends span.Splits text before spelled body on pair after where
  keyword_first : ∀ {hit : Hit} {b s a : Text}, hit.Splits text b s a → hit.keyword ∈ kwJoins →
    before.length ≤ b.length
  on_first : ∀ {hit : Hit} {table s a : Text}, hit.Splits text (before ++ spelled ++ table) s a →
    hit.keyword = kwOn → trim table ≠ [] → JoinKeys.Begins a → body.length ≤ table.length

/-- Of the hits of a repeated search, those that begin before one of them
come before it. -/
theorem Keyword.mem_earlier {hits earlier later : List Hit} {hit other : Hit}
    (hpairwise : hits.Pairwise fun hit later => hit.start < later.start)
    (h : hits = earlier ++ hit :: later) (hmem : other ∈ hits) (hlt : other.start < hit.start) :
    other ∈ earlier := by
  subst h
  obtain ⟨-, hbehind, -⟩ := List.pairwise_append.mp hpairwise
  rcases List.mem_append.mp hmem with hmem | hmem
  · exact hmem
  rcases List.mem_cons.mp hmem with rfl | hmem
  · exact absurd hlt (Nat.lt_irrefl _)
  · have := (List.pairwise_cons.mp hbehind).1 other hmem
    omega

namespace Join

theorem trim_slice_ne_nil {text : Text} {start start' stop : Nat} (hle : start' ≤ start)
    (h : trim (slice text start stop) ≠ []) : trim (slice text start' stop) ≠ [] := by
  simp only [ne_eq, trim_eq_nil_iff] at h ⊢
  intro hblank
  refine h fun c hc => hblank c ?_
  have hdrop : slice text start stop = (slice text start' stop).drop (start - start') := by
    rw [slice, slice, List.drop_drop, Nat.add_sub_cancel' hle]
  rw [hdrop] at hc
  exact List.mem_of_mem_drop hc

/-- A join keyword and a word `ON` make a join if there is a table between
them and a pair of identifiers behind. -/
theorem isSome_spanAt_iff {text : Text} {keyword hit : Hit} :
    (spanAt text keyword hit).isSome = true ↔
      trim (slice text (keyword.stop + 1) hit.start) ≠ [] ∧
        JoinKeys.Begins (text.drop hit.stop) := by
  rw [← JoinKeys.isSome_read_iff, spanAt]
  cases JoinKeys.read ⟨text, hit.stop⟩ with
  | none => simp
  | some read =>
    simp only
    split
    · next htable => simp [List.isEmpty_iff.mp htable]
    · next htable => simpa using htable

variable {text : Text}

/-- The table in front of a word `ON`, between the end of a join keyword and
the word, begins with the blank that follows the keyword. -/
theorem blank_of_splits {keyword hit : Hit} {before spelled rest table s a : Text}
    (h : keyword.Splits text before spelled rest)
    (hhit : hit.Splits text (before ++ spelled ++ table) s a) :
    ∀ b ∈ table.head?, isBlank b = true := by
  intro b hb
  have hrest : rest = table ++ (s ++ a) := by
    have heq := h.text_eq.symm.trans hhit.text_eq
    simpa using heq
  have hblank := h.blank_after
  rw [hrest, List.head?_append, hb] at hblank
  exact hblank

theorem trim_slice_of_splits {keyword hit : Hit} {before spelled rest table s a : Text}
    (h : keyword.Splits text before spelled rest)
    (hhit : hit.Splits text (before ++ spelled ++ table) s a) :
    trim (slice text (keyword.stop + 1) hit.start) = trim table := by
  have hblank := blank_of_splits h hhit
  rw [slice, hhit.take_start, h.stop_eq, ← List.length_append, ← List.drop_drop, List.drop_left]
  cases table with
  | nil => rfl
  | cons b table =>
    rw [List.drop_one, List.tail_cons, trim, trim, trimStart, trimStart,
      List.dropWhile_cons_of_pos (hblank b rfl)]

/-- A table that is not blank has room for the two characters that the
search for `ON` skips. -/
theorem room_of_splits {keyword hit : Hit} {before spelled rest table s a : Text}
    (h : keyword.Splits text before spelled rest)
    (hhit : hit.Splits text (before ++ spelled ++ table) s a) (htable : trim table ≠ []) :
    keyword.stop + 2 ≤ (before ++ spelled ++ table).length := by
  have hblank := blank_of_splits h hhit
  rw [h.stop_eq, List.length_append, List.length_append]
  match table with
  | [] => exact absurd rfl htable
  | [b] => exact absurd (trim_eq_nil_iff.mpr (List.forall_mem_singleton.mpr (hblank b rfl))) htable
  | b :: c :: table =>
    simp only [List.length_cons]
    omega

/-- The keyword of a join and its `ON` make the join. -/
theorem spanAt_of_splits {before spelled body on pair after : Text} {span : JoinSpan}
    (h : span.Splits text before spelled body on pair after) :
    spanAt text
      ⟨before.length, before.length + spelled.length, span.join.kind.index, span.join.kind.keyword⟩
      ⟨(before ++ spelled ++ body).length, (before ++ spelled ++ body).length + on.length, 0, kwOn⟩ =
      some span := by
  have htable := trim_slice_of_splits (h.hit.withIndex span.join.kind.index) h.hit_on
  obtain ⟨gap, gap', gap'', hgap, hgap', hgap'', hpair⟩ := h.written
  have htext : text = before ++ spelled ++ body ++ on ++ gap ++ span.join.keys.left ++ gap' ++ ['='] ++
      gap'' ++ span.join.keys.right ++ after := by
    rw [h.text_eq, hpair]
    simp
  have hread := JoinKeys.read_eq htext hgap h.left hgap' hgap'' h.right h.stops
  have hposition : (before ++ spelled ++ body ++ on).length =
      (before ++ spelled ++ body).length + on.length := List.length_append
  rw [hposition] at hread
  refine spanAt_eq_some_iff.mpr ⟨h.start_eq, (JoinKind.ofIndex_index _).symm, ?_, h.table_ne_nil, _,
    hread, ?_⟩
  · rw [htable, h.table_eq]
  · rw [h.stop_eq, hpair]
    simp

theorem find_eq_findSome? (text : Text) :
    find text = (Keyword.findAll kwJoins text 0).findSome? fun keyword =>
      (Keyword.findAll [kwOn] text (keyword.stop + 2)).findSome? (spanAt text keyword) := by
  rw [find, locate, value_locateFrom]
  refine congrArg (List.findSome? · _) (funext fun keyword => ?_)
  rw [complete, value_completeFrom]

section

variable (hquote : Unquoted text)
include hquote

/-- The join that is found is the first one. -/
theorem exists_first {span : JoinSpan} (h : find text = some span) :
    ∃ before spelled body on pair after, span.First text before spelled body on pair after := by
  rw [find_eq_findSome?] at h
  obtain ⟨earlier, keyword, later, hhits, hcomplete, hnone⟩ := List.findSome?_eq_some_iff.mp h
  obtain ⟨earlierOn, hit, laterOn, hhitsOn, hspan, hnoneOn⟩ :=
    List.findSome?_eq_some_iff.mp hcomplete
  have hmem : keyword ∈ Keyword.findAll kwJoins text 0 := by simp [hhits]
  have hmemOn : hit ∈ Keyword.findAll [kwOn] text (keyword.stop + 2) := by simp [hhitsOn]
  obtain ⟨before, spelled, rest, hsplits, -, hclosed, hindex⟩ :=
    Keyword.findAll_splits regular_joins hmem
  obtain ⟨beforeOn, on, restOn, hsplitsOn, hle, -, hindexOn⟩ :=
    Keyword.findAll_splits regular_on.single hmemOn
  have hkeyword : hit.keyword = kwOn := List.mem_singleton.mp (List.mem_of_getElem? hindexOn)
  obtain ⟨body, pair, after, hbody, hparts⟩ :=
    splits_of_spanAt hsplits hindex hclosed hsplitsOn hkeyword hle hspan
  obtain ⟨htable, hbegins⟩ := isSome_spanAt_iff.mp (Option.isSome_of_eq_some hspan)
  refine ⟨before, spelled, body, on, pair, after, hparts, ?_, ?_⟩
  · intro other b s a hother hmem
    by_contra hlt
    obtain ⟨index, hindex'⟩ := List.mem_iff_getElem?.mp hmem
    have hother' := hother.withIndex index
    have hstart : other.start < keyword.start := by
      rw [hother.start_eq, hsplits.start_eq]
      omega
    have hearlier := Keyword.mem_earlier (Keyword.findAll_pairwise regular_joins text 0) hhits
      (Keyword.mem_findAll_of_unquoted separate_joins hquote hother' hindex' (Nat.zero_le _)) hstart
    -- The `ON` of the join completes the earlier keyword, whose table is longer.
    have hstop := hother.stop_lt_start separate_joins hsplits hmem
      (List.mem_of_getElem? hindex) hstart
    have hend := hsplits.start_eq
    have hend' := hsplits.stop_eq
    have hmemOn : hit ∈ Keyword.findAll [kwOn] text (other.stop + 2) :=
      Keyword.mem_findAll_of_unquoted separate_on hquote hsplitsOn hindexOn (by omega)
    have hsome : (spanAt text { other with index } hit).isSome = true :=
      isSome_spanAt_iff.mpr ⟨trim_slice_ne_nil (by simp only; omega) htable, hbegins⟩
    rw [List.findSome?_eq_none_iff.mp (hnone _ hearlier) hit hmemOn] at hsome
    cases hsome
  · intro other table s a hother hkwOn htable' hbegins'
    by_contra hlt
    have hstart : other.start < hit.start := by
      rw [hother.start_eq, hsplitsOn.start_eq, hbody]
      simp only [List.length_append]
      omega
    have hindex' : [kwOn][0]? = some other.keyword := by rw [hkwOn]; rfl
    have hearlier := Keyword.mem_earlier (Keyword.findAll_pairwise regular_on.single text _) hhitsOn
      (Keyword.mem_findAll_of_unquoted separate_on hquote (hother.withIndex 0) hindex'
        (room_of_splits hsplits hother htable'))
      hstart
    have hsome : (spanAt text keyword { other with index := 0 }).isSome = true := by
      refine isSome_spanAt_iff.mpr ⟨?_, ?_⟩
      · rw [trim_slice_of_splits hsplits (hother.withIndex 0)]
        exact htable'
      · rw [hother.drop_stop]
        exact hbegins'
    rw [hnoneOn _ hearlier] at hsome
    cases hsome

/-- The first join is found. -/
theorem find_of_first {span : JoinSpan} {before spelled body on pair after : Text}
    (h : span.First text before spelled body on pair after) : find text = some span := by
  have hspan := spanAt_of_splits h.toSplits
  have hkeyword := h.hit.withIndex span.join.kind.index
  have hindex : kwJoins[span.join.kind.index]? = some span.join.kind.keyword := by
    cases span.join.kind <;> rfl
  have hroom := room_of_splits hkeyword h.hit_on (by rw [h.table_eq]; exact h.table_ne_nil)
  obtain ⟨earlier, later, hhits⟩ := List.append_of_mem
    (Keyword.mem_findAll_of_unquoted separate_joins hquote hkeyword hindex (Nat.zero_le _))
  obtain ⟨earlierOn, laterOn, hhitsOn⟩ := List.append_of_mem
    (Keyword.mem_findAll_of_unquoted separate_on hquote h.hit_on rfl hroom)
  rw [find_eq_findSome?]
  refine List.findSome?_eq_some_iff.mpr ⟨earlier, _, later, hhits,
    List.findSome?_eq_some_iff.mpr ⟨earlierOn, _, laterOn, hhitsOn, hspan, ?_⟩, ?_⟩
  · -- An earlier `ON` would make the table end there.
    intro other hother
    rw [← Option.not_isSome_iff_eq_none]
    intro hsome
    obtain ⟨htable, hbegins⟩ := isSome_spanAt_iff.mp hsome
    have hpairwise := Keyword.findAll_pairwise regular_on.single text
      (before.length + spelled.length + 2)
    rw [hhitsOn] at hpairwise
    have hlt := (List.pairwise_append.mp hpairwise).2.2 other hother _ List.mem_cons_self
    have hmem : other ∈ Keyword.findAll [kwOn] text (before.length + spelled.length + 2) := by
      rw [hhitsOn]
      exact List.mem_append_left _ hother
    obtain ⟨b, s, a, hsplits, hle, -, hindexOn⟩ := Keyword.findAll_splits regular_on.single hmem
    obtain ⟨table, rfl⟩ : before ++ spelled <+: b := by
      refine List.prefix_of_prefix_length_le
        ⟨body ++ on ++ pair ++ after, hkeyword.text_eq.symm⟩ ⟨s ++ a, ?_⟩ ?_
      · rw [← List.append_assoc, hsplits.text_eq]
      · rw [List.length_append]
        omega
    rw [trim_slice_of_splits hkeyword hsplits] at htable
    rw [hsplits.drop_stop] at hbegins
    have hfirst := h.on_first hsplits (List.mem_singleton.mp (List.mem_of_getElem? hindexOn)) htable
      hbegins
    rw [hsplits.start_eq] at hlt
    simp only [List.length_append] at hlt
    omega
  · -- Before the keyword there is no other.
    intro other hother
    have hpairwise := Keyword.findAll_pairwise regular_joins text 0
    rw [hhits] at hpairwise
    have hlt := (List.pairwise_append.mp hpairwise).2.2 other hother _ List.mem_cons_self
    have hmem : other ∈ Keyword.findAll kwJoins text 0 := by
      rw [hhits]
      exact List.mem_append_left _ hother
    obtain ⟨b, s, a, hsplits, -, -, hindex'⟩ := Keyword.findAll_splits regular_joins hmem
    have hfirst := h.keyword_first hsplits (List.mem_of_getElem? hindex')
    rw [hsplits.start_eq] at hlt
    simp only at hlt
    omega

/-- **The first join is the one that is found.** -/
theorem find_eq_some_iff {span : JoinSpan} :
    find text = some span ↔
      ∃ before spelled body on pair after, span.First text before spelled body on pair after := by
  constructor
  · exact exists_first hquote
  · rintro ⟨before, spelled, body, on, pair, after, hfirst⟩
    exact find_of_first hquote hfirst

end

end Join

/-! ## 3. Longer texts -/

namespace JoinSpan.First

variable {span : JoinSpan} {text before spelled body on pair after : Text}

/-- What is added behind the first join, after a blank, does not change
it. -/
theorem append (h : span.First text before spelled body on pair after) {tail : Text}
    (htail : StartsBlank tail) :
    span.First (text ++ tail) before spelled body on pair (after ++ tail) := by
  have hkeyword := h.hit.append tail
  have hon := h.hit_on.append tail
  have hend := h.hit_on.stop_le
  have hend' := h.hit.stop_le
  refine ⟨{ h.toSplits with text_eq := ?_, stops := ?_ }, ?_, ?_⟩
  · rw [h.text_eq]
    simp
  · intro c hc
    cases after with
    | nil => exact isIdentifierChar_of_isBlank (htail c hc)
    | cons d after => exact h.stops c hc
  · intro hit b s a hsplits hmem
    by_contra hlt
    -- A keyword before that of the join stands in the text itself.
    have hstop := hsplits.stop_lt_start separate_joins hkeyword hmem
      (JoinKind.keyword_mem _) (by rw [hsplits.start_eq]; simp only; omega)
    simp only at hstop hend'
    obtain ⟨rest, hrest⟩ := hsplits.of_append (by omega)
    exact hlt (h.keyword_first hrest hmem)
  · intro hit table s a hsplits hkwOn htable hbegins
    by_contra hlt
    have hstop := hsplits.stop_lt_start separate_on hon
      (List.mem_singleton.mpr hkwOn) List.mem_cons_self (by
        rw [hsplits.start_eq]
        simp only [List.length_append]
        omega)
    obtain ⟨rest, hrest⟩ := hsplits.of_append (by simp only at hstop hend; omega)
    -- The pair of identifiers of the join lies behind, so that nothing is lost of the other.
    have ha : a = rest ++ tail := by
      have heq := hsplits.text_eq.symm.trans (hrest.append tail).text_eq
      simpa using heq
    obtain ⟨x, hx⟩ : before ++ spelled ++ table ++ s <+: before ++ spelled ++ body ++ on := by
      refine List.prefix_of_prefix_length_le ⟨rest, hrest.text_eq.symm⟩
        ⟨pair ++ after, by rw [h.text_eq]; simp⟩ ?_
      rw [hsplits.stop_eq] at hstop
      simp only [List.length_append] at hstop ⊢
      omega
    have hrest' : rest = x ++ pair ++ after := by
      have heq := hrest.text_eq.symm.trans h.text_eq
      rw [← hx] at heq
      simpa using heq
    rw [ha] at hbegins
    exact hlt (h.on_first hrest hkwOn htable (hbegins.of_append hrest' h.written h.right))

end JoinSpan.First

/-! ## 4. Another front -/

/-- A keyword that stands behind the first part of a text stands there
whatever that part is, as long as it ends with a blank. -/
theorem Hit.Splits.exchange {hit : Hit} {x x' text before spelled after : Text}
    (h : hit.Splits (x ++ text) before spelled after) (hle : x.length ≤ before.length)
    (hx' : x'.getLast?.any isBlank = true) :
    ∃ u, before = x ++ u ∧
      Hit.Splits ⟨(x' ++ u).length, (x' ++ u).length + spelled.length, hit.index, hit.keyword⟩
        (x' ++ text) (x' ++ u) spelled after := by
  obtain ⟨u, rfl, hu⟩ := h.exists_behind (by rw [h.start_eq]; exact hle)
  refine ⟨u, rfl, ?_, rfl, rfl, h.spells, ?_, h.blank_after⟩
  · rw [← hu]
    simp
  · have hblank := h.blank_before
    cases u with
    | nil => simpa using hx'
    | cons c u =>
      rw [List.getLast?_append_of_ne_nil _ (List.cons_ne_nil c u)] at hblank ⊢
      exact hblank

/-- None of the keywords begins in the first part of a text, which ends
with a blank. -/
structure Keyword.Fronts (keywords : List Keyword) (front text : Text) : Prop where
  ends : front.getLast?.any isBlank = true
  behind : ∀ {hit : Hit} {before spelled after : Text},
    hit.Splits (front ++ text) before spelled after → hit.keyword ∈ keywords →
      front.length ≤ before.length

/-- A row of other words with blanks behind it is such a part. -/
theorem Keyword.fronts_of_passable {keywords : List Keyword}
    (hk : ∀ keyword ∈ keywords, keyword.Regular) (hinitials : (keywords.map initial).Nodup)
    {firsts : List Text} (hfirsts : BeginIn keywords firsts) {s gap text : Text}
    (hs : Passable firsts s) (hne : gap ≠ []) (hgap : AllBlank gap)
    (hquote : Unquoted (s ++ gap ++ text)) : Fronts keywords (s ++ gap) text := by
  refine ⟨getLast?_append_blanks hgap hne s, ?_⟩
  intro hit before spelled after hsplits hmem
  obtain ⟨index, hindex⟩ := List.mem_iff_getElem?.mp hmem
  obtain ⟨found, hfind, hle⟩ := find_of_splits hk hinitials (hsplits.withIndex index) hindex
    (Nat.zero_le _) (hsplits.closed_drop hquote 0)
  -- The search passes over the words and the blanks.
  rw [find_zero, List.append_assoc, hs.findFrom_eq hk hfirsts (hgap.stops_append hne text),
    findFrom_blanks hk hgap] at hfind
  have hstart := (findFrom_start hfind).1
  rw [List.length_append, ← hsplits.start_eq]
  rcases hle with rfl | hlt
  · simp only at hstart
    omega
  · simp only at hlt
    omega

/-- The first join is found behind any front that no join keyword begins
in. -/
theorem JoinSpan.First.exchange {span : JoinSpan} {x x' text before spelled body on pair after : Text}
    (h : span.First (x ++ text) before spelled body on pair after)
    (hx : Keyword.Fronts kwJoins x text) (hx' : Keyword.Fronts kwJoins x' text)
    (hquote : Unquoted (x' ++ text)) :
    ∃ (span' : JoinSpan) (u : Text), span'.join = span.join ∧
      span'.First (x' ++ text) (x' ++ u) spelled body on pair after := by
  obtain ⟨u, rfl, hsplits⟩ := h.hit.exchange (hx.behind h.hit (JoinKind.keyword_mem _)) hx'.ends
  have htext : x' ++ text = x' ++ u ++ spelled ++ body ++ on ++ pair ++ after := by
    rw [hsplits.text_eq]
    simp
  refine ⟨⟨span.join, (x' ++ u).length, (x' ++ u ++ spelled ++ body ++ on ++ pair).length⟩, u, rfl,
    { h.toSplits with text_eq := htext, start_eq := rfl, stop_eq := rfl, closed := ?_,
                      blank_before := hsplits.blank_before }, ?_, ?_⟩
  · exact hsplits.closed_drop hquote 0
  · intro hit b s a hhit hmem
    obtain ⟨w, rfl, hback⟩ := hhit.exchange (hx'.behind hhit hmem) hx.ends
    have := h.keyword_first hback hmem
    simp only [List.length_append] at this ⊢
    omega
  · intro hit table s a hhit hkwOn htable hbegins
    have hle : x'.length ≤ (x' ++ u ++ spelled ++ table).length := by
      simp only [List.length_append]
      omega
    obtain ⟨w, hw, hback⟩ := hhit.exchange hle hx.ends
    obtain rfl : u ++ (spelled ++ table) = w := by simpa using hw
    rw [← List.append_assoc, ← List.append_assoc] at hback
    exact h.on_first hback hkwOn htable hbegins

end SelectOutline
