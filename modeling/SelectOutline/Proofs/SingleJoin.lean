/-
SelectOutline.Proofs.SingleJoin — how many join keywords a text with a
join can hold.

When further joins are refused, no join keyword stands behind the join
that is taken. That does not make it the only one. The table of a join
is all text up to an `ON` with a pair of identifiers, so that further
join keywords may stand in the table; the right identifier of the pair
may itself begin one; and before the join there may be one that no such
`ON` follows. `existsUnique_stands` says that these three places are
all.
-/
import SelectOutline.Proofs.Joins
import SelectOutline.Proofs.Stages

namespace SelectOutline

open Text

/-! ## 1. Keywords in a part of a text -/

namespace Hit.Splits

variable {hit : Hit} {text before spelled after u v : Text}

theorem append (h : hit.Splits u before spelled after) (v : Text) :
    hit.Splits (u ++ v) before spelled (after ++ v) := by
  refine ⟨?_, h.start_eq, h.stop_eq, h.spells, h.blank_before, ?_⟩
  · rw [h.text_eq, List.append_assoc]
  · have hblank := h.blank_after
    cases after with
    | nil => cases hblank
    | cons c after => exact hblank

/-- A keyword that ends inside a part of the text stands in that part. -/
theorem of_append (h : hit.Splits (u ++ v) before spelled after) (hstop : hit.stop < u.length) :
    ∃ rest, hit.Splits u before spelled rest := by
  rw [h.stop_eq, ← List.length_append] at hstop
  obtain ⟨rest, rfl⟩ : before ++ spelled <+: u :=
    List.prefix_of_prefix_length_le ⟨after, h.text_eq.symm⟩ (List.prefix_append u v) hstop.le
  have hafter : rest ++ v = after := by
    have := h.text_eq
    rwa [List.append_assoc, List.append_cancel_left_eq] at this
  refine ⟨rest, rfl, h.start_eq, h.stop_eq, h.spells, h.blank_before, ?_⟩
  have hblank := h.blank_after
  rw [← hafter] at hblank
  cases rest with
  | nil => simp at hstop
  | cons c rest => exact hblank

/-- A keyword that stands behind the first part of a text. -/
theorem exists_behind (h : hit.Splits (u ++ v) before spelled after) (hle : u.length ≤ hit.start) :
    ∃ w, before = u ++ w ∧ w ++ (spelled ++ after) = v := by
  rw [h.start_eq] at hle
  have heq : u ++ v = before ++ (spelled ++ after) := by
    rw [h.text_eq, List.append_assoc]
  obtain ⟨w, rfl⟩ := List.prefix_of_prefix_length_le ⟨v, rfl⟩ ⟨spelled ++ after, heq.symm⟩ hle
  exact ⟨w, rfl, by simpa using heq.symm⟩

/-- A keyword in the middle of a text stands there whatever is around
the middle, as long as blanks are next to it. -/
theorem between {x m y x' y' : Text} (h : hit.Splits (x ++ (m ++ y)) before spelled after)
    (hstart : x.length ≤ hit.start) (hstop : hit.stop ≤ (x ++ m).length)
    (hx' : x'.getLast?.any isBlank = true) (hy' : y'.head?.any isBlank = true) :
    ∃ u v, before = x ++ u ∧
      Hit.Splits ⟨(x' ++ u).length, (x' ++ u).length + spelled.length, hit.index, hit.keyword⟩
        (x' ++ m ++ y') (x' ++ u) spelled (v ++ y') := by
  obtain ⟨u, rfl, hu⟩ := h.exists_behind hstart
  have hprefix : u ++ spelled <+: m ++ y := ⟨after, by rw [← hu, List.append_assoc]⟩
  have hlength : (u ++ spelled).length ≤ m.length := by
    rw [h.stop_eq] at hstop
    simp only [List.length_append] at hstop ⊢
    omega
  obtain ⟨v, rfl⟩ := List.prefix_of_prefix_length_le hprefix (List.prefix_append m y) hlength
  have hafter : after = v ++ y := by simpa using hu
  refine ⟨u, v, rfl, by simp, rfl, rfl, h.spells, ?_, ?_⟩
  · have hblank := h.blank_before
    cases u with
    | nil => simpa using hx'
    | cons c u =>
      rw [List.getLast?_append_of_ne_nil _ (List.cons_ne_nil c u)] at hblank ⊢
      exact hblank
  · have hblank := h.blank_after
    rw [hafter] at hblank
    cases v with
    | nil => exact hy'
    | cons c v => exact hblank

/-- Keywords that begin with different letters do not stand at the same
place. -/
theorem start_ne {hit' : Hit} {before' spelled' after' : Text}
    (h : hit.Splits text before spelled after) (h' : hit'.Splits text before' spelled' after')
    (hregular : hit.keyword.Regular) (hregular' : hit'.keyword.Regular)
    (hinitial : hit.keyword.initial ≠ hit'.keyword.initial) : hit.start ≠ hit'.start := by
  intro hstart
  rw [h.start_eq, h'.start_eq] at hstart
  obtain ⟨c, rest, rfl, hc⟩ := h.spells.exists_initial hregular.lettered hregular.words_ne_nil
  obtain ⟨d, rest', rfl, hd⟩ := h'.spells.exists_initial hregular'.lettered hregular'.words_ne_nil
  have heq := h.text_eq.symm.trans h'.text_eq
  rw [List.append_assoc, List.append_assoc] at heq
  obtain rfl := (List.cons.inj (List.append_inj heq hstart).2).1
  exact hinitial (hc.symm.trans hd)

end Hit.Splits

/-! ## 2. Keywords in a pair of identifiers -/

/-- The last character, if there is one, is a blank. -/
abbrev Text.EndsBlank (text : Text) : Prop :=
  ∀ c ∈ text.getLast?, isBlank c = true

namespace Text

theorem EndsBlank.of_append {s t : Text} (h : EndsBlank (s ++ t)) : EndsBlank t := by
  cases t with
  | nil => exact fun c hc => nomatch hc
  | cons c t =>
    intro d hd
    apply h d
    rw [List.getLast?_append_of_ne_nil s (List.cons_ne_nil c t)]
    exact hd

/-- A place before a bare character does not lie in blanks. -/
theorem exists_eq_blanks_append {gap g t rest : Text} (hgap : AllBlank gap)
    (h : g ++ t = gap ++ rest) (ht : StartsBare t) :
    ∃ g', g = gap ++ g' ∧ g' ++ t = rest := by
  rcases List.append_eq_append_iff.mp h with ⟨w, rfl, hw⟩ | ⟨w, rfl, rfl⟩
  · -- The place would lie in the blanks.
    cases w with
    | nil => exact ⟨[], by simp, hw.symm ▸ rfl⟩
    | cons c w =>
      rw [hw] at ht
      have hbare : isBlank c = false := ht c rfl
      rw [hgap c (by simp)] at hbare
      cases hbare
  · exact ⟨w, rfl, rfl⟩

/-- A place behind a blank does not lie inside a run of other
characters. -/
theorem eq_nil_or_exists_eq_run_append {run g t rest : Text} (hrun : ∀ c ∈ run, isBlank c = false)
    (h : g ++ t = run ++ rest) (hg : EndsBlank g) :
    g = [] ∨ ∃ g', g = run ++ g' ∧ g' ++ t = rest := by
  rcases List.append_eq_append_iff.mp h with ⟨w, rfl, -⟩ | ⟨w, rfl, rfl⟩
  · left
    cases hlast : g.getLast? with
    | none => exact List.getLast?_eq_none_iff.mp hlast
    | some c =>
      have hbare := hrun c (List.mem_append_left w (List.mem_of_getLast? hlast))
      rw [hg c hlast] at hbare
      cases hbare
  · exact .inr ⟨w, rfl, rfl⟩

end Text

theorem tail_joins : ∀ keyword ∈ kwJoins, ∃ word, keyword.words = [word, "JOIN".toList] := by
  intro keyword h
  simp only [kwJoins, List.mem_cons, List.not_mem_nil, or_false] at h
  rcases h with rfl | rfl | rfl
  · exact ⟨"INNER".toList, by decide⟩
  · exact ⟨"LEFT".toList, by decide⟩
  · exact ⟨"RIGHT".toList, by decide⟩

/-- A join keyword is not the left side of an equation: its first word is
followed by its second one. -/
theorem Keyword.Spells.not_left {keyword : Keyword} (hmem : keyword ∈ kwJoins) {s a : Text}
    (hs : Keyword.Spells keyword.words s) {left gap rest : Text}
    (hleft : ∀ c ∈ left, isBlank c = false) (hgap : AllBlank gap) :
    s ++ a ≠ left ++ (gap ++ '=' :: rest) := by
  intro heq
  have hletters := (regular_joins keyword hmem).lettered
  obtain ⟨word, hwords⟩ := tail_joins keyword hmem
  rw [hwords] at hs hletters
  cases hs with
  | @cons _ _ _ first gap' second hfirst hne hgap' hsecond =>
    obtain ⟨c, tail, rfl, -, hc⟩ :=
      hsecond.exists_letter fun w hw => hletters w (List.mem_cons_of_mem _ hw)
    have hends : EndsBlank (first ++ gap') := by
      intro d hd
      rw [List.getLast?_append_of_ne_nil _ hne] at hd
      exact hgap' d (List.mem_of_getLast? hd)
    rw [List.append_assoc (first ++ gap')] at heq
    rcases eq_nil_or_exists_eq_run_append hleft heq hends with hnil | ⟨g, hg, hrest⟩
    · exact hne (List.append_eq_nil_iff.mp hnil).2
    · obtain ⟨g', rfl, hrest'⟩ :=
        exists_eq_blanks_append hgap hrest (startsBare_cons (isBlank_of_isAlpha hc))
      -- The equals sign would be a character of the keyword.
      cases g' with
      | nil =>
        obtain rfl := (List.cons.inj hrest').1
        exact absurd hc (by decide)
      | cons d g' =>
        obtain rfl := (List.cons.inj hrest').1
        have hequals : '=' ∈ first ++ gap' := by
          rw [hg]
          simp
        rcases List.mem_append.mp hequals with h | h
        · exact absurd (isAlpha_of_mem (hletters word (by simp)).2 hfirst _ h) (by decide)
        · exact absurd (hgap' _ h) (by decide)

/-- Of a pair of identifiers only the right one may begin a join
keyword. -/
theorem JoinKeys.Written.start_right {keys : JoinKeys} {pair : Text} (h : keys.Written pair)
    (hleft : IsIdentifier keys.left) (hright : IsIdentifier keys.right) {keyword : Keyword}
    (hmem : keyword ∈ kwJoins) {g s a after : Text} (hs : Keyword.Spells keyword.words s)
    (heq : g ++ (s ++ a) = pair ++ after) (hg : EndsBlank g) (hlt : g.length < pair.length) :
    g.length + keys.right.length = pair.length := by
  obtain ⟨gap, gap', gap'', hgap, hgap', hgap'', rfl⟩ := h
  have hletters := (regular_joins keyword hmem).lettered
  obtain ⟨word, hwords⟩ := tail_joins keyword hmem
  obtain ⟨c, tail, rfl, -, hc⟩ := (hwords ▸ hs).exists_letter (hwords ▸ hletters)
  have hbare : StartsBare (c :: tail ++ a) := startsBare_cons (isBlank_of_isAlpha hc)
  have h1 : g ++ (c :: tail ++ a) =
      gap ++ (keys.left ++ (gap' ++ '=' :: (gap'' ++ (keys.right ++ after)))) := by
    rw [heq]
    simp
  -- The place is moved along the pair, part by part.
  obtain ⟨g, rfl, h2⟩ := exists_eq_blanks_append hgap h1 hbare
  rcases eq_nil_or_exists_eq_run_append hleft.bare h2 hg.of_append with rfl | ⟨g, rfl, h3⟩
  · exact absurd h2 (hs.not_left hmem hleft.bare hgap')
  obtain ⟨g, rfl, h4⟩ := exists_eq_blanks_append hgap' h3 hbare
  cases g with
  | nil =>
    obtain rfl := (List.cons.inj h4).1
    exact absurd hc (by decide)
  | cons d g =>
    obtain ⟨rfl, h5⟩ := List.cons.inj h4
    obtain ⟨g, rfl, h6⟩ := exists_eq_blanks_append hgap'' h5 hbare
    have hends : EndsBlank g :=
      EndsBlank.of_append (s := gap ++ keys.left ++ gap' ++ ['='] ++ gap'') (by simpa using hg)
    rcases eq_nil_or_exists_eq_run_append hright.bare h6 hends with rfl | ⟨g, rfl, -⟩
    · simp only [List.length_append, List.length_cons, List.length_nil]
      omega
    · simp only [List.length_append, List.length_cons, List.length_nil] at hlt
      omega

/-! ## 3. Texts with a join -/

/-- Where the join keyword of a join stands. -/
theorem JoinSpan.Splits.hit {span : JoinSpan} {text before spelled body on pair after : Text}
    (h : span.Splits text before spelled body on pair after) :
    Hit.Splits ⟨before.length, before.length + spelled.length, 0, span.join.kind.keyword⟩ text before
      spelled (body ++ on ++ pair ++ after) := by
  refine ⟨?_, rfl, rfl, h.spells, h.blank_before, ?_⟩
  · rw [h.text_eq]
    simp
  · have hblank := h.blank_first
    cases body with
    | nil => cases hblank
    | cons c body => exact hblank

/-- Where its `ON` stands. -/
theorem JoinSpan.Splits.hit_on {span : JoinSpan} {text before spelled body on pair after : Text}
    (h : span.Splits text before spelled body on pair after) :
    Hit.Splits ⟨(before ++ spelled ++ body).length, (before ++ spelled ++ body).length + on.length, 0,
      kwOn⟩ text (before ++ spelled ++ body) on (pair ++ after) := by
  refine ⟨?_, rfl, rfl, h.spells_on, ?_, ?_⟩
  · rw [h.text_eq]
    simp
  · rw [List.getLast?_append_of_ne_nil]
    · exact h.blank_last
    · rintro rfl
      cases h.blank_last
  · rw [List.head?_append_of_ne_nil _ h.written.ne_nil]
    exact h.blank_pair

namespace Join

variable {text : Text} {span : JoinSpan}

/-- The keyword of the join is one that stands outside literals. -/
theorem stands_start (h : find text = some span) :
    Keyword.Stands kwJoins text 0 span.start := by
  obtain ⟨before, spelled, body, on, pair, after, hspan⟩ := find_parts h
  exact (Keyword.stands_iff_splits regular_joins).mpr ⟨_, _, _, _, hspan.hit, hspan.start_eq.symm,
    JoinKind.keyword_mem _, Nat.zero_le _, hspan.closed⟩

/-- In front of the join stands what stands in the text up to there. -/
theorem stands_before_iff (h : find text = some span) {position : Nat} :
    Keyword.Stands kwJoins (text.take span.start) 0 position ↔
      Keyword.Stands kwJoins text 0 position ∧ position < span.start := by
  obtain ⟨before, spelled, body, on, pair, after, hspan⟩ := find_parts h
  have htake : text.take span.start = before := by
    rw [hspan.start_eq]
    exact hspan.hit.take_start
  rw [htake, Keyword.stands_iff_splits regular_joins, Keyword.stands_iff_splits regular_joins,
    hspan.start_eq]
  constructor
  · rintro ⟨hit, b, s, a, hsplits, rfl, hmem, hle, hclosed⟩
    have hstop := hsplits.stop_le
    rw [hspan.hit.text_eq, List.append_assoc]
    refine ⟨⟨hit, b, s, _, hsplits.append _, rfl, hmem, hle, hclosed⟩, ?_⟩
    rw [hsplits.start_eq]
    rw [hsplits.stop_eq] at hstop
    omega
  · rintro ⟨⟨hit, b, s, a, hsplits, rfl, hmem, hle, hclosed⟩, hlt⟩
    have hstop := hsplits.stop_lt_start separate_joins hspan.hit hmem
      (JoinKind.keyword_mem _) hlt
    rw [hspan.hit.text_eq, List.append_assoc] at hsplits
    obtain ⟨rest, hrest⟩ := hsplits.of_append hstop
    exact ⟨hit, b, s, rest, hrest, rfl, hmem, hle, hclosed⟩

end Join

/-- The table of a join stands in the text between blanks. -/
theorem JoinSpan.Splits.exists_gaps {span : JoinSpan}
    {text before spelled body on pair after : Text}
    (h : span.Splits text before spelled body on pair after) :
    ∃ gap gap', gap ≠ [] ∧ AllBlank gap ∧ gap' ≠ [] ∧ AllBlank gap' ∧
      body = gap ++ span.join.table ++ gap' := by
  obtain ⟨gap, gap', hgap, hblank, hgap', hblank', heq⟩ :=
    exists_eq_gap_trim_gap h.blank_first h.blank_last (by rw [h.table_eq]; exact h.table_ne_nil)
  rw [h.table_eq] at heq
  exact ⟨gap, gap', hgap, hblank, hgap', hblank', heq⟩

/-- The text up to the table is closed. -/
theorem JoinSpan.Splits.closed_gap {span : JoinSpan}
    {text before spelled body on pair after : Text}
    (h : span.Splits text before spelled body on pair after) {gap : Text} (hgap : AllBlank gap) :
    Closed (before ++ spelled ++ gap) := by
  have hspelled : Unquoted spelled :=
    h.spells.unquoted (regular_joins _ (JoinKind.keyword_mem _)).lettered
  exact (h.closed.append hspelled.closed).append hgap.unquoted.closed

theorem Text.getLast?_append_blanks {gap : Text} (hgap : AllBlank gap) (hne : gap ≠ [])
    (s : Text) : (s ++ gap).getLast?.any isBlank = true := by
  rw [List.getLast?_append_of_ne_nil s hne, List.getLast?_eq_some_getLast hne]
  exact hgap _ (List.getLast_mem hne)

theorem Text.head?_blanks_append {gap : Text} (hgap : AllBlank gap) (hne : gap ≠ [])
    (s : Text) : (gap ++ s).head?.any isBlank = true := by
  obtain ⟨c, rest, rfl⟩ := List.exists_cons_of_ne_nil hne
  exact hgap c (by simp)

/-- A text with a bare end does not reach into the blanks behind another
one. -/
theorem Text.length_le_of_prefix_blanks {s t gap : Text} (hs : EndsBare s) (hgap : AllBlank gap)
    (h : s <+: t ++ gap) : s.length ≤ t.length := by
  by_contra hlt
  obtain ⟨w, rfl⟩ := List.prefix_of_prefix_length_le (List.prefix_append t gap) h (by omega)
  have hw : w <+: gap := (List.prefix_append_right_inj t).mp h
  cases hlast : w.getLast? with
  | none =>
    rw [List.getLast?_eq_none_iff.mp hlast] at hlt
    simp at hlt
  | some c =>
    have hbare := hs.of_append c hlast
    rw [hgap c (hw.subset (List.mem_of_getLast? hlast))] at hbare
    cases hbare

/-- A join keyword between the keyword of a join and its `ON` stands in
the table. -/
theorem JoinSpan.Splits.not_absent_table {span : JoinSpan}
    {text before spelled body on pair after : Text}
    (h : span.Splits text before spelled body on pair after) {hit : Hit} {b s a : Text}
    (hsplits : hit.Splits text b s a) (hmem : hit.keyword ∈ kwJoins) (hclosed : Closed b)
    (hstart : (before ++ spelled).length ≤ hit.start)
    (hstop : hit.stop ≤ (before ++ spelled ++ body).length) :
    ¬ Keyword.Absent kwJoins ([' '] ++ span.join.table ++ [' ']) := by
  obtain ⟨gap, gap', hgap, hblank, hgap', hblank', rfl⟩ := h.exists_gaps
  have hletters := (regular_joins _ hmem).lettered
  have hne := hsplits.spells.ne_nil hletters.bare (regular_joins _ hmem).words_ne_nil
  have htext : text =
      before ++ spelled ++ gap ++ (span.join.table ++ (gap' ++ (on ++ pair ++ after))) := by
    rw [h.text_eq]
    simp
  subst htext
  -- It begins behind the blanks in front of the table ...
  have hbegins : (before ++ spelled ++ gap).length ≤ hit.start := by
    have hsplits' := hsplits
    rw [List.append_assoc] at hsplits'
    obtain ⟨w, rfl, hw⟩ := hsplits'.exists_behind hstart
    obtain ⟨w, rfl, -⟩ :=
      exists_eq_blanks_append hblank hw ((hsplits.spells.startsBare hletters.bare).append hne)
    rw [hsplits.start_eq]
    simp only [List.length_append]
    omega
  -- ... and ends before the blanks behind it.
  have hends : hit.stop ≤ (before ++ spelled ++ gap ++ span.join.table).length := by
    rw [hsplits.stop_eq, ← List.length_append] at hstop ⊢
    have hprefix : b ++ s <+: before ++ spelled ++ gap ++ span.join.table ++ gap' :=
      List.prefix_of_prefix_length_le ⟨a, hsplits.text_eq.symm⟩ ⟨on ++ pair ++ after, by simp⟩
        (by simpa using hstop)
    exact length_le_of_prefix_blanks ((hsplits.spells.endsBare hletters.bare).append hne) hblank' hprefix
  have hbefore : [' '].getLast?.any isBlank = true := rfl
  have hafter : [' '].head?.any isBlank = true := rfl
  obtain ⟨u, v, rfl, hsplits'⟩ := hsplits.between hbegins hends hbefore hafter
  rw [Keyword.absent_iff, not_forall_not]
  refine ⟨_, (Keyword.stands_iff_splits regular_joins).mpr ⟨_, _, _, _, hsplits', rfl, hmem,
    Nat.zero_le _, ?_⟩⟩
  exact ((h.closed_gap hblank).scan_append u).symm.trans hclosed

/-- A join keyword in the pair of identifiers stands at the right one. -/
theorem JoinSpan.Splits.start_add_right {span : JoinSpan}
    {text before spelled body on pair after : Text}
    (h : span.Splits text before spelled body on pair after) {hit : Hit} {b s a : Text}
    (hsplits : hit.Splits text b s a) (hmem : hit.keyword ∈ kwJoins)
    (hstart : (before ++ spelled ++ body ++ on).length ≤ hit.start) (hstop : hit.start < span.stop) :
    hit.start + span.join.keys.right.length = span.stop := by
  have htext : text = before ++ spelled ++ body ++ on ++ (pair ++ after) := by
    rw [h.text_eq]
    simp
  rw [htext] at hsplits
  obtain ⟨w, rfl, hw⟩ := hsplits.exists_behind hstart
  have hends : EndsBlank w := by
    apply EndsBlank.of_append (s := before ++ spelled ++ body ++ on)
    intro c hc
    have hblank := hsplits.blank_before
    rw [hc] at hblank
    exact hblank
  rw [hsplits.start_eq, h.stop_eq] at hstop ⊢
  simp only [List.length_append] at hstop ⊢
  have := h.written.start_right h.left h.right hmem hsplits.spells hw hends (by omega)
  omega

namespace Join

variable {text : Text} {span : JoinSpan}

/-- A join keyword in the table is one in the text, behind the keyword of
the join. -/
theorem exists_stands_of_table (h : find text = some span)
    (htable : ¬ Keyword.Absent kwJoins ([' '] ++ span.join.table ++ [' '])) :
    ∃ position, Keyword.Stands kwJoins text 0 position ∧ span.start < position := by
  obtain ⟨before, spelled, body, on, pair, after, hspan⟩ := find_parts h
  obtain ⟨gap, gap', hgap, hblank, hgap', hblank', rfl⟩ := hspan.exists_gaps
  simp only [Keyword.absent_iff, not_forall, not_not] at htable
  obtain ⟨position, hstands⟩ := htable
  obtain ⟨hit, b, s, a, hsplits, rfl, hmem, -, hclosed⟩ :=
    (Keyword.stands_iff_splits regular_joins).mp hstands
  have hstart : [' '].length ≤ hit.start := by
    rw [hsplits.start_eq]
    cases b with
    | nil => exact absurd hsplits.blank_before (by simp)
    | cons c b => simp
  have hstop : hit.stop ≤ ([' '] ++ span.join.table).length := by
    have := hsplits.stop_le
    simp only [List.length_append, List.length_singleton] at this ⊢
    omega
  have htext : text =
      before ++ spelled ++ gap ++ span.join.table ++ (gap' ++ (on ++ pair ++ after)) := by
    rw [hspan.text_eq]
    simp
  rw [List.append_assoc] at hsplits
  obtain ⟨u, v, rfl, hsplits'⟩ := hsplits.between hstart hstop
    (getLast?_append_blanks hblank hgap (before ++ spelled))
    (head?_blanks_append hblank' hgap' (on ++ pair ++ after))
  rw [← htext] at hsplits'
  refine ⟨_, (Keyword.stands_iff_splits regular_joins).mpr ⟨_, _, _, _, hsplits', rfl, hmem,
    Nat.zero_le _, (hspan.closed_gap hblank).append ?_⟩, ?_⟩
  · exact hclosed
  · have := List.length_pos_iff.mpr hgap
    rw [hspan.start_eq]
    simp only [List.length_append]
    omega

/-- Behind its keyword, a join holds a further join keyword in its table
or at its right identifier. -/
theorem stands_inside (h : find text = some span) {position : Nat}
    (hstands : Keyword.Stands kwJoins text 0 position) (hlt : span.start < position)
    (hstop : position < span.stop) :
    ¬ Keyword.Absent kwJoins ([' '] ++ span.join.table ++ [' ']) ∨
      position + span.join.keys.right.length = span.stop := by
  obtain ⟨before, spelled, body, on, pair, after, hspan⟩ := find_parts h
  obtain ⟨hit, b, s, a, hsplits, rfl, hmem, -, hclosed⟩ :=
    (Keyword.stands_iff_splits regular_joins).mp hstands
  rw [hspan.start_eq] at hlt
  have hseparate : Keyword.Separate (kwOn :: kwJoins) :=
    ⟨List.forall_mem_cons.mpr ⟨regular_on, regular_joins⟩, by decide, by decide⟩
  have hmem' : hit.keyword ∈ kwOn :: kwJoins := List.mem_cons_of_mem _ hmem
  rcases Nat.lt_trichotomy hit.start (before ++ spelled ++ body).length with hbody | hon | hpair
  · left
    have hbehind := hspan.hit.stop_lt_start separate_joins hsplits
      (JoinKind.keyword_mem _) hmem hlt
    have hend := hsplits.stop_lt_start hseparate hspan.hit_on hmem' (by simp) hbody
    exact hspan.not_absent_table hsplits hmem hclosed (by rw [List.length_append]; exact hbehind.le)
      hend.le
  · -- A join keyword does not begin as `ON` does.
    have hinitial : ∀ keyword ∈ kwJoins, keyword.initial ≠ kwOn.initial := by decide
    exact absurd hon
      (hsplits.start_ne hspan.hit_on (regular_joins _ hmem) regular_on (hinitial _ hmem))
  · right
    have hbehind := hspan.hit_on.stop_lt_start hseparate hsplits (by simp) hmem' hpair
    exact hspan.start_add_right hsplits hmem (by rw [List.length_append]; exact hbehind.le) hstop

/-- Behind the join no join keyword stands, if none is found from there
on and the join ends outside literals. -/
theorem not_stands_behind (h : Keyword.find kwJoins text span.stop = none)
    (hclosed : Closed (text.take span.stop)) {position : Nat} (hle : span.stop ≤ position) :
    ¬ Keyword.Stands kwJoins text 0 position := by
  rintro ⟨-, hposition, hseen⟩
  refine Keyword.not_stands_of_find_eq_none regular_joins h ⟨hle, ?_, hseen⟩
  have hsplit := take_eq_append_slice text hle
  have hall : Closed (text.take position) := by simpa [slice] using hposition
  rw [hsplit] at hall
  exact (hclosed.scan_append _).symm.trans hall

theorem start_add_right_lt_stop (h : find text = some span) :
    span.start + span.join.keys.right.length < span.stop := by
  obtain ⟨before, spelled, body, on, pair, after, hspan⟩ := find_parts h
  obtain ⟨gap, gap', gap'', -, -, -, hpair⟩ := hspan.written
  rw [hspan.start_eq, hspan.stop_eq, hpair]
  simp only [List.length_append, List.length_singleton]
  omega

theorem existsUnique_stands (h : find text = some span)
    (hnone : Keyword.find kwJoins text span.stop = none) (hclosed : Closed (text.take span.stop)) :
    (∃! position, Keyword.Stands kwJoins text 0 position) ↔
      Keyword.Absent kwJoins (text.take span.start) ∧
        Keyword.Absent kwJoins ([' '] ++ span.join.table ++ [' ']) ∧
          ¬ Keyword.Stands kwJoins text 0 (span.stop - span.join.keys.right.length) := by
  have hright := start_add_right_lt_stop h
  constructor
  · rintro ⟨only, -, hunique⟩
    obtain rfl := hunique span.start (stands_start h)
    refine ⟨?_, ?_, ?_⟩
    · rw [Keyword.absent_iff]
      intro position hstands
      obtain ⟨hstands, hlt⟩ := (stands_before_iff h).mp hstands
      exact hlt.ne (hunique position hstands)
    · by_contra htable
      obtain ⟨position, hstands, hlt⟩ := exists_stands_of_table h htable
      exact hlt.ne' (hunique position hstands)
    · intro hstands
      have := hunique _ hstands
      omega
  · rintro ⟨hbefore, htable, hkey⟩
    refine ⟨span.start, stands_start h, fun position hstands => ?_⟩
    rcases Nat.lt_trichotomy position span.start with hlt | heq | hgt
    · exact absurd ((stands_before_iff h).mpr ⟨hstands, hlt⟩)
        (Keyword.absent_iff.mp hbefore position)
    · exact heq
    · rcases Nat.lt_or_ge position span.stop with hinside | hbehind
      · rcases stands_inside h hstands hgt hinside with hhidden | hposition
        · exact absurd htable hhidden
        · rw [← hposition, Nat.add_sub_cancel] at hkey
          exact absurd hstands hkey
      · exact absurd hstands (not_stands_behind hnone hclosed hbehind)

/-- **One join keyword.** When further joins are refused, a join that is
taken and that ends outside literals is the only place of a join keyword
exactly if none stands before it, in its table, or at its right
identifier. -/
theorem existsUnique_stands_of_detach {policy : Policy} (hpolicy : policy.joins = .refuse)
    {text : Text} {join : Join} {rest : Text}
    (h : (detach policy text).outcome = .ok ⟨some join, rest⟩) :
    ∃ span, find text = some span ∧ span.join = join ∧
      (Closed (text.take span.stop) →
        ((∃! position, Keyword.Stands kwJoins text 0 position) ↔
          Keyword.Absent kwJoins (text.take span.start) ∧
            Keyword.Absent kwJoins ([' '] ++ join.table ++ [' ']) ∧
              ¬ Keyword.Stands kwJoins text 0 (span.stop - join.keys.right.length))) := by
  rw [outcome_detach] at h
  cases hfind : find text with
  | none =>
    rw [hfind] at h
    cases h
  | some span =>
    simp only [hfind, hpolicy] at h
    cases hfurther : Keyword.find kwJoins text span.stop with
    | some further =>
      rw [hfurther] at h
      cases h
    | none =>
      rw [hfurther] at h
      obtain rfl : span.join = join := by
        have := congrArg Detached.clause (Except.ok.inj h)
        exact Option.some.inj this
      exact ⟨span, rfl, rfl, existsUnique_stands hfind hfurther⟩

/-- A join keyword in the table of a join is not refused. -/
theorem existsUnique_stands_of_detach_hidden :
    (∃! position, Keyword.Stands kwJoins
      "SELECT a FROM t INNER JOIN b ON b.x = t.x".toList 0 position) ∧
    (detach .strict "SELECT a FROM t INNER JOIN b LEFT JOIN c ON b.x = c.x".toList).outcome =
      .ok ⟨some ⟨.inner, "b LEFT JOIN c".toList, "b.x".toList, "c.x".toList⟩,
        "SELECT a FROM t".toList⟩ ∧
    ¬ ∃! position, Keyword.Stands kwJoins
      "SELECT a FROM t INNER JOIN b LEFT JOIN c ON b.x = c.x".toList 0 position := by
  -- The joins that are found, and that nothing is found behind them.
  have hplain : find "SELECT a FROM t INNER JOIN b ON b.x = t.x".toList =
      some ⟨⟨.inner, "b".toList, "b.x".toList, "t.x".toList⟩, 16, 41⟩ := by
    decide +kernel
  have hhidden : find "SELECT a FROM t INNER JOIN b LEFT JOIN c ON b.x = c.x".toList =
      some ⟨⟨.inner, "b LEFT JOIN c".toList, "b.x".toList, "c.x".toList⟩, 16, 53⟩ := by
    decide +kernel
  have hplainEnd : Keyword.find kwJoins "SELECT a FROM t INNER JOIN b ON b.x = t.x".toList 41 =
      none := by
    decide +kernel
  have hhiddenEnd : Keyword.find kwJoins
      "SELECT a FROM t INNER JOIN b LEFT JOIN c ON b.x = c.x".toList 53 = none := by
    decide +kernel
  have hplainDetach : (detach .strict "SELECT a FROM t INNER JOIN b ON b.x = t.x".toList).outcome =
      .ok ⟨some ⟨.inner, "b".toList, "b.x".toList, "t.x".toList⟩, "SELECT a FROM t".toList⟩ := by
    rw [outcome_detach]
    simp only [hplain, hplainEnd]
    rfl
  have hhiddenDetach : (detach .strict
      "SELECT a FROM t INNER JOIN b LEFT JOIN c ON b.x = c.x".toList).outcome =
        .ok ⟨some ⟨.inner, "b LEFT JOIN c".toList, "b.x".toList, "c.x".toList⟩,
          "SELECT a FROM t".toList⟩ := by
    rw [outcome_detach]
    simp only [hhidden, hhiddenEnd]
    rfl
  refine ⟨?_, hhiddenDetach, ?_⟩
  · obtain ⟨span, hspan, -, hiff⟩ := existsUnique_stands_of_detach rfl hplainDetach
    obtain rfl := Option.some.inj (hplain.symm.trans hspan)
    refine (hiff (by decide +kernel)).mpr ⟨?_, ?_, ?_⟩
    · exact Keyword.absent_of_find_eq_none regular_joins (by decide +kernel)
    · exact Keyword.absent_of_find_eq_none regular_joins (by decide +kernel)
    · rintro ⟨-, -, hseen⟩
      revert hseen
      decide +kernel
  · obtain ⟨span, hspan, -, hiff⟩ := existsUnique_stands_of_detach rfl hhiddenDetach
    obtain rfl := Option.some.inj (hhidden.symm.trans hspan)
    rw [hiff (by decide +kernel)]
    rintro ⟨-, htable, -⟩
    -- `LEFT JOIN` stands at the second word of the table.
    have hleft := htable 3 (by decide +kernel) kwLeftJoin (by simp [kwJoins])
    revert hleft
    decide +kernel

end Join

end SelectOutline
