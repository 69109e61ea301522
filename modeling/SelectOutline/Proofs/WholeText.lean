/-
SelectOutline.Proofs.WholeText — the join of a query, found in its text.

A query is searched for its join when little is left of it: the clauses
behind the join have been taken off and `DISTINCT` has been taken out in
front. The search in the whole text, where there are more words `ON` and
more join keywords, still finds the same join. What was taken off the end
begins with a blank, and what stands in front of the join is read off
`SELECT` and `DISTINCT` alone, with which no join keyword begins.
-/
import SelectOutline.Proofs.FirstJoin
import SelectOutline.Proofs.Pipeline

namespace SelectOutline

open Text

/-! ## 1. What stands in front -/

/-- The first words of the join keywords. -/
def joinWords : List Text := ["INNER".toList, "LEFT".toList, "RIGHT".toList]

theorem Keyword.fronts_joins {s gap text : Text} (hs : Keyword.Passable joinWords s)
    (hne : gap ≠ []) (hgap : AllBlank gap) (hquote : Unquoted (s ++ gap ++ text)) :
    Keyword.Fronts kwJoins (s ++ gap) text :=
  fronts_of_passable regular_joins (by decide) (show BeginIn kwJoins joinWords by decide) hs hne hgap
    hquote

/-- `SELECT` in any case is passed over by a search for joins. -/
theorem passable_select {select t : Text} (h : select.map Char.toUpper = "SELECT".toList)
    (hstops : Stops t) (ht : Keyword.Passable joinWords t) :
    Keyword.Passable joinWords (select ++ t) :=
  .spelled (Keyword.Opening.lettered opening_select) (.single h) (by decide) hstops ht

/-- So is `DISTINCT`. -/
theorem passable_distinct {distinct t : Text} (h : distinct.map Char.toUpper = "DISTINCT".toList)
    (hstops : Stops t) (ht : Keyword.Passable joinWords t) :
    Keyword.Passable joinWords (distinct ++ t) :=
  .spelled (Keyword.Opening.lettered opening_distinct) (.single h) (by decide) hstops ht

/-- A query in which `DISTINCT` was taken out of the front differs from
its text in the front alone, and no join keyword begins there. -/
theorem Distinct.exists_fronts {g text fragment tail : Text} (hg : AllBlank g)
    (hquote : Unquoted (g ++ text)) (hrest : (Distinct.detach text).rest = fragment ++ tail)
    (hselect : ∃ select gap m, fragment = select ++ gap ++ m ∧
      select.map Char.toUpper = "SELECT".toList ∧ gap ≠ [] ∧ AllBlank gap) :
    ∃ front front' m, fragment = front ++ m ∧ g ++ text = front' ++ m ++ tail ∧
      Unquoted (front ++ m) ∧ Keyword.Fronts kwJoins front m ∧
      Keyword.Fronts kwJoins front' m := by
  obtain ⟨select, gap, m, hfragment, hupper, hne, hgap⟩ := hselect
  by_cases hopens : ∃ rest, Opens text rest
  · obtain ⟨rest, hopens⟩ := hopens
    rw [detach_of_opens hopens] at hrest
    obtain ⟨select', gap', distinct, rfl, hupper', hne', hgap', hdistinct, hblank⟩ := hopens
    obtain ⟨gap'', hne'', hgap'', hsplit⟩ := exists_eq_gap_append hblank
    obtain ⟨m, rfl⟩ : "SELECT ".toList <+: fragment := by
      refine List.prefix_of_prefix_length_le ⟨trimStart rest, hrest⟩ ⟨tail, rfl⟩ ?_
      have hlength : select.length = 6 := by simpa using congrArg List.length hupper
      have hpos := List.length_pos_iff.mpr hne
      rw [hfragment, List.length_append, List.length_append, hlength]
      exact Nat.le_trans (by decide : _ ≤ 7) (by omega)
    have hm : trimStart rest = m ++ tail := by simpa using hrest
    rw [hm] at hsplit
    rw [hsplit] at hquote ⊢
    have hfront : Unquoted ("SELECT".toList ++ [] ++ [' '] ++ m) :=
      Unquoted.append (by decide) fun c hc => hquote c (by simp [hc])
    refine ⟨"SELECT".toList ++ [] ++ [' '], g ++ (select' ++ (gap' ++ (distinct ++ []))) ++ gap'', m, rfl,
      by simp, hfront, ?_, ?_⟩
    · exact Keyword.fronts_joins (passable_select (by decide) stops_nil .nil) (by simp) (by decide)
        hfront
    · refine Keyword.fronts_joins ?_ hne'' hgap'' fun c hc => hquote c ?_
      · exact .blanks hg (passable_select hupper' (hgap'.stops_append hne' _)
          (.blanks hgap' (passable_distinct hdistinct stops_nil .nil)))
      · simp only [List.append_assoc, List.mem_append, List.append_nil] at hc ⊢
        tauto
  · rw [detach_of_not_opens hopens] at hrest
    obtain rfl : text = fragment ++ tail := hrest
    subst hfragment
    have hfront : Unquoted (select ++ [] ++ gap ++ m) := by
      intro c hc
      refine hquote c ?_
      simp only [List.append_assoc, List.mem_append, List.append_nil] at hc ⊢
      tauto
    refine ⟨select ++ [] ++ gap, g ++ (select ++ []) ++ gap, m, by simp, by simp, hfront, ?_, ?_⟩
    · exact Keyword.fronts_joins (passable_select hupper stops_nil .nil) hne hgap hfront
    · refine Keyword.fronts_joins ?_ hne hgap fun c hc => hquote c ?_
      · exact .blanks hg (passable_select hupper stops_nil .nil)
      · simp only [List.append_assoc, List.mem_append, List.append_nil] at hc ⊢
        tauto

/-! ## 2. The query -/

/-- The join of a fragment that begins with `SELECT` is the join of every
text that the fragment comes from: `DISTINCT` was taken out of the front,
and what was taken off the end begins with a blank. -/
theorem Join.ofText?_of_fragment {g text g' fragment tail : Text} (hg : AllBlank g)
    (hg' : AllBlank g') (hquote : Unquoted (g ++ text ++ g'))
    (hrest : (Distinct.detach text).rest = fragment ++ tail) (htail : StartsBlank tail)
    (hselect : ∃ select gap m, fragment = select ++ gap ++ m ∧
      select.map Char.toUpper = "SELECT".toList ∧ gap ≠ [] ∧ AllBlank gap)
    {join : Join} (hjoin : ofText? fragment = some join) :
    ofText? (g ++ text ++ g') = some join := by
  obtain ⟨hquote', -⟩ := List.forall_mem_append.mp hquote
  obtain ⟨front, front', m, rfl, htext, hunquoted, hfront, hfront'⟩ :=
    Distinct.exists_fronts hg hquote' hrest hselect
  obtain ⟨span, hspan, rfl⟩ := Option.map_eq_some_iff.mp hjoin
  have hunquoted' : Unquoted (front' ++ m) := by
    rw [htext] at hquote'
    exact (List.forall_mem_append.mp hquote').1
  obtain ⟨before, spelled, body, on, pair, after, hfirst⟩ := exists_first hunquoted hspan
  obtain ⟨span', u, hjoin', hfirst'⟩ := hfirst.exchange hfront hfront' hunquoted'
  have hwhole := hfirst'.append (htail.append hg'.startsBlank)
  rw [htext, List.append_assoc] at hquote ⊢
  rw [ofText?, find_of_first hquote hwhole, Option.map_some, hjoin']

/-- **The join of a query is the first join of its text.** -/
theorem Outline.join_eq_ofText? {policy : Policy} {text : Text} {outline : Outline} {join : Join}
    (hquote : Unquoted text) (h : (parse policy text).outcome = .ok outline)
    (hlimit : outline.limit = none) (hjoin : outline.join = some join) :
    Join.ofText? text = some join := by
  obtain ⟨stages, rfl⟩ := outcome_parse_eq_ok_iff.mp h
  have hrest : stages.limit.rest = (Distinct.detach (trim text)).rest :=
    (Limit.length_detach stages.limit_eq).1 hlimit
  obtain ⟨fragment, joinText, tail, hsplit, htail, hfound, hfragment, select, gap, list, gap', spelled,
    gap'', name, hselect, hne, hgap, -, -, -, -, -, hhead, -⟩ := stages.exists_fragment
  obtain ⟨g, g', hg, hg', htext⟩ := exists_eq_append_trim text
  rw [hrest] at hsplit
  rw [htext] at hquote ⊢
  refine Join.ofText?_of_fragment hg hg' hquote hsplit htail
    ⟨select, gap, list ++ gap' ++ spelled ++ gap'' ++ name ++ joinText, ?_, hselect, hne, hgap⟩ ?_
  · rw [hfragment, hhead]
    simp only [List.append_assoc]
  · rw [hfound]
    exact hjoin

/-- The clauses behind the join hold a word `ON` and a join keyword, and the
right identifier could go on but for the blank. -/
theorem Outline.join_eq_ofText?_every_clause :
    ∃ outline,
      (parse {} (" Select\tDISTINCT a FROM t left join u ON t.k = ON WHERE b = c ON d = e " ++
        "GROUP BY g right join v ON x = y ORDER BY h inner join w ON p = q ").toList).outcome =
          .ok outline ∧
      outline.join = some ⟨.left, "u".toList, "t.k".toList, "ON".toList⟩ ∧
      Join.ofText? (" Select\tDISTINCT a FROM t left join u ON t.k = ON WHERE b = c ON d = e " ++
        "GROUP BY g right join v ON x = y ORDER BY h inner join w ON p = q ").toList =
          some ⟨.left, "u".toList, "t.k".toList, "ON".toList⟩ := by
  have hparse : (parse {} (" Select\tDISTINCT a FROM t left join u ON t.k = ON WHERE b = c ON d = e " ++
      "GROUP BY g right join v ON x = y ORDER BY h inner join w ON p = q ").toList).outcome = .ok
        { fields := ["a".toList]
          table := "t".toList
          conditions := [⟨"b".toList, .equal, "c ON d = e".toList, none⟩]
          join := some ⟨.left, "u".toList, "t.k".toList, "ON".toList⟩
          groups := some ["g right join v ON x = y".toList]
          ungroupedAggregate := false
          sortKeys := some [⟨"h".toList, .other "INNER".toList⟩]
          limit := none
          distinct := true } := by
    decide +kernel
  exact ⟨_, hparse, rfl, join_eq_ofText? (by decide +kernel) hparse rfl rfl⟩

end SelectOutline
