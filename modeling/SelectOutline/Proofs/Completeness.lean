/-
SelectOutline.Proofs.Completeness — a written query is read as what it
means.

The phases take the clauses of a written query off its end one by one,
and each leaves the text of the query without its clause. What is left
of it in the end are the fields and the table, behind a `SELECT` that
has or had a `DISTINCT`.

`Query.outline` is what a query means, said without any reader: the aggregate
flag too is a statement about calls. `Query.outcome_parse_text` puts the
phases together.
-/
import SelectOutline.Proofs.Calls
import SelectOutline.Proofs.Conditions

namespace SelectOutline.Grammar

open Text Keyword

/-! ## 1. The head -/

theorem Spelled.upper_eq {keyword : Keyword} {word : Text} (hk : keyword.Opening word)
    (spelled : Spelled keyword) : spelled.text.map Char.toUpper = word := by
  have h := spelled.spells
  rw [hk.words_eq] at h
  cases h with
  | single h => exact h

theorem Spelled.length_eq {keyword : Keyword} {word : Text} (hk : keyword.Opening word)
    (spelled : Spelled keyword) : spelled.text.length = word.length := by
  rw [← spelled.upper_eq hk, List.length_map]

/-- An opening keyword is seen where it is written. -/
theorem Spelled.isSome_matchHere {keyword : Keyword} {word : Text} (hk : keyword.Opening word)
    (spelled : Spelled keyword) (gap : Gap) (t : Text) :
    (keyword.matchHere none (spelled.text ++ (gap.text ++ t))).isSome = true := by
  have hmatch : keyword.matchHere none (spelled.text ++ (gap.text ++ t)) =
      some spelled.text.length :=
    hk.matchHere_eq_some_iff.mpr
      ⟨spelled.text, gap.text ++ t, rfl, spelled.upper_eq hk, rfl, gap.blank_head t⟩
  rw [hmatch]
  rfl

namespace Query

variable (query : Query)

/-- The text from `SELECT` on, up to a part that ends bare. -/
theorem trimmed_select (word : Spelled kwSelect) (gap : Gap) {t : Text} (ht : EndsBare t)
    (hne : t ≠ []) : Trimmed (word.text ++ (gap.text ++ t)) := by
  refine ⟨?_, ?_⟩
  · exact (word.spells.startsBare opening_select.lettered.bare).append
      (word.spells.ne_nil opening_select.lettered.bare (by decide))
  · rw [← List.append_assoc]
    exact ht.append hne

/-- The fields and the table are read behind any `SELECT`. -/
theorem parse_source (word : Spelled kwSelect) (gap : Gap) :
    (Projection.parse (word.text ++ (gap.text ++ query.source))).outcome =
      .ok ⟨query.fields.toList.map Item.text, query.table.text⟩ := by
  have hlength : word.text.length = 6 := word.length_eq opening_select
  have htrimmed := trimmed_select word gap query.trimmed_source.ends query.source_ne_nil
  -- The search for `FROM` begins behind the first blank.
  obtain ⟨b, blanks, hgap⟩ := List.exists_cons_of_ne_nil gap.ne_nil
  have hblanks : AllBlank blanks := fun c hc => gap.blank c (by simp [hgap, hc])
  have hf : (["FROM".toList] : List Text) ⊆ reserved := by decide
  have hpassable : Passable ["FROM".toList] (blanks ++ query.fields.text Item.text) := by
    have := Passable.blanks hblanks
      (Listed.passable (fun item => item.passable hf) query.fields stops_nil .nil)
    rwa [List.append_nil] at this
  have htext : word.text ++ (gap.text ++ query.source) =
      (word.text ++ [b]) ++ ((blanks ++ query.fields.text Item.text) ++ (query.fromBefore.text ++
        (query.fromWord.text ++ (query.fromAfter.text ++ query.table.text)))) := by
    simp [hgap, Query.source]
  have hstart : (word.text ++ [b]).length = 7 := by
    rw [List.length_append, hlength]
    rfl
  obtain ⟨hit, hfind, htake, hdrop⟩ := exists_hit_behind regular_from (by decide)
    (word.text ++ [b]) hpassable query.fromBefore query.fromWord query.fromAfter query.table.text
  rw [← htext, hstart] at hfind
  rw [← htext] at htake hdrop
  have hfields : trim (slice (word.text ++ (gap.text ++ query.source)) 6 hit.start) =
      query.fields.text Item.text := by
    have hsplit : word.text ++ [b] ++ (blanks ++ query.fields.text Item.text) ++
        query.fromBefore.text =
          word.text ++ (gap.text ++ query.fields.text Item.text ++ query.fromBefore.text) := by
      simp [hgap]
    rw [slice, htake, hsplit, ← hlength, List.drop_left]
    exact (query.fields.trimmed Item.trimmed Item.ne_nil).trim_between gap.blank
      query.fromBefore.blank
  have htable : trim ((word.text ++ (gap.text ++ query.source)).drop hit.stop) =
      query.table.text := by
    rw [hdrop]
    exact query.table.trimmed.trim_blanks_append query.fromAfter.blank
  rw [Projection.outcome_parse, htrimmed.trim_eq, word.isSome_matchHere opening_select gap,
    if_pos rfl, hfind]
  simp only [hfields, htable, Bool.or_eq_true, List.isEmpty_iff, query.fields.ne_nil Item.ne_nil,
    query.table.ne_nil, or_self, if_false, Listed.entries_text Item.entry]

/-- `DISTINCT` is taken out if it is written, and nothing else is taken
for it: a field is no reserved word. -/
theorem detach_distinct (t : Text) :
    Distinct.detach (query.select.text ++ (query.selectAfter.text ++ (optional
        (fun (word, gap) => word.text ++ gap.text) query.distinct ++ (query.source ++ t)))) =
      ⟨query.distinct.isSome, query.start ++ (query.source ++ t)⟩ := by
  have hselect : query.select.text.length = 6 := query.select.length_eq opening_select
  have hstarts : StartsBare (query.source ++ t) :=
    query.trimmed_source.starts.append query.source_ne_nil
  rw [Distinct.detach_eq, query.select.isSome_matchHere opening_select, Bool.true_and,
    ← hselect, List.drop_left, trimStart_append_of_allBlank query.selectAfter.blank, Query.start]
  cases query.distinct with
  | none =>
    -- The first word is a field.
    have hnone : kwDistinct.matchHere none (query.source ++ t) = none := by
      rw [Query.source, Listed.text, List.append_assoc, List.append_assoc]
      refine opening_distinct.matchHere_word query.fields.first.solid ?_ ?_ none
      · intro hword
        exact query.fields.first.free (hword ▸ by decide)
      · rw [List.append_assoc]
        exact Listed.stops_tailText query.fields.others (query.fromBefore.stops _)
    rw [optional, Option.elim_none, List.nil_append, trimStart_of_startsBare hstarts, hnone]
    simp
  | some distinct =>
    obtain ⟨word, gap⟩ := distinct
    have hword : word.text.length = 8 := word.length_eq opening_distinct
    have hbare : StartsBare (word.text ++ (gap.text ++ (query.source ++ t))) :=
      (word.spells.startsBare opening_distinct.lettered.bare).append
        (word.spells.ne_nil opening_distinct.lettered.bare (by decide))
    rw [optional, Option.elim_some, List.append_assoc, trimStart_of_startsBare hbare,
      word.isSome_matchHere opening_distinct, if_pos rfl, ← hword, List.drop_left,
      trimStart_append_of_allBlank gap.blank, trimStart_of_startsBare hstarts]
    rfl

/-! ## 2. The text that each phase leaves -/

/-- The start of the query is always a `SELECT` and a gap. -/
theorem exists_start_eq :
    ∃ (word : Spelled kwSelect) (gap : Gap), query.start = word.text ++ gap.text := by
  rw [Query.start]
  cases query.distinct with
  | none => exact ⟨query.select, query.selectAfter, rfl⟩
  | some _ =>
    exact ⟨⟨"SELECT".toList, .single (by decide)⟩, ⟨⟨[' '], by decide⟩, by decide⟩, rfl⟩

/-- What the join phase leaves. -/
def head : Text :=
  query.start ++ query.source

/-- What the phase of the conditions leaves. -/
def joined : Text :=
  query.head ++ optional JoinClause.text query.join

/-- What the phase of the sort keys leaves. -/
def grouped : Text :=
  query.ungrouped ++ optional GroupClause.text query.groups

/-- What the limit phase leaves. -/
def sorted : Text :=
  query.grouped ++ optional SortClause.text query.sorting

theorem passable_start {firsts : List Text} (hf : firsts ⊆ reserved)
    (hk : Foreign [kwSelect, kwFrom] firsts) {t : Text} (ht : Follows firsts t) :
    Passable firsts (query.head ++ t) := by
  obtain ⟨word, gap, hstart⟩ := query.exists_start_eq
  simp only [head, hstart, List.append_assoc]
  exact .spelled opening_select.lettered word.spells (hk kwSelect (by simp)) (gap.stops _)
    (.blanks gap.blank (query.passable_source hf hk.tail ht.stops ht.passable))

theorem passable_head :
    Passable ["INNER".toList, "LEFT".toList, "RIGHT".toList] query.head := by
  have := query.passable_start (by decide) (by decide)
    (show Follows ["INNER".toList, "LEFT".toList, "RIGHT".toList] [] from follows_nil)
  rwa [List.append_nil] at this

theorem passable_joined : Passable ["WHERE".toList] query.joined := by
  have hf : (["WHERE".toList] : List Text) ⊆ reserved := by decide
  have := query.passable_start hf (by decide)
    (JoinClause.follows query.join hf (by decide) follows_nil)
  rwa [List.append_nil] at this

theorem passable_ungrouped : Passable ["GROUP".toList] query.ungrouped := by
  have hf : (["GROUP".toList] : List Text) ⊆ reserved := by decide
  have := query.passable_start hf (by decide)
    (JoinClause.follows query.join hf (by decide)
      (WhereClause.follows query.criteria hf (by decide) follows_nil))
  simpa [ungrouped, head] using this

theorem passable_grouped : Passable ["ORDER".toList] query.grouped := by
  have hf : (["ORDER".toList] : List Text) ⊆ reserved := by decide
  have := query.passable_start hf (by decide)
    (JoinClause.follows query.join hf (by decide)
      (WhereClause.follows query.criteria hf (by decide)
        (GroupClause.follows query.groups hf (by decide) follows_nil)))
  simpa [grouped, ungrouped, head] using this

theorem passable_sorted : Passable ["LIMIT".toList] query.sorted := by
  have hf : (["LIMIT".toList] : List Text) ⊆ reserved := by decide
  have := query.passable_start hf (by decide)
    (JoinClause.follows query.join hf (by decide)
      (WhereClause.follows query.criteria hf (by decide)
        (GroupClause.follows query.groups hf (by decide)
          (SortClause.follows query.sorting hf (by decide) follows_nil))))
  simpa [sorted, grouped, ungrouped, head] using this

theorem trimmed_head : Trimmed query.head := by
  obtain ⟨word, gap, hstart⟩ := query.exists_start_eq
  rw [head, hstart, List.append_assoc]
  exact trimmed_select word gap query.trimmed_source.ends query.source_ne_nil

theorem trimmed_joined : Trimmed query.joined :=
  ⟨query.trimmed_head.starts.append (by simp [head, query.source_ne_nil]),
    endsBare_optional JoinClause.endsBare query.trimmed_head.ends query.join⟩

theorem endsBare_ungrouped : EndsBare query.ungrouped :=
  endsBare_optional WhereClause.endsBare query.trimmed_joined.ends query.criteria

theorem endsBare_grouped : EndsBare query.grouped :=
  endsBare_optional GroupClause.endsBare query.endsBare_ungrouped query.groups

theorem endsBare_sorted : EndsBare query.sorted :=
  endsBare_optional SortClause.endsBare query.endsBare_grouped query.sorting

/-- The query without the blanks around it, and without `DISTINCT`. -/
theorem detach_text :
    Distinct.detach (trim query.text) =
      ⟨query.distinct.isSome, query.sorted ++ optional LimitClause.text query.limit⟩ := by
  -- Everything behind the fields and the table.
  let t := optional JoinClause.text query.join ++ (optional WhereClause.text query.criteria ++
    (optional GroupClause.text query.groups ++ (optional SortClause.text query.sorting ++
      optional LimitClause.text query.limit)))
  have hsorted : query.start ++ (query.source ++ t) =
      query.sorted ++ optional LimitClause.text query.limit := by
    simp [t, sorted, grouped, ungrouped]
  have htext : query.text = query.leading.text ++ (query.select.text ++ (query.selectAfter.text ++
      (optional (fun (word, gap) => word.text ++ gap.text) query.distinct ++
        (query.source ++ t)))) ++ query.trailing.text := by
    simp [t, Query.text, Query.body]
  have hends : EndsBare (query.source ++ t) := by
    have := endsBare_optional LimitClause.endsBare query.endsBare_sorted query.limit
    rw [← hsorted] at this
    exact this.of_append
  have htrimmed : Trimmed (query.select.text ++ (query.selectAfter.text ++
      (optional (fun (word, gap) => word.text ++ gap.text) query.distinct ++
        (query.source ++ t)))) :=
    trimmed_select query.select query.selectAfter
      (hends.append (by simp [query.source_ne_nil])) (by simp [query.source_ne_nil])
  rw [htext, htrimmed.trim_between query.leading.blank query.trailing.blank,
    query.detach_distinct t, hsorted]

/-! ## 3. The query -/

/-- What the query means. The flag says that there are no groups and that
a call of an aggregate function stands in front of where they would be. -/
def outline : Outline where
  fields := query.fields.toList.map Item.text
  table := query.table.text
  conditions := query.criteria.elim [] WhereClause.conditions
  join := query.join.map JoinClause.join
  groups := query.groups.map GroupClause.groups
  ungroupedAggregate := decide (query.groups = none ∧ Aggregate.CallIn query.ungrouped)
  sortKeys := query.sorting.map SortClause.keys
  limit := query.limit.map LimitClause.value
  distinct := query.distinct.isSome

/-- **A written query is read as what it means.** -/
theorem outcome_parse_text (policy : Policy) (h : query.Admitted policy) :
    (Outline.parse policy query.text).outcome = .ok query.outline := by
  have hlimit := LimitClause.detach_eq query.passable_sorted query.endsBare_sorted query.limit
  have hsorting : (Sorting.detach policy query.sorted).outcome =
      .ok ⟨query.sorting.map SortClause.keys, query.grouped⟩ :=
    SortClause.detach_eq query.passable_grouped query.endsBare_grouped query.sorting h
  have hgroups : (Grouping.detach query.grouped).outcome =
      .ok ⟨query.groups.map GroupClause.groups, query.ungrouped⟩ :=
    GroupClause.detach_eq query.passable_ungrouped query.endsBare_ungrouped query.groups
  have hcriteria : (Criteria.detach query.ungrouped).value =
      ⟨query.criteria.map WhereClause.body, query.joined⟩ :=
    WhereClause.detach_eq query.passable_joined query.trimmed_joined query.criteria
  have hjoin : (Join.detach policy query.joined).outcome =
      .ok ⟨query.join.map JoinClause.join, query.head⟩ :=
    JoinClause.detach_eq query.passable_head query.trimmed_head query.join
  have hhead : (Projection.parse query.head).outcome =
      .ok ⟨query.fields.toList.map Item.text, query.table.text⟩ := by
    obtain ⟨word, gap, hstart⟩ := query.exists_start_eq
    rw [head, hstart, List.append_assoc]
    exact query.parse_source word gap
  have hconditions : ((query.criteria.map WhereClause.body).elim (.ok []) fun text =>
      (Criteria.parse text).outcome) = .ok (query.criteria.elim [] WhereClause.conditions) := by
    cases query.criteria with
    | none => rfl
    | some clause => exact clause.parse_body
  have hcalls : Aggregate.withoutGroups query.ungrouped (query.groups.map GroupClause.groups) =
      decide (query.groups = none ∧ Aggregate.CallIn query.ungrouped) := by
    rw [Aggregate.withoutGroups_eq]
    simp only [Option.map_eq_none_iff]
  -- Each phase takes the text that the one before it left.
  rw [Outline.outcome_parse, query.detach_text]
  simp only [hlimit, hsorting, hgroups, hcriteria, hjoin, hhead, hconditions, hcalls, bind,
    Except.bind]
  rfl

/-- A query with every clause and with a keyword, a comma and an operator
in its literal. -/
def everyClause : Query :=
  let space : Gap := ⟨⟨[' '], by decide⟩, by decide⟩
  let noSpace : Space := ⟨[], allBlank_nil⟩
  let a : Atom := ⟨"a".toList, by decide, by decide, by decide⟩
  let b : Atom := ⟨"b".toList, by decide, by decide, by decide⟩
  let u : Atom := ⟨"u".toList, by decide, by decide, by decide⟩
  let desc : Atom := ⟨"desc".toList, by decide, by decide, by decide⟩
  { leading := ⟨"\t ".toList, by decide⟩
    select := ⟨"Select".toList, .single rfl⟩
    selectAfter := space
    distinct := some (⟨"DISTINCT".toList, .single rfl⟩, space)
    fields := ⟨a.toItem, [(noSpace, space.toSpace,
      ⟨"MAX(b,c)".toList, by decide, by decide, by decide, by decide⟩)]⟩
    fromBefore := space
    fromWord := ⟨"FROM".toList, .single rfl⟩
    fromAfter := space
    table := ⟨⟨"t".toList, by decide, by decide, by decide⟩, [b]⟩
    join := some {
      before := space
      kind := .left
      keyword := ⟨"left".toList ++ [' '] ++ "JOIN".toList,
        .cons rfl space.ne_nil space.blank (.single rfl)⟩
      after := space
      table := ⟨u, []⟩
      onBefore := space
      on := ⟨"ON".toList, .single rfl⟩
      onAfter := space
      left := ⟨⟨"b.k".toList, by decide, by decide, by decide⟩, by decide +kernel⟩
      equalsBefore := noSpace
      equalsAfter := noSpace
      right := ⟨u, by decide +kernel⟩ }
    criteria := some {
      before := space
      keyword := ⟨"WHERE".toList, .single rfl⟩
      after := space
      first := .compare a noSpace "<>".toList .different (by decide) noSpace
        (.literal "GROUP BY a, b >= 1".toList (by decide))
      others := [{
        before := space
        connective := .or
        keyword := ⟨"or".toList, .single rfl⟩
        after := space
        test := .like b space ⟨"LIKE".toList, .single rfl⟩ space
          (.literal "%".toList (by decide)) }] }
    groups := some {
      before := space
      keyword := ⟨"GROUP".toList ++ [' '] ++ "BY".toList,
        .cons rfl space.ne_nil space.blank (.single rfl)⟩
      after := space
      list := ⟨a.toItem, []⟩ }
    sorting := some {
      before := space
      keyword := ⟨"ORDER".toList ++ [' '] ++ "BY".toList,
        .cons rfl space.ne_nil space.blank (.single rfl)⟩
      after := space
      list := ⟨⟨a.toItem, some (space, .descending desc (by decide +kernel))⟩, []⟩ }
    limit := some {
      before := space
      keyword := ⟨"LIMIT".toList, .single rfl⟩
      after := space
      digits := "10".toList
      ne_nil := by decide
      decimal := by decide
      fits := by decide }
    trailing := noSpace }

theorem outcome_parse_text_every_clause :
    everyClause.text = ("\t Select DISTINCT a, MAX(b,c) FROM t b left JOIN u ON b.k=u WHERE " ++
        "a<>'GROUP BY a, b >= 1' or b LIKE '%' GROUP BY a ORDER BY a desc LIMIT 10").toList ∧
      everyClause.Admitted .strict ∧
      (Outline.parse .strict everyClause.text).outcome = .ok
        { fields := ["a".toList, "MAX(b,c)".toList]
          table := "t b".toList
          conditions := [⟨"a".toList, .different, "'GROUP BY a, b >= 1'".toList, none⟩,
            ⟨"b".toList, .like, "%".toList, some .or⟩]
          join := some ⟨.left, "u".toList, "b.k".toList, "u".toList⟩
          groups := some ["a".toList]
          ungroupedAggregate := false
          sortKeys := some [⟨"a".toList, .descending⟩]
          limit := some 10
          distinct := true } := by
  have hadmitted : everyClause.Admitted .strict := by
    intro clause hclause entry hentry
    obtain rfl := Option.some.inj hclause
    obtain rfl := List.mem_singleton.mp hentry
    exact .inr fun _ => Direction.noConfusion
  refine ⟨by decide +kernel, hadmitted, ?_⟩
  rw [outcome_parse_text everyClause .strict hadmitted]
  decide +kernel

end Query

end SelectOutline.Grammar
