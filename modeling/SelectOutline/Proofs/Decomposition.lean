/-
SelectOutline.Proofs.Decomposition — nothing of a query is lost.

What the limit phase leaves of a query has bare ends, and every later
phase takes its clause off the end and leaves bare ends again. This is
the invariant that makes the parts add up: a keyword that is found has
text behind it, so that no clause is empty and none is taken for
absent. `accounts_of_splits` is the step that all phases share.

`exists_composition` says what follows for a query as a whole: its text
without the limit is head, join, criteria, groups and sort keys, one
after another, and each part of the outline is read off its own piece.
The pieces are the ones that the phases take: what a phase reports as left
is what stands in front of its piece.
-/
import SelectOutline.Proofs.Joins
import SelectOutline.Proofs.Reports

namespace SelectOutline

open Text

/-! ## 1. Clauses -/

/-- A clause as it stands in a query: blanks, the keyword in some
spelling, blanks and the body. -/
def ClauseText (keyword : Keyword) (body text : Text) : Prop :=
  ∃ gap spelled gap', gap ≠ [] ∧ AllBlank gap ∧ Keyword.Spells keyword.words spelled ∧
    gap' ≠ [] ∧ AllBlank gap' ∧ text = gap ++ spelled ++ gap' ++ body

/-- A phase has taken `clause` off the end of a text: the parts add up,
what is left has bare ends, and there is a clause exactly if one was
read; `Reads` says from what. -/
structure Detached.Accounts {α : Type} (detached : Detached (Option α)) (text clause : Text)
    (Reads : α → Text → Prop) : Prop where
  text_eq : text = detached.rest ++ clause
  trimmed : Trimmed detached.rest
  clause_nil : clause = [] ↔ detached.clause = none
  reads : ∀ a, detached.clause = some a → Reads a clause

/-- A phase that finds no keyword takes nothing. -/
theorem accounts_none {α : Type} {text : Text} (h : Trimmed text) (Reads : α → Text → Prop) :
    Detached.Accounts ⟨none, text⟩ text [] Reads :=
  ⟨(List.append_nil text).symm, h, by simp, fun a ha => by cases ha⟩

/-- A phase that takes all text from a keyword on off a text with bare
ends takes a clause with a body. -/
theorem accounts_of_splits {α : Type} {hit : Hit} {text before spelled after : Text}
    (htext : Trimmed text) (h : hit.Splits text before spelled after) (a : α) {P : α → Text → Prop}
    (hP : P a (trim (text.drop hit.stop))) :
    ∃ clause, Detached.Accounts ⟨some a, trimEnd (text.take hit.start)⟩ text clause
      fun a clause => ∃ body, ClauseText hit.keyword body clause ∧ P a body := by
  obtain ⟨gap, hgap, hblank, hbefore⟩ := exists_eq_append_gap h.blank_before
  have hends : EndsBare after := EndsBare.of_append (s := before ++ spelled) (h.text_eq ▸ htext.ends)
  obtain ⟨gap', hgap', hblank', hafter, -⟩ := exists_eq_gap_append_trim h.blank_after hends
  have hclause : ClauseText hit.keyword (trim after) (gap ++ spelled ++ gap' ++ trim after) :=
    ⟨gap, spelled, gap', hgap, hblank, h.spells, hgap', hblank', rfl⟩
  refine ⟨gap ++ spelled ++ gap' ++ trim after, ?_, htext.trimEnd_take _, ?_, ?_⟩
  · rw [h.take_start]
    calc text = before ++ spelled ++ after := h.text_eq
      _ = (trimEnd before ++ gap) ++ spelled ++ (gap' ++ trim after) := by
        rw [← hbefore, ← hafter]
      _ = trimEnd before ++ (gap ++ spelled ++ gap' ++ trim after) := by
        simp only [List.append_assoc]
  · simp [hgap]
  · intro b hb
    obtain rfl := Option.some.inj hb
    rw [h.drop_stop] at hP
    exact ⟨trim after, hclause, hP⟩

theorem ClauseText.startsBlank {keyword : Keyword} {body text : Text}
    (h : ClauseText keyword body text) : StartsBlank text := by
  obtain ⟨gap, spelled, gap', hne, hgap, -, -, -, rfl⟩ := h
  obtain ⟨b, gap, rfl⟩ := List.exists_cons_of_ne_nil hne
  intro c hc
  obtain rfl := Option.some.inj hc
  exact hgap b (by simp)

/-- What a phase takes off the end of a text begins with a blank. -/
theorem Detached.Accounts.startsBlank {α : Type} {detached : Detached (Option α)}
    {text clause : Text} {keyword : Keyword} {P : α → Text → Prop}
    (h : detached.Accounts text clause fun a clause =>
      ∃ body, ClauseText keyword body clause ∧ P a body) : StartsBlank clause := by
  cases hclause : detached.clause with
  | none =>
    rw [h.clause_nil.mpr hclause]
    exact startsBlank_nil
  | some a =>
    obtain ⟨body, hbody, -⟩ := h.reads a hclause
    exact hbody.startsBlank

/-! ## 2. The phases one by one -/

/-- A text that begins with `SELECT` and `DISTINCT`, and what follows
them. -/
def Distinct.Opens (text rest : Text) : Prop :=
  ∃ select gap distinct, text = select ++ gap ++ distinct ++ rest ∧
    select.map Char.toUpper = "SELECT".toList ∧ gap ≠ [] ∧ AllBlank gap ∧
    distinct.map Char.toUpper = "DISTINCT".toList ∧ rest.head?.any isBlank = true

/-- `DISTINCT` is taken out where it opens the text, ... -/
theorem Distinct.detach_of_opens {text rest : Text} (h : Opens text rest) :
    Distinct.detach text = ⟨true, "SELECT ".toList ++ trimStart rest⟩ := by
  obtain ⟨select, gap, distinct, rfl, hselect, hgap, hblank, hdistinct, hrest⟩ := h
  have hlength : select.length = 6 := by simpa using congrArg List.length hselect
  have hlength' : distinct.length = 8 := by simpa using congrArg List.length hdistinct
  have hletters := opening_distinct.lettered "DISTINCT".toList (by simp [opening_distinct.words_eq])
  have hbare : StartsBare (distinct ++ rest) := by
    cases distinct with
    | nil => cases hlength'
    | cons c distinct =>
      exact startsBare_cons (isBlank_of_isAlpha (Keyword.isAlpha_of_mem hletters.2 hdistinct c (by simp)))
  have hdrop : trimStart ((select ++ gap ++ distinct ++ rest).drop 6) = distinct ++ rest := by
    rw [List.append_assoc, List.append_assoc, List.drop_left' hlength,
      trimStart_append_of_allBlank hblank, trimStart_of_startsBare hbare]
  have hsees : (kwSelect.matchHere none (select ++ gap ++ distinct ++ rest)).isSome = true := by
    refine Option.isSome_of_eq_some (opening_select.matchHere_eq_some_iff.mpr
      ⟨select, gap ++ distinct ++ rest, by simp, hselect, rfl, ?_⟩)
    obtain ⟨b, gap, rfl⟩ := List.exists_cons_of_ne_nil hgap
    exact hblank b (by simp)
  have hsees' : (kwDistinct.matchHere none (distinct ++ rest)).isSome = true :=
    Option.isSome_of_eq_some (opening_distinct.matchHere_eq_some_iff.mpr
      ⟨distinct, rest, rfl, hdistinct, rfl, hrest⟩)
  rw [Distinct.detach_eq, hdrop, hsees, hsees', List.drop_left' hlength']
  rfl

/-- ... and nowhere else. -/
theorem Distinct.detach_of_not_opens {text : Text} (h : ¬ ∃ rest, Opens text rest) :
    Distinct.detach text = ⟨false, text⟩ := by
  rw [Distinct.detach_eq, if_neg]
  rw [Bool.and_eq_true]
  rintro ⟨hsees, hsees'⟩
  obtain ⟨length, hmatch⟩ := Option.isSome_iff_exists.mp hsees
  obtain ⟨length', hmatch'⟩ := Option.isSome_iff_exists.mp hsees'
  obtain ⟨select, tail, rfl, hselect, -, hblank⟩ := opening_select.matchHere_eq_some_iff.mp hmatch
  have hlength : select.length = 6 := by simpa using congrArg List.length hselect
  rw [List.drop_left' hlength] at hmatch'
  obtain ⟨distinct, rest, htail, hdistinct, -, hrest⟩ :=
    opening_distinct.matchHere_eq_some_iff.mp hmatch'
  obtain ⟨gap, hgap, hallBlank, hsplit⟩ := exists_eq_gap_append hblank
  refine h ⟨rest, select, gap, distinct, ?_, hselect, hgap, hallBlank, hdistinct, hrest⟩
  rw [htail] at hsplit
  rw [hsplit]
  simp

/-- The start of a query that `DISTINCT` is taken out of ends as before. -/
theorem Distinct.trimmed_detach {text : Text} (h : Trimmed text) :
    Trimmed (Distinct.detach text).rest := by
  by_cases hopens : ∃ rest, Opens text rest
  · obtain ⟨rest, hopens⟩ := hopens
    rw [detach_of_opens hopens]
    obtain ⟨select, gap, distinct, rfl, -, -, -, -, hblank⟩ := hopens
    have hends : EndsBare rest := h.ends.of_append
    obtain ⟨-, -, -, -, hne⟩ := exists_eq_gap_append_trim hblank hends
    have htrim : trim rest = trimStart rest := trimEnd_of_endsBare (endsBare_trimStart hends)
    rw [← htrim]
    exact ⟨startsBare_cons (by decide), (endsBare_trim rest).append hne⟩
  · rw [detach_of_not_opens hopens]
    exact h

/-- Cutting the limit out leaves bare ends. -/
theorem Limit.trimmed_detachFrom {text : Text} (h : Trimmed text) {hits : List Hit}
    {detached : Detached (Option UInt64)}
    (hrun : (Limit.detachFrom text hits).outcome = .ok detached) : Trimmed detached.rest := by
  induction hits with
  | nil =>
    obtain rfl := Except.ok.inj hrun
    exact h
  | cons hit hits ih =>
    rw [Limit.outcome_detachFrom_cons] at hrun
    split at hrun
    · exact ih hrun
    · split at hrun
      · obtain rfl := Except.ok.inj hrun
        exact h.cut _ _
      · cases hrun

theorem Keyword.find_single_splits {keyword : Keyword} (hk : keyword.Regular) {text : Text}
    {hit : Hit} (h : Keyword.find [keyword] text 0 = some hit) :
    hit.keyword = keyword ∧ ∃ before spelled after, hit.Splits text before spelled after := by
  obtain ⟨before, spelled, after, hsplits, -, -, hindex⟩ := Keyword.find_splits hk.single h
  exact ⟨List.mem_singleton.mp (List.mem_of_getElem? hindex), before, spelled, after, hsplits⟩

theorem Sorting.accounts {policy : Policy} {text : Text} (htext : Trimmed text)
    {detached : Detached (Option (List SortKey))}
    (h : (Sorting.detach policy text).outcome = .ok detached) :
    ∃ clause, detached.Accounts text clause fun keys clause =>
      ∃ list, ClauseText kwOrderBy list clause ∧
        (entries list).mapM (SortKey.parse policy) = .ok keys := by
  rw [Sorting.outcome_detach] at h
  cases hfind : Keyword.find [kwOrderBy] text 0 with
  | none =>
    rw [hfind] at h
    obtain rfl := Except.ok.inj h
    exact ⟨[], accounts_none htext _⟩
  | some hit =>
    obtain ⟨hkeyword, before, spelled, after, hsplits⟩ :=
      Keyword.find_single_splits regular_orderBy hfind
    simp only [hfind] at h
    cases hparse : Sorting.parse policy (trim (text.drop hit.stop)) with
    | error fault =>
      rw [hparse] at h
      cases h
    | ok keys =>
      rw [hparse] at h
      obtain rfl := Except.ok.inj h
      rw [← hkeyword]
      exact accounts_of_splits htext hsplits keys hparse

theorem Grouping.accounts {text : Text} (htext : Trimmed text)
    {detached : Detached (Option (List Text))}
    (h : (Grouping.detach text).outcome = .ok detached) :
    ∃ clause, detached.Accounts text clause fun groups clause =>
      ∃ list, ClauseText kwGroupBy list clause ∧ entries list = groups := by
  rw [Grouping.outcome_detach] at h
  cases hfind : Keyword.find [kwGroupBy] text 0 with
  | none =>
    rw [hfind] at h
    obtain rfl := Except.ok.inj h
    exact ⟨[], accounts_none htext _⟩
  | some hit =>
    obtain ⟨hkeyword, before, spelled, after, hsplits⟩ :=
      Keyword.find_single_splits regular_groupBy hfind
    simp only [hfind] at h
    split at h
    · cases h
    · obtain rfl := Except.ok.inj h
      rw [← hkeyword]
      exact accounts_of_splits htext hsplits _ rfl

/-- A `WHERE` at the end of a text with bare ends cannot be; so there are
criteria whenever there is the keyword. -/
theorem Criteria.accounts {text : Text} (htext : Trimmed text) :
    ∃ clause, (Criteria.detach text).value.Accounts text clause fun criteria clause =>
      ∃ body, ClauseText kwWhere body clause ∧ trim body = criteria := by
  rw [Criteria.value_detach]
  cases hfind : Keyword.find [kwWhere] text 0 with
  | none => exact ⟨[], accounts_none htext _⟩
  | some hit =>
    obtain ⟨hkeyword, before, spelled, after, hsplits⟩ :=
      Keyword.find_single_splits regular_where hfind
    have hends : EndsBare after :=
      EndsBare.of_append (s := before ++ spelled) (hsplits.text_eq ▸ htext.ends)
    obtain ⟨-, -, -, -, hne⟩ := exists_eq_gap_append_trim hsplits.blank_after hends
    rw [← hsplits.drop_stop] at hne
    simp only [List.isEmpty_iff, hne, if_false, htext.trim_take]
    rw [← hkeyword]
    exact accounts_of_splits htext hsplits _ (trim_trim _)

/-- A join as it stands in a query after `head`: blanks, the keyword of
its kind in some spelling, and text in which it is found from that
keyword on. -/
def JoinText (head : Text) (join : Join) (text : Text) : Prop :=
  ∃ gap spelled body stop, gap ≠ [] ∧ AllBlank gap ∧
    Keyword.Spells join.kind.keyword.words spelled ∧ body.head?.any isBlank = true ∧
    text = gap ++ spelled ++ body ∧
    Join.find (head ++ text) = some ⟨join, (head ++ gap).length, stop⟩

theorem Join.accounts {policy : Policy} {text : Text} (htext : Trimmed text)
    {detached : Detached (Option Join)}
    (h : (Join.detach policy text).outcome = .ok detached) :
    Join.ofText? text = detached.clause ∧
      ∃ clause, detached.Accounts text clause (JoinText detached.rest) := by
  rw [Join.outcome_detach] at h
  cases hfind : Join.find text with
  | none =>
    rw [hfind] at h
    obtain rfl := Except.ok.inj h
    exact ⟨by rw [Join.ofText?, hfind]; rfl, [], accounts_none htext _⟩
  | some span =>
    -- Whatever follows the join, if the run goes on it has taken the join.
    obtain rfl : detached = ⟨some span.join, trim (text.take span.start)⟩ := by
      simp only [hfind] at h
      split at h
      · cases h
      · exact (Except.ok.inj h).symm
    refine ⟨by rw [Join.ofText?, hfind]; rfl, ?_⟩
    obtain ⟨before, spelled, after, heq, hstart, -, hspells, hblank, hafter⟩ :=
      Join.find_splits hfind
    obtain ⟨gap, hgap, hallBlank, hbefore⟩ := exists_eq_append_gap hblank
    have hrest : trim (text.take span.start) = trimEnd before := by
      rw [htext.trim_take, hstart, heq, List.append_assoc, List.take_left]
    have hsplit : text = trimEnd before ++ (gap ++ spelled ++ after) := by
      rw [heq]
      conv_lhs => rw [hbefore]
      simp only [List.append_assoc]
    rw [hrest]
    refine ⟨gap ++ spelled ++ after, hsplit, ?_, by simp [hgap], ?_⟩
    · rw [← hrest]
      exact trimmed_trim _
    · intro join hjoin
      obtain rfl := Option.some.inj hjoin
      refine ⟨gap, spelled, after, span.stop, hgap, hallBlank, hspells, hafter, rfl, ?_⟩
      rw [← hbefore, ← hstart, ← hsplit]
      exact hfind

/-- The head of a query: `SELECT`, the fields, `FROM` and the table, with
blanks between them. -/
def HeadText (fields : List Text) (table : Text) (text : Text) : Prop :=
  ∃ select gap list gap' spelled gap'' name,
    select.map Char.toUpper = "SELECT".toList ∧ gap ≠ [] ∧ AllBlank gap ∧
    gap' ≠ [] ∧ AllBlank gap' ∧ spelled.map Char.toUpper = "FROM".toList ∧
    gap'' ≠ [] ∧ AllBlank gap'' ∧
    text = select ++ gap ++ list ++ gap' ++ spelled ++ gap'' ++ name ∧
    trim list ≠ [] ∧ fields = entries (trim list) ∧ trim name ≠ [] ∧ table = trim name

/-- What stands between `SELECT` and a `FROM` that leaves room for a
character begins and ends with blanks. -/
theorem Hit.Splits.exists_fields {hit : Hit} {text before spelled after select rest : Text}
    (h : hit.Splits text before spelled after) (heq : text = select ++ rest)
    (hrest : rest.head?.any isBlank = true) (hstart : select.length < before.length) :
    ∃ list, before = select ++ list ∧ list.head?.any isBlank = true ∧
      list.getLast?.any isBlank = true := by
  obtain ⟨list, hlist⟩ : select <+: before := by
    refine List.prefix_of_prefix_length_le ⟨rest, heq.symm⟩ ⟨spelled ++ after, ?_⟩ hstart.le
    rw [h.text_eq, List.append_assoc]
  subst hlist
  have hne : list ≠ [] := by
    rintro rfl
    simp at hstart
  refine ⟨list, rfl, ?_, ?_⟩
  · have hdrop : rest = list ++ (spelled ++ after) := by
      have := heq.symm.trans h.text_eq
      simpa using this
    rw [hdrop, List.head?_append_of_ne_nil _ hne] at hrest
    exact hrest
  · have hblank := h.blank_before
    rw [List.getLast?_append_of_ne_nil _ hne] at hblank
    exact hblank

theorem Projection.headText {text : Text} (htext : Trimmed text) {projection : Projection}
    (h : (Projection.parse text).outcome = .ok projection) :
    HeadText projection.fields projection.table text := by
  rw [Projection.outcome_parse, htext.trim_eq] at h
  split at h
  swap
  · cases h
  next hsees =>
  obtain ⟨length, hmatch⟩ := Option.isSome_iff_exists.mp hsees
  obtain ⟨select, rest, heq, hselect, -, hrest⟩ := opening_select.matchHere_eq_some_iff.mp hmatch
  have hlength : select.length = 6 := by
    have := congrArg List.length hselect
    simpa using this
  cases hfind : Keyword.find [kwFrom] text 7 with
  | none =>
    rw [hfind] at h
    cases h
  | some hit =>
    obtain ⟨before, spelled, after, hsplits, hstart, -, hindex⟩ :=
      Keyword.find_splits regular_from.single hfind
    obtain ⟨list, rfl, hhead, hlast⟩ := hsplits.exists_fields heq hrest (by omega)
    have hends : EndsBare after :=
      EndsBare.of_append (s := select ++ list ++ spelled) (hsplits.text_eq ▸ htext.ends)
    obtain ⟨gap'', hgap'', hblank'', hname, htable⟩ :=
      exists_eq_gap_append_trim hsplits.blank_after hends
    simp only [hfind, slice, hsplits.take_start, hsplits.drop_stop, List.drop_left' hlength,
      Bool.or_eq_true, List.isEmpty_iff, htable, or_false] at h
    split at h
    · cases h
    · next hfields =>
      obtain rfl := Except.ok.inj h
      obtain ⟨gap, gap', hgap, hblank, hgap', hblank', hlist⟩ :=
        exists_eq_gap_trim_gap hhead hlast hfields
      have hspells := hsplits.spells
      rw [List.mem_singleton.mp (List.mem_of_getElem? hindex)] at hspells
      refine ⟨select, gap, trim list, gap', spelled, gap'', trim after, hselect, hgap, hblank,
        hgap', hblank', ?_, hgap'', hblank'', ?_, ?_, ?_, ?_, ?_⟩
      · cases hspells with
        | single hs => exact hs
      · calc text = select ++ list ++ spelled ++ after := hsplits.text_eq
          _ = select ++ (gap ++ trim list ++ gap') ++ spelled ++ (gap'' ++ trim after) := by
            rw [← hlist, ← hname]
          _ = select ++ gap ++ trim list ++ gap' ++ spelled ++ gap'' ++ trim after := by
            simp only [List.append_assoc]
      · rw [trim_trim]
        exact hfields
      · rw [trim_trim]
      · rw [trim_trim]
        exact htable
      · rw [trim_trim]

/-- The conditions of a clause are never none. -/
theorem Criteria.ne_nil_of_parseFrom {text : Text} {start : Nat} {connective : Option Connective}
    {hits : List Hit} {conditions : List Condition}
    (h : (Criteria.parseFrom text start connective hits).outcome = .ok conditions) :
    conditions ≠ [] := by
  cases hits with
  | nil =>
    rw [Criteria.outcome_parseFrom_nil] at h
    cases hlast : (Condition.parse (text.drop start) connective).outcome with
    | error fault =>
      rw [hlast] at h
      cases h
    | ok last =>
      rw [hlast] at h
      obtain rfl := Except.ok.inj h
      exact List.cons_ne_nil last []
  | cons hit hits =>
    rw [Criteria.outcome_parseFrom_cons] at h
    obtain ⟨first, -, h⟩ := Except.bind_eq_ok_iff.mp h
    obtain ⟨others, -, h⟩ := Except.bind_eq_ok_iff.mp h
    obtain rfl := Except.ok.inj h
    exact List.cons_ne_nil first others

/-! ## 3. The query -/

/-- How an outline is read off the parts of a text: each optional clause
is there exactly if the outline has it, and is read from its own part. -/
structure Composition (policy : Policy) (outline : Outline)
    (text head join criteria groups sorting : Text) : Prop where
  text_eq : text = head ++ join ++ criteria ++ groups ++ sorting
  sorting_nil : sorting = [] ↔ outline.sortKeys = none
  sorting_keys : ∀ keys, outline.sortKeys = some keys →
    ∃ list, ClauseText kwOrderBy list sorting ∧
      (entries list).mapM (SortKey.parse policy) = .ok keys
  groups_nil : groups = [] ↔ outline.groups = none
  groups_entries : ∀ fields, outline.groups = some fields →
    ∃ list, ClauseText kwGroupBy list groups ∧ entries list = fields
  criteria_nil : criteria = [] ↔ outline.conditions = []
  criteria_conditions : outline.conditions ≠ [] →
    ∃ body, ClauseText kwWhere body criteria ∧
      (Criteria.parse (trim body)).outcome = .ok outline.conditions
  join_nil : join = [] ↔ outline.join = none
  join_text : ∀ found, outline.join = some found → JoinText head found join
  join_found : Join.ofText? (head ++ join) = outline.join
  head_text : HeadText outline.fields outline.table head

/-- Conditions are read off the criteria, and there are some exactly if
there are criteria. -/
theorem Criteria.conditions_of_accounts {text clause : Text} {detached : Detached (Option Text)}
    (h : detached.Accounts text clause fun criteria clause =>
      ∃ body, ClauseText kwWhere body clause ∧ trim body = criteria)
    {conditions : List Condition}
    (hparse : detached.clause.elim (.ok []) (fun text => (Criteria.parse text).outcome) =
      .ok conditions) :
    (clause = [] ↔ conditions = []) ∧ (conditions ≠ [] →
      ∃ body, ClauseText kwWhere body clause ∧
        (Criteria.parse (trim body)).outcome = .ok conditions) := by
  cases hclause : detached.clause with
  | none =>
    rw [hclause] at hparse
    obtain rfl := Except.ok.inj hparse
    exact ⟨by simp [h.clause_nil, hclause], fun hne => absurd rfl hne⟩
  | some criteria =>
    rw [hclause] at hparse
    have hne := Criteria.ne_nil_of_parseFrom hparse
    obtain ⟨body, hbody, rfl⟩ := h.reads criteria hclause
    exact ⟨by simp [h.clause_nil, hclause, hne], fun _ => ⟨body, hbody, hparse⟩⟩

/-- The stages of a query take its parts off it one by one, from the end of
what the limit phase leaves. -/
theorem Outline.Stages.exists_parts {policy : Policy} {text : Text}
    (stages : Stages policy text) :
    ∃ join criteria groups sorting,
      Composition policy stages.outline stages.limit.rest stages.join.rest join criteria groups
          sorting ∧
        StartsBlank (criteria ++ (groups ++ sorting)) ∧
        stages.sorting.rest = stages.join.rest ++ join ++ criteria ++ groups ∧
        stages.grouping.rest = stages.join.rest ++ join ++ criteria ∧
        (Criteria.detach stages.grouping.rest).value.rest = stages.join.rest ++ join := by
  have htrimmed : Trimmed stages.limit.rest :=
    Limit.trimmed_detachFrom (Distinct.trimmed_detach (trimmed_trim text)) stages.limit_eq
  -- Each phase takes its part off what the one before it left.
  obtain ⟨sorting, hsort⟩ := Sorting.accounts htrimmed stages.sorting_eq
  obtain ⟨groups, hgroup⟩ := Grouping.accounts hsort.trimmed stages.grouping_eq
  obtain ⟨criteria, hwhere⟩ := Criteria.accounts hgroup.trimmed
  obtain ⟨hfound, join, htable⟩ := Join.accounts hwhere.trimmed stages.join_eq
  obtain ⟨hcriteria, hparse⟩ := Criteria.conditions_of_accounts hwhere stages.conditions_eq
  have hgrouped : stages.grouping.rest = stages.join.rest ++ join ++ criteria := by
    rw [← htable.text_eq, ← hwhere.text_eq]
  have hsorted : stages.sorting.rest = stages.join.rest ++ join ++ criteria ++ groups := by
    rw [← hgrouped, ← hgroup.text_eq]
  refine ⟨join, criteria, groups, sorting, ?_,
    hwhere.startsBlank.append (hgroup.startsBlank.append hsort.startsBlank), hsorted, hgrouped,
    htable.text_eq⟩
  exact {
    text_eq := by
      rw [← hsorted]
      exact hsort.text_eq
    sorting_nil := hsort.clause_nil
    sorting_keys := hsort.reads
    groups_nil := hgroup.clause_nil
    groups_entries := hgroup.reads
    criteria_nil := hcriteria
    criteria_conditions := hparse
    join_nil := htable.clause_nil
    join_text := htable.reads
    join_found := by
      rw [← htable.text_eq]
      exact hfound
    head_text := Projection.headText htable.trimmed stages.projection_eq }

/-- Behind the limit phase a query is the fragment that its join is read
from, with the clauses behind it, and the fragment begins with the head of
the query. -/
theorem Outline.Stages.exists_fragment {policy : Policy} {text : Text}
    (stages : Stages policy text) :
    ∃ fragment join tail, stages.limit.rest = fragment ++ tail ∧ StartsBlank tail ∧
      Join.ofText? fragment = stages.join.clause ∧ fragment = stages.join.rest ++ join ∧
      HeadText stages.projection.fields stages.projection.table stages.join.rest := by
  obtain ⟨join, criteria, groups, sorting, hparts, hblank, -⟩ := stages.exists_parts
  refine ⟨stages.join.rest ++ join, join, criteria ++ (groups ++ sorting), ?_, hblank,
    hparts.join_found, rfl, hparts.head_text⟩
  simpa only [List.append_assoc] using hparts.text_eq

/-- **Nothing is lost.** A query that is read consists, without its
`DISTINCT` and its limit, of the parts that its outline is read off, and
the phases take these parts off it one by one, from its end. -/
theorem Outline.exists_composition {policy : Policy} {text : Text} {outline : Outline}
    (h : (Outline.parse policy text).outcome = .ok outline) :
    (Distinct.detach (trim text)).clause = outline.distinct ∧
      ∃ rest head join criteria groups sorting,
        (Limit.detach (Distinct.detach (trim text)).rest).outcome = .ok ⟨outline.limit, rest⟩ ∧
          Composition policy outline rest head join criteria groups sorting ∧
          (Outline.parse policy text).completed =
            [(.distinct, (Distinct.detach (trim text)).rest), (.limit, rest),
              (.sorting, head ++ join ++ criteria ++ groups), (.grouping, head ++ join ++ criteria),
              (.criteria, head ++ join), (.join, head), (.projection, []), (.conditions, []),
              (.aggregates, [])] := by
  obtain ⟨stages, rfl⟩ := Outline.outcome_parse_eq_ok_iff.mp h
  obtain ⟨join, criteria, groups, sorting, hparts, -, hsorted, hgrouped, hjoined⟩ :=
    stages.exists_parts
  refine ⟨rfl, stages.limit.rest, stages.join.rest, join, criteria, groups, sorting,
    stages.limit_eq, hparts, ?_⟩
  rw [stages.completed_parse, hjoined, hgrouped, hsorted]

/-- The parts are known by what stands in front of each of them. -/
theorem Composition.of_fronts {policy : Policy} {outline : Outline}
    {text head join criteria groups sorting head' join' criteria' groups' sorting' : Text}
    (h : Composition policy outline text head join criteria groups sorting)
    (hhead : head = head') (hjoin : head ++ join = head' ++ join')
    (hcriteria : head ++ join ++ criteria = head' ++ join' ++ criteria')
    (hgroups : head ++ join ++ criteria ++ groups = head' ++ join' ++ criteria' ++ groups')
    (htext : text = head' ++ join' ++ criteria' ++ groups' ++ sorting') :
    Composition policy outline text head' join' criteria' groups' sorting' := by
  subst hhead
  obtain rfl := List.append_cancel_left hjoin
  obtain rfl := List.append_cancel_left hcriteria
  obtain rfl := List.append_cancel_left hgroups
  obtain rfl := List.append_cancel_left (h.text_eq.symm.trans htext)
  exact h

/-- A query with every clause, and with keywords and commas in its
literals, ... -/
def Outline.everyClauseText : Text :=
  "Select  DISTINCT max(a, 'x, y'), b FROM t left\tjoin u ON t.k = u.k ".toList ++
    "WHERE a = ' ORDER BY ' OR b LIKE '%' GROUP BY b,a ORDER BY a desc LIMIT 5 ".toList

/-- ... what it is read as, ... -/
def Outline.everyClause : Outline where
  fields := ["max(a, 'x, y')".toList, "b".toList]
  table := "t".toList
  conditions := [⟨"a".toList, .equal, "' ORDER BY '".toList, none⟩,
    ⟨"b".toList, .like, "%".toList, some .or⟩]
  join := some ⟨.left, "u".toList, "t.k".toList, "u.k".toList⟩
  groups := some ["b".toList, "a".toList]
  ungroupedAggregate := false
  sortKeys := some [⟨"a".toList, .descending⟩]
  limit := some 5
  distinct := true

/-- ... and its parts. -/
theorem Outline.exists_composition_every_clause :
    (Outline.parse .strict everyClauseText).outcome = .ok everyClause ∧
      Composition .strict everyClause
        ("SELECT max(a, 'x, y'), b FROM t left\tjoin u ON t.k = u.k ".toList ++
          "WHERE a = ' ORDER BY ' OR b LIKE '%' GROUP BY b,a ORDER BY a desc".toList)
        "SELECT max(a, 'x, y'), b FROM t".toList
        " left\tjoin u ON t.k = u.k".toList
        " WHERE a = ' ORDER BY ' OR b LIKE '%'".toList
        " GROUP BY b,a".toList
        " ORDER BY a desc".toList := by
  have hrun : (Outline.parse .strict everyClauseText).outcome = .ok everyClause ∧
      (Outline.parse .strict everyClauseText).completed.map Prod.snd =
        ["SELECT max(a, 'x, y'), b FROM t left\tjoin u ON t.k = u.k ".toList ++
            "WHERE a = ' ORDER BY ' OR b LIKE '%' GROUP BY b,a ORDER BY a desc LIMIT 5".toList,
          "SELECT max(a, 'x, y'), b FROM t left\tjoin u ON t.k = u.k ".toList ++
            "WHERE a = ' ORDER BY ' OR b LIKE '%' GROUP BY b,a ORDER BY a desc".toList,
          "SELECT max(a, 'x, y'), b FROM t".toList ++ " left\tjoin u ON t.k = u.k".toList ++
            " WHERE a = ' ORDER BY ' OR b LIKE '%'".toList ++ " GROUP BY b,a".toList,
          "SELECT max(a, 'x, y'), b FROM t".toList ++ " left\tjoin u ON t.k = u.k".toList ++
            " WHERE a = ' ORDER BY ' OR b LIKE '%'".toList,
          "SELECT max(a, 'x, y'), b FROM t".toList ++ " left\tjoin u ON t.k = u.k".toList,
          "SELECT max(a, 'x, y'), b FROM t".toList, [], [], []] := by
    decide +kernel
  obtain ⟨hparse, hremainders⟩ := hrun
  obtain ⟨-, rest, head, join, criteria, groups, sorting, -, hcomposition, hcompleted⟩ :=
    Outline.exists_composition hparse
  -- The texts that the phases leave are known, and with them the parts between.
  rw [hcompleted] at hremainders
  simp only [List.map_cons, List.map_nil, List.cons.injEq] at hremainders
  obtain ⟨-, hrest, hgroups, hcriteria, hjoin, hhead, -⟩ := hremainders
  rw [hrest] at hcomposition
  exact ⟨hparse, hcomposition.of_fronts hhead hjoin hcriteria hgroups (by decide +kernel)⟩

end SelectOutline
