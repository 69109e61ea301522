/-
SelectOutline.Proofs.WellFormed — what every outline satisfies.

Whatever the text and the policy, the parts of an outline that is read
are trimmed, and those that have to say something are not empty. Each
phase answers for the part that it reads: some of them refuse an empty
part, others cannot come across one, as a keyword has a blank behind it
and the text ends with no blank.
-/
import SelectOutline.Proofs.Decomposition
import SelectOutline.Proofs.Entries
import SelectOutline.Proofs.Uppercase
import SelectOutline.Proofs.Words

namespace SelectOutline

open Text

/-! ## 1. Sort keys -/

/-- A direction that is kept under the policy: another word than the two
usual ones is kept in upper case, and only where any word may stand. -/
def Direction.WellFormed (policy : Policy) : Direction → Prop
  | ascending => True
  | descending => True
  | other word =>
    policy.directions ≠ .strict ∧ word ≠ [] ∧ word ≠ "ASC".toList ∧ word ≠ "DESC".toList ∧
      upper word = word

/-- A sort key that names its field by one word. -/
structure SortKey.WellFormed (policy : Policy) (key : SortKey) : Prop where
  field_ne_nil : key.field ≠ []
  field_unblank : ∀ c ∈ key.field, isBlank c = false
  direction : key.direction.WellFormed policy

theorem Direction.wellFormed_ofText {policy : Policy} {word : Text} (hne : word ≠ [])
    (h : ∀ other, ofText word = .other other → policy.directions ≠ .strict) :
    (ofText word).WellFormed policy := by
  simp only [ofText] at h ⊢
  split
  · trivial
  · next hasc =>
    split
    · trivial
    · next hdesc =>
      refine ⟨h (upper word) ?_, upper_ne_nil hne, hasc, hdesc, upper_upper word⟩
      rw [if_neg hasc, if_neg hdesc]

theorem SortKey.wellFormed_of_parse {policy : Policy} {entry : Text} {key : SortKey}
    (h : parse policy entry = .ok key) : key.WellFormed policy := by
  have hsolid := words_unblank entry
  rw [parse] at h
  cases hwords : words entry with
  | nil =>
    rw [hwords] at h
    cases h
  | cons field others =>
    rw [hwords] at h hsolid
    obtain ⟨⟨hne, hunblank⟩, hothers⟩ := List.forall_mem_cons.mp hsolid
    cases others with
    | nil =>
      obtain rfl := Except.ok.inj h
      exact ⟨hne, hunblank, trivial⟩
    | cons word others =>
      simp only at h
      split at h
      · cases h
      · next hkept =>
        obtain rfl := Except.ok.inj h
        refine ⟨hne, hunblank, Direction.wellFormed_ofText (hothers word (by simp)).1 ?_⟩
        intro other hother hstrict
        exact hkept other hother hstrict

theorem SortKey.wellFormed_of_mapM {policy : Policy} {list : List Text} {keys : List SortKey}
    (h : list.mapM (SortKey.parse policy) = .ok keys) :
    keys.length = list.length ∧ ∀ key ∈ keys, key.WellFormed policy := by
  induction list generalizing keys with
  | nil =>
    obtain rfl := Except.ok.inj h
    exact ⟨rfl, List.forall_mem_nil _⟩
  | cons entry list ih =>
    rw [List.mapM_cons] at h
    obtain ⟨first, hfirst, h⟩ := Except.bind_eq_ok_iff.mp h
    obtain ⟨others, hothers, h⟩ := Except.bind_eq_ok_iff.mp h
    obtain rfl := Except.ok.inj h
    obtain ⟨hlength, hall⟩ := ih hothers
    exact ⟨by simp [hlength], List.forall_mem_cons.mpr ⟨wellFormed_of_parse hfirst, hall⟩⟩

theorem Sorting.wellFormed_of_detach {policy : Policy} {text : Text}
    {detached : Detached (Option (List SortKey))}
    (h : (Sorting.detach policy text).outcome = .ok detached) :
    ∀ keys ∈ detached.clause, keys ≠ [] ∧ ∀ key ∈ keys, key.WellFormed policy := by
  rw [Sorting.outcome_detach] at h
  cases hfind : Keyword.find [kwOrderBy] text 0 with
  | none =>
    rw [hfind] at h
    obtain rfl := Except.ok.inj h
    intro keys hkeys
    cases hkeys
  | some hit =>
    simp only [hfind] at h
    cases hparse : Sorting.parse policy (trim (text.drop hit.stop)) with
    | error fault =>
      rw [hparse] at h
      cases h
    | ok read =>
      rw [hparse] at h
      obtain rfl := Except.ok.inj h
      intro keys hkeys
      obtain rfl := Option.some.inj hkeys
      obtain ⟨hlength, hall⟩ := SortKey.wellFormed_of_mapM hparse
      refine ⟨?_, hall⟩
      rintro rfl
      exact entries_ne_nil _ (List.length_eq_zero_iff.mp hlength.symm)

/-! ## 2. Groups -/

theorem Grouping.wellFormed_of_detach {text : Text} {detached : Detached (Option (List Text))}
    (h : (Grouping.detach text).outcome = .ok detached) :
    ∀ groups ∈ detached.clause,
      groups ≠ [] ∧ ∀ group ∈ groups, group ≠ [] ∧ Trimmed group := by
  rw [Grouping.outcome_detach] at h
  cases hfind : Keyword.find [kwGroupBy] text 0 with
  | none =>
    rw [hfind] at h
    obtain rfl := Except.ok.inj h
    intro groups hgroups
    cases hgroups
  | some hit =>
    simp only [hfind] at h
    split at h
    · cases h
    · next hfull =>
      obtain rfl := Except.ok.inj h
      intro groups hgroups
      obtain rfl := Option.some.inj hgroups
      refine ⟨entries_ne_nil _, fun group hmem => ⟨?_, trimmed_of_mem_entries hmem⟩⟩
      rintro rfl
      exact hfull (List.any_eq_true.mpr ⟨[], hmem, rfl⟩)

/-! ## 3. Joins -/

/-- A join of a table by two identifiers. -/
structure Join.WellFormed (join : Join) : Prop where
  table_ne_nil : join.table ≠ []
  table_trimmed : Trimmed join.table
  left : IsIdentifier join.keys.left
  right : IsIdentifier join.keys.right

theorem Join.wellFormed_of_detach {policy : Policy} {text : Text}
    {detached : Detached (Option Join)}
    (h : (Join.detach policy text).outcome = .ok detached) :
    ∀ join ∈ detached.clause, join.WellFormed := by
  rw [Join.outcome_detach] at h
  cases hfind : Join.find text with
  | none =>
    rw [hfind] at h
    obtain rfl := Except.ok.inj h
    intro join hjoin
    cases hjoin
  | some span =>
    simp only [hfind] at h
    split at h
    · cases h
    · obtain rfl := Except.ok.inj h
      intro join hjoin
      obtain rfl := Option.some.inj hjoin
      obtain ⟨before, spelled, body, on, pair, after, hspan⟩ := Join.find_parts hfind
      exact ⟨hspan.table_ne_nil, hspan.table_eq ▸ trimmed_trim body, hspan.left, hspan.right⟩

/-! ## 4. The head of the query -/

theorem Projection.wellFormed_of_parse {text : Text} {projection : Projection}
    (h : (Projection.parse text).outcome = .ok projection) :
    (projection.fields ≠ [] ∧ ∀ field ∈ projection.fields, Trimmed field) ∧
      projection.table ≠ [] ∧ Trimmed projection.table := by
  rw [Projection.outcome_parse] at h
  split at h
  swap
  · cases h
  split at h
  · cases h
  · split at h
    · cases h
    · next hfull =>
      obtain rfl := Except.ok.inj h
      simp only [Bool.or_eq_true, List.isEmpty_iff, not_or] at hfull
      exact ⟨⟨entries_ne_nil _, fun field hmem => trimmed_of_mem_entries hmem⟩, hfull.2,
        trimmed_trim _⟩

/-! ## 5. Conditions -/

/-- A condition of a field, with a value unless it is a pattern. -/
structure Condition.WellFormed (condition : Condition) : Prop where
  field_ne_nil : condition.field ≠ []
  field_trimmed : Trimmed condition.field
  value : condition.comparison ≠ .like → condition.value ≠ [] ∧ Trimmed condition.value

theorem Condition.wellFormed_of_parse {text : Text} {connective : Option Connective}
    {condition : Condition} (h : (Condition.parse text connective).outcome = .ok condition) :
    condition.WellFormed ∧ condition.connective = connective := by
  rw [Condition.outcome_parse] at h
  split at h
  · split at h
    · cases h
    · next hfull =>
      obtain rfl := Except.ok.inj h
      simp only [Bool.or_eq_true, List.isEmpty_iff, not_or] at hfull
      exact ⟨⟨hfull.1, trimmed_trim _, fun hlike => absurd rfl hlike⟩, rfl⟩
  · split at h
    · split at h
      · cases h
      · next hfull =>
        obtain rfl := Except.ok.inj h
        simp only [Bool.or_eq_true, List.isEmpty_iff, not_or] at hfull
        exact ⟨⟨hfull.1, trimmed_trim _, fun _ => ⟨hfull.2, trimmed_trim _⟩⟩, rfl⟩
    · cases h

/-- The conditions of a clause: the first carries the connective that
stood before the clause, and each later one its own. -/
theorem Criteria.wellFormed_of_parseFrom {text : Text} {start : Nat}
    {connective : Option Connective} {hits : List Hit} {conditions : List Condition}
    (h : (Criteria.parseFrom text start connective hits).outcome = .ok conditions) :
    (∀ condition ∈ conditions, condition.WellFormed) ∧
      (∀ first ∈ conditions.head?, first.connective = connective) ∧
      ∀ later ∈ conditions.tail, later.connective ≠ none := by
  induction hits generalizing start connective conditions with
  | nil =>
    rw [Criteria.outcome_parseFrom_nil] at h
    cases hlast : (Condition.parse (text.drop start) connective).outcome with
    | error fault =>
      rw [hlast] at h
      cases h
    | ok last =>
      rw [hlast] at h
      obtain rfl := Except.ok.inj h
      obtain ⟨hwf, hconnective⟩ := Condition.wellFormed_of_parse hlast
      simp [hwf, hconnective]
  | cons hit hits ih =>
    rw [Criteria.outcome_parseFrom_cons] at h
    obtain ⟨first, hfirst, h⟩ := Except.bind_eq_ok_iff.mp h
    obtain ⟨others, hothers, h⟩ := Except.bind_eq_ok_iff.mp h
    obtain rfl := Except.ok.inj h
    obtain ⟨hwf, hconnective⟩ := Condition.wellFormed_of_parse hfirst
    obtain ⟨hall, hhead, htail⟩ := ih hothers
    refine ⟨List.forall_mem_cons.mpr ⟨hwf, hall⟩, by simp [hconnective], ?_⟩
    -- The next condition carries the connective of this hit.
    cases others with
    | nil => exact List.forall_mem_nil _
    | cons second others =>
      refine List.forall_mem_cons.mpr ⟨?_, htail⟩
      rw [hhead second rfl]
      exact Option.some_ne_none _

/-! ## 6. The query -/

/-- What holds of an outline however it was read. -/
structure Outline.WellFormed (policy : Policy) (outline : Outline) : Prop where
  fields_ne_nil : outline.fields ≠ []
  fields_trimmed : ∀ field ∈ outline.fields, Trimmed field
  table_ne_nil : outline.table ≠ []
  table_trimmed : Trimmed outline.table
  conditions : ∀ condition ∈ outline.conditions, condition.WellFormed
  first_connective : ∀ first ∈ outline.conditions.head?, first.connective = none
  later_connective : ∀ later ∈ outline.conditions.tail, later.connective ≠ none
  groups : ∀ groups ∈ outline.groups,
    groups ≠ [] ∧ ∀ group ∈ groups, group ≠ [] ∧ Trimmed group
  sortKeys : ∀ keys ∈ outline.sortKeys, keys ≠ [] ∧ ∀ key ∈ keys, key.WellFormed policy
  join : ∀ join ∈ outline.join, join.WellFormed
  ungrouped : outline.ungroupedAggregate = true → outline.groups = none

/-- **Outlines are well-formed.** -/
theorem Outline.parse_wellFormed {policy : Policy} {text : Text} {outline : Outline}
    (h : (Outline.parse policy text).outcome = .ok outline) : outline.WellFormed policy := by
  obtain ⟨stages, rfl⟩ := Outline.outcome_parse_eq_ok_iff.mp h
  obtain ⟨⟨hfields, htrimmed⟩, htable, htableTrimmed⟩ :=
    Projection.wellFormed_of_parse stages.projection_eq
  obtain ⟨hall, hfirst, hlater⟩ : (∀ condition ∈ stages.conditions, condition.WellFormed) ∧
      (∀ first ∈ stages.conditions.head?, first.connective = none) ∧
      ∀ later ∈ stages.conditions.tail, later.connective ≠ none := by
    have hconditions := stages.conditions_eq
    generalize (Criteria.detach stages.grouping.rest).value.clause = clause at hconditions
    cases clause with
    | none => simp [← Except.ok.inj hconditions]
    | some criteria => exact Criteria.wellFormed_of_parseFrom hconditions
  exact {
    fields_ne_nil := hfields
    fields_trimmed := htrimmed
    table_ne_nil := htable
    table_trimmed := htableTrimmed
    conditions := hall
    first_connective := hfirst
    later_connective := hlater
    groups := Grouping.wellFormed_of_detach stages.grouping_eq
    sortKeys := Sorting.wellFormed_of_detach stages.sorting_eq
    join := Join.wellFormed_of_detach stages.join_eq
    ungrouped := by
      intro hcall
      rw [Outline.Stages.outline, Aggregate.withoutGroups, Bool.and_eq_true] at hcall
      exact Option.isNone_iff_eq_none.mp hcall.1 }

/-- A query with every clause. Its field list has an empty entry, which
stays, and its pattern is empty. -/
theorem Outline.parse_wellFormed_every_clause :
    ∃ outline,
      (Outline.parse {} ("SELECT a,,b FROM t LEFT JOIN u  v ON t.k = u.k WHERE a = ' ' OR " ++
        "b LIKE '' GROUP BY b , a ORDER BY a up, b desc now").toList).outcome = .ok outline ∧
      outline.WellFormed {} ∧
      outline.fields = ["a".toList, [], "b".toList] ∧
      outline.sortKeys =
        some [⟨"a".toList, .other "UP".toList⟩, ⟨"b".toList, .descending⟩] := by
  have hparse : (Outline.parse {} ("SELECT a,,b FROM t LEFT JOIN u  v ON t.k = u.k " ++
      "WHERE a = ' ' OR b LIKE '' GROUP BY b , a ORDER BY a up, b desc now").toList).outcome = .ok
        { fields := ["a".toList, [], "b".toList]
          table := "t".toList
          conditions := [⟨"a".toList, .equal, "' '".toList, none⟩,
            ⟨"b".toList, .like, [], some .or⟩]
          join := some ⟨.left, "u  v".toList, "t.k".toList, "u.k".toList⟩
          groups := some ["b".toList, "a".toList]
          ungroupedAggregate := false
          sortKeys := some [⟨"a".toList, .other "UP".toList⟩, ⟨"b".toList, .descending⟩]
          limit := none
          distinct := false } := by
    decide +kernel
  exact ⟨_, hparse, Outline.parse_wellFormed hparse, rfl, rfl⟩

end SelectOutline
