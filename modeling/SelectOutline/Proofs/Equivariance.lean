/-
SelectOutline.Proofs.Equivariance — reading a query in standard form.

A query and its standard form are read side by side, phase by phase.
Each phase is refused for both with the same fault, or for neither, and
what it gives and leaves for the one is the standard form of what it
gives and leaves for the other. So neither the case of letters nor the
choice of blanks decides anything about a query, wherever they stand.

The direction of a sort key is in upper case already, for all scripts,
and is the same in both.
-/
import SelectOutline.Proofs.Standard
import SelectOutline.Proofs.Stages
import SelectOutline.Proofs.Words

namespace SelectOutline

open Text

/-! ## 1. Results in standard form -/

/-- A clause and the rest of the text in standard form. -/
def Detached.standard {α : Type} (f : α → α) (detached : Detached α) : Detached α where
  clause := f detached.clause
  rest := Text.standard detached.rest

/-- The field of a sort key in standard form. -/
def SortKey.standard (key : SortKey) : SortKey :=
  { key with field := Text.standard key.field }

/-- The names and the value of a condition in standard form. -/
def Condition.standard (condition : Condition) : Condition :=
  { condition with
    field := Text.standard condition.field
    value := Text.standard condition.value }

/-- The names of the head of a query in standard form. -/
def Projection.standard (projection : Projection) : Projection where
  fields := projection.fields.map Text.standard
  table := Text.standard projection.table

/-- The outline with all its names and values in standard form. -/
def Outline.standard (outline : Outline) : Outline :=
  { outline with
    fields := outline.fields.map Text.standard
    table := Text.standard outline.table
    conditions := outline.conditions.map Condition.standard
    join := outline.join.map Join.standard
    groups := outline.groups.map (List.map Text.standard)
    sortKeys := outline.sortKeys.map (List.map SortKey.standard) }

/-- The same fault with the text it was found in in standard form. -/
def Fault.standard : Fault → Fault
  | malformedSelect text => malformedSelect (Text.standard text)
  | malformedCondition text => malformedCondition (Text.standard text)
  | furtherJoin text => furtherJoin (Text.standard text)
  | missingSortField entry => missingSortField (Text.standard entry)
  | unknownDirection direction entry => unknownDirection direction (Text.standard entry)
  | emptyGroup list => emptyGroup (Text.standard list)
  | limitTooLarge digits => limitTooLarge (Text.standard digits)

/-- The outcome in standard form, where `f` is that of a result. -/
def standardOutcome {α : Type} (f : α → α) : Except Fault α → Except Fault α
  | .ok a => .ok (f a)
  | .error fault => .error fault.standard

theorem standardOutcome_bind {α β : Type} {f : α → α} {g : β → β} {x x' : Except Fault α}
    (hx : x' = standardOutcome f x) {next next' : α → Except Fault β}
    (hnext : ∀ a, next' (f a) = standardOutcome g (next a)) :
    x' >>= next' = standardOutcome g (x >>= next) := by
  subst hx
  cases x with
  | ok a => exact hnext a
  | error fault => rfl

theorem standardOutcome_map {α β : Type} {f : α → α} {g : β → β} {x x' : Except Fault α}
    (hx : x' = standardOutcome f x) {next next' : α → β} (hnext : ∀ a, next' (f a) = g (next a)) :
    x'.map next' = standardOutcome g (x.map next) := by
  subst hx
  cases x with
  | ok a => exact congrArg Except.ok (hnext a)
  | error fault => rfl

/-! ## 2. The start of a query and the limit -/

theorem Distinct.detach_standard (text : Text) :
    Distinct.detach (Text.standard text) = (Distinct.detach text).standard id := by
  have hselect : kwSelect.matchHere none (Text.standard text) = kwSelect.matchHere none text :=
    Keyword.matchHere_standard opening_select.lettered none text
  have hdistinct : ∀ t : Text, kwDistinct.matchHere none (Text.standard t) =
      kwDistinct.matchHere none t :=
    Keyword.matchHere_standard opening_distinct.lettered none
  have hspelling : "SELECT ".toList = Text.standard "SELECT ".toList := by decide
  rw [Distinct.detach_eq, Distinct.detach_eq]
  simp only [hselect, hdistinct, standard_drop, trimStart_standard]
  split
  · rw [hspelling, ← standard_append]
    rfl
  · rfl

theorem Text.standard_digits {digits : Text} (h : ∀ c ∈ digits, isDigit c = true) :
    Text.standard digits = digits := by
  have hdigit : ∀ c ∈ digits, standardChar c = id c := by
    intro c hc
    obtain ⟨n, hn, rfl⟩ := exists_ofNat_of_inRanges (h c hc)
    clear hc
    revert n
    decide
  rw [Text.standard, List.map_congr_left hdigit, List.map_id]

theorem Limit.outcome_detachFrom_standard (text : Text) (hits : List Hit) :
    (Limit.detachFrom (Text.standard text) hits).outcome =
      standardOutcome (Detached.standard id) (Limit.detachFrom text hits).outcome := by
  induction hits with
  | nil => rfl
  | cons hit hits ih =>
    have hread : (Cursor.mk (Text.standard text) hit.stop).skipBlanks.readDigits =
        (Cursor.mk text hit.stop).skipBlanks.readDigits.map
          (Prod.map Text.standard Cursor.standard) := by
      rw [Cursor.readDigits, Cursor.readDigits, ← Cursor.readRun_standard isDigit_standardChar,
        ← Cursor.skipBlanks_standard]
      rfl
    rw [Limit.outcome_detachFrom_cons, Limit.outcome_detachFrom_cons, hread]
    cases hdigits : (Cursor.mk text hit.stop).skipBlanks.readDigits with
    | none => exact ih
    | some read =>
      obtain ⟨digits, after⟩ := read
      obtain ⟨-, hclass, -⟩ := Cursor.passes_of_readRun hdigits
      simp only [Option.map_some, Prod.map, standard_digits hclass, Cursor.standard, cut_standard]
      split
      · rfl
      · rw [standardOutcome, Fault.standard, standard_digits hclass]

theorem Limit.outcome_detach_standard (text : Text) :
    (Limit.detach (Text.standard text)).outcome =
      standardOutcome (Detached.standard id) (Limit.detach text).outcome := by
  rw [Limit.detach, Keyword.findAll_standard regular_limit.single,
    Limit.outcome_detachFrom_standard, Limit.detach]

/-! ## 3. Sort keys and groups -/

theorem Text.upper_standard {word : Text} (h : ∀ c ∈ word, isBlank c = false) :
    upper (Text.standard word) = upper word := by
  have hletter : ∀ n ∈ codes smallLetters,
      upperChar (standardChar (Char.ofNat n)) = upperChar (Char.ofNat n) := by
    decide +kernel
  rw [upper, Text.standard, List.flatMap_map, upper]
  exact List.flatMap_congr fun c hc => standardChar_bare hletter (h c hc)

theorem Direction.ofText_standard {word : Text} (h : ∀ c ∈ word, isBlank c = false) :
    ofText (Text.standard word) = ofText word := by
  rw [ofText, upper_standard h, ofText]

theorem SortKey.parse_standard (policy : Policy) (entry : Text) :
    SortKey.parse policy (Text.standard entry) =
      standardOutcome SortKey.standard (SortKey.parse policy entry) := by
  have hunblank := words_unblank entry
  rw [parse, parse, words_standard]
  match hwords : words entry with
  | [] => rfl
  | [field] => rfl
  | field :: word :: others =>
    rw [hwords] at hunblank
    simp only [List.map_cons, Direction.ofText_standard (hunblank word (by simp)).2]
    cases Direction.ofText word with
    | ascending => rfl
    | descending => rfl
    | other direction =>
      cases policy.directions with
      | lenient => rfl
      | strict => rfl

theorem mapM_standard {α : Type} {g : α → α} {parse : Text → Except Fault α}
    (h : ∀ entry, parse (Text.standard entry) = standardOutcome g (parse entry))
    (list : List Text) :
    (list.map Text.standard).mapM parse = standardOutcome (List.map g) (list.mapM parse) := by
  induction list with
  | nil => rfl
  | cons entry list ih =>
    rw [List.map_cons, List.mapM_cons, List.mapM_cons]
    exact standardOutcome_bind (h entry) fun first =>
      standardOutcome_bind ih fun others => rfl

theorem Sorting.outcome_detach_standard (policy : Policy) (text : Text) :
    (Sorting.detach policy (Text.standard text)).outcome =
      standardOutcome (Detached.standard (Option.map (List.map SortKey.standard)))
        (Sorting.detach policy text).outcome := by
  rw [Sorting.outcome_detach, Sorting.outcome_detach,
    Keyword.find_standard regular_orderBy.single]
  cases Keyword.find [kwOrderBy] text 0 with
  | none => rfl
  | some hit =>
    simp only [standard_drop, standard_take, trim_standard, trimEnd_standard]
    refine standardOutcome_map ?_ fun keys => rfl
    rw [Sorting.parse, entries_standard, Sorting.parse]
    exact mapM_standard (SortKey.parse_standard policy) _

theorem Grouping.outcome_detach_standard (text : Text) :
    (Grouping.detach (Text.standard text)).outcome =
      standardOutcome (Detached.standard (Option.map (List.map Text.standard)))
        (Grouping.detach text).outcome := by
  rw [Grouping.outcome_detach, Grouping.outcome_detach,
    Keyword.find_standard regular_groupBy.single]
  cases Keyword.find [kwGroupBy] text 0 with
  | none => rfl
  | some hit =>
    simp only [standard_drop, standard_take, trim_standard, trimEnd_standard, entries_standard,
      List.any_map, Function.comp_def, isEmpty_standard]
    split
    · rfl
    · rfl

/-! ## 4. Criteria and joins -/

theorem Criteria.value_detach_standard (text : Text) :
    (Criteria.detach (Text.standard text)).value =
      (Criteria.detach text).value.standard (Option.map Text.standard) := by
  rw [Criteria.value_detach, Criteria.value_detach, Keyword.find_standard regular_where.single]
  cases Keyword.find [kwWhere] text 0 with
  | none => rfl
  | some hit =>
    simp only [standard_drop, standard_take, trim_standard, isEmpty_standard]
    split
    · rfl
    · rfl

theorem Join.outcome_detach_standard (policy : Policy) (text : Text) :
    (Join.detach policy (Text.standard text)).outcome =
      standardOutcome (Detached.standard (Option.map Join.standard))
        (Join.detach policy text).outcome := by
  rw [Join.outcome_detach, Join.outcome_detach, Join.find_standard]
  cases Join.find text with
  | none => rfl
  | some span =>
    simp only [Option.map_some, JoinSpan.standard, Keyword.find_standard regular_joins,
      standard_drop, standard_take, trim_standard]
    cases policy.joins with
    | keepFirst => rfl
    | refuse =>
      cases Keyword.find kwJoins text span.stop with
      | none => rfl
      | some further => rfl

/-! ## 5. The head of the query and the conditions -/

theorem Projection.outcome_parse_standard (text : Text) :
    (Projection.parse (Text.standard text)).outcome =
      standardOutcome Projection.standard (Projection.parse text).outcome := by
  have hselect : kwSelect.matchHere none (Text.standard (trim text)) =
      kwSelect.matchHere none (trim text) :=
    Keyword.matchHere_standard opening_select.lettered none (trim text)
  rw [Projection.outcome_parse, Projection.outcome_parse]
  simp only [trim_standard, hselect, Keyword.find_standard regular_from.single, standard_slice,
    standard_drop, isEmpty_standard, entries_standard]
  split
  · cases Keyword.find [kwFrom] (trim text) 7 with
    | none => rfl
    | some hit =>
      simp only
      split
      · rfl
      · rfl
  · rfl

theorem Condition.outcome_parse_standard (text : Text) (connective : Option Connective) :
    (Condition.parse (Text.standard text) connective).outcome =
      standardOutcome Condition.standard (Condition.parse text connective).outcome := by
  rw [Condition.outcome_parse, Condition.outcome_parse]
  simp only [trim_standard, Keyword.find_standard regular_like.single, Comparison.find_standard,
    standard_take, standard_drop, isEmpty_standard, Condition.unquote_standard]
  cases Keyword.find [kwLike] (trim text) 0 with
  | some hit =>
    simp only
    split
    · rfl
    · rfl
  | none =>
    cases Comparison.find (trim text) with
    | none => rfl
    | some found =>
      simp only
      split
      · rfl
      · rfl

theorem Criteria.outcome_parseFrom_standard (text : Text) (start : Nat)
    (connective : Option Connective) (hits : List Hit) :
    (Criteria.parseFrom (Text.standard text) start connective hits).outcome =
      standardOutcome (List.map Condition.standard)
        (Criteria.parseFrom text start connective hits).outcome := by
  induction hits generalizing start connective with
  | nil =>
    rw [Criteria.outcome_parseFrom_nil, Criteria.outcome_parseFrom_nil, standard_drop]
    exact standardOutcome_map (Condition.outcome_parse_standard _ connective) fun last => rfl
  | cons hit hits ih =>
    rw [Criteria.outcome_parseFrom_cons, Criteria.outcome_parseFrom_cons, standard_slice]
    exact standardOutcome_bind (Condition.outcome_parse_standard _ connective) fun first =>
      standardOutcome_bind (ih hit.stop _) fun others => rfl

theorem Criteria.outcome_parse_standard (text : Text) :
    (Criteria.parse (Text.standard text)).outcome =
      standardOutcome (List.map Condition.standard) (Criteria.parse text).outcome := by
  rw [Criteria.parse, Keyword.findAll_standard regular_connectives,
    Criteria.outcome_parseFrom_standard, Criteria.parse]

/-! ## 6. The query -/

/-- **Case and blanks do not matter.** The standard form of a query is read
exactly if the query is, and then as the standard form of its outline;
otherwise it is refused with the same fault, found in the standard form
of the same text. -/
theorem Outline.parse_equivariant (policy : Policy) (text : Text) :
    (Outline.parse policy (Text.standard text)).outcome =
        standardOutcome Outline.standard (Outline.parse policy text).outcome ∧
      ∀ fault : Fault, fault.standard.kind = fault.kind ∧ fault.standard.message = fault.message ∧
        fault.standard.text = Text.standard fault.text := by
  refine ⟨?_, fun fault => by cases fault <;> exact ⟨rfl, rfl, rfl⟩⟩
  rw [Outline.outcome_parse, Outline.outcome_parse, trim_standard, Distinct.detach_standard]
  refine standardOutcome_bind (Limit.outcome_detach_standard _) fun limit => ?_
  refine standardOutcome_bind (Sorting.outcome_detach_standard policy _) fun sorting => ?_
  refine standardOutcome_bind (Grouping.outcome_detach_standard _) fun grouping => ?_
  simp only [Detached.standard, Criteria.value_detach_standard]
  refine standardOutcome_bind (Join.outcome_detach_standard policy _) fun join => ?_
  refine standardOutcome_bind (Projection.outcome_parse_standard _) fun projection => ?_
  have hconditions :
      ((Criteria.detach grouping.rest).value.clause.map Text.standard).elim (.ok [])
        (fun criteria => (Criteria.parse criteria).outcome) =
      standardOutcome (List.map Condition.standard)
        ((Criteria.detach grouping.rest).value.clause.elim (.ok [])
          fun criteria => (Criteria.parse criteria).outcome) := by
    cases (Criteria.detach grouping.rest).value.clause with
    | none => rfl
    | some criteria => exact Criteria.outcome_parse_standard criteria
  refine standardOutcome_bind hconditions fun conditions => ?_
  have hcalls : Aggregate.withoutGroups (Text.standard grouping.rest)
      (grouping.clause.map (List.map Text.standard)) =
        Aggregate.withoutGroups grouping.rest grouping.clause := by
    rw [Aggregate.withoutGroups, Aggregate.hasCall_standard, Option.isNone_map,
      Aggregate.withoutGroups]
  rw [hcalls]
  rfl

end SelectOutline
