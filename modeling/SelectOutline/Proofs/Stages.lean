/-
SelectOutline.Proofs.Stages — what each phase gives, without its report.

A phase is written as a run that also reports what it sees. Its outcome
alone is a plain function of the text: one equation for each phase, and
one for the query as a whole. Statements about results use these and
never open a run.
-/
import SelectOutline.Outline.Parse
import SelectOutline.Proofs.Reading

namespace SelectOutline

open Text

/-! ## 1. Opening a run -/

theorem Run.outcome_lift_bind {α β : Type} (x : Traced α) (f : α → Run β) :
    Run.outcome (liftM x >>= f) = (f x.value).outcome := by
  rw [Run.outcome_bind, Run.outcome_lift]
  rfl

theorem Run.outcome_ite {α : Type} (c : Prop) [Decidable c] (x y : Run α) :
    Run.outcome (if c then x else y) = if c then x.outcome else y.outcome :=
  apply_ite Run.outcome c x y

theorem Except.bind_eq_ok_iff {ε α β : Type} {x : Except ε α} {f : α → Except ε β} {b : β} :
    x >>= f = .ok b ↔ ∃ a, x = .ok a ∧ f a = .ok b := by
  constructor
  · intro h
    cases x with
    | ok a => exact ⟨a, rfl, h⟩
    | error e => cases h
  · rintro ⟨a, rfl, h⟩
    exact h

theorem Except.bind_eq_error_iff {ε α β : Type} {x : Except ε α} {f : α → Except ε β} {e : ε} :
    x >>= f = .error e ↔ x = .error e ∨ ∃ a, x = .ok a ∧ f a = .error e := by
  cases x with
  | ok a => simp [Bind.bind, Except.bind]
  | error e' => simp [Bind.bind, Except.bind]

/-! ## 2. Clauses at the end of a text -/

theorem Sorting.outcome_detach (policy : Policy) (text : Text) :
    (Sorting.detach policy text).outcome =
      match Keyword.find [kwOrderBy] text 0 with
      | none => .ok ⟨none, text⟩
      | some hit =>
        (Sorting.parse policy (trim (text.drop hit.stop))).map fun keys =>
          ⟨some keys, trimEnd (text.take hit.start)⟩ := by
  rw [Sorting.detach, Run.outcome_lift_bind, value_search]
  cases Keyword.find [kwOrderBy] text 0 with
  | none => rfl
  | some hit =>
    simp only [Run.outcome_bind, Run.outcome_ofExcept, Run.outcome_pure, cut_length]
    cases Sorting.parse policy (trim (text.drop hit.stop)) <;> rfl

theorem Grouping.outcome_detach (text : Text) :
    (Grouping.detach text).outcome =
      match Keyword.find [kwGroupBy] text 0 with
      | none => .ok ⟨none, text⟩
      | some hit =>
        if (entries (trim (text.drop hit.stop))).any List.isEmpty then
          .error (.emptyGroup (trim (text.drop hit.stop)))
        else .ok ⟨some (entries (trim (text.drop hit.stop))), trimEnd (text.take hit.start)⟩ := by
  rw [Grouping.detach, Run.outcome_lift_bind, value_search]
  cases Keyword.find [kwGroupBy] text 0 with
  | none => rfl
  | some hit =>
    simp only [Run.outcome_ite, Run.outcome_throw, Run.outcome_pure, cut_length]

theorem Criteria.value_detach (text : Text) :
    (Criteria.detach text).value =
      match Keyword.find [kwWhere] text 0 with
      | none => ⟨none, text⟩
      | some hit =>
        ⟨if (trim (text.drop hit.stop)).isEmpty then none else some (trim (text.drop hit.stop)),
          trim (text.take hit.start)⟩ := by
  rw [Criteria.detach, Traced.value_bind, value_search]
  cases Keyword.find [kwWhere] text 0 <;> rfl

theorem Join.outcome_detach (policy : Policy) (text : Text) :
    (Join.detach policy text).outcome =
      match Join.find text with
      | none => .ok ⟨none, text⟩
      | some span =>
        match policy.joins, Keyword.find kwJoins text span.stop with
        | .refuse, some further => .error (.furtherJoin (text.drop further.start))
        | _, _ => .ok ⟨some span.join, trim (text.take span.start)⟩ := by
  rw [Join.detach, Run.outcome_lift_bind, Join.find]
  cases (Join.locate text).value with
  | none => rfl
  | some span =>
    simp only [Run.outcome_lift_bind, value_search]
    cases Keyword.find kwJoins text span.stop with
    | none => cases policy.joins <;> rfl
    | some further => cases policy.joins <;> rfl

/-! ## 3. The limit -/

theorem Limit.outcome_detachFrom_cons (text : Text) (hit : Hit) (hits : List Hit) :
    (Limit.detachFrom text (hit :: hits)).outcome =
      match (Cursor.mk text hit.stop).skipBlanks.readDigits with
      | none => (Limit.detachFrom text hits).outcome
      | some (digits, after) =>
        if fits : decimalValue digits < UInt64.size then
          .ok ⟨some (UInt64.ofNatLT (decimalValue digits) fits),
            cut text hit.start after.position⟩
        else .error (.limitTooLarge digits) := by
  rw [Limit.detachFrom, Run.outcome_lift_bind]
  cases (Cursor.mk text hit.stop).skipBlanks.readDigits with
  | none => rfl
  | some read =>
    simp only
    split
    · rfl
    · rfl

/-! ## 4. The head of the query -/

theorem Distinct.detach_eq (text : Text) :
    Distinct.detach text =
      if (kwSelect.matchHere none text).isSome &&
          (kwDistinct.matchHere none (trimStart (text.drop 6))).isSome then
        ⟨true, "SELECT ".toList ++ trimStart ((trimStart (text.drop 6)).drop 8)⟩
      else ⟨false, text⟩ := by
  have hselect : kwSelect.spelling.length = 6 := by decide
  have hdistinct : kwDistinct.spelling.length = 8 := by decide
  have hsecond : ((Cursor.mk text 0).jump 6).skipBlanks.rest = trimStart (text.drop 6) := by
    rw [Cursor.rest_skipBlanks, Cursor.rest_jump]
    rfl
  have hthird : ((((Cursor.mk text 0).jump 6).skipBlanks).jump 8).skipBlanks.rest =
      trimStart ((trimStart (text.drop 6)).drop 8) := by
    rw [Cursor.rest_skipBlanks, Cursor.rest_jump, hsecond]
  have hsees : ((Cursor.mk text 0).jump 6).skipBlanks.sees kwDistinct =
      (kwDistinct.matchHere none (trimStart (text.drop 6))).isSome := by
    rw [← hsecond]
    rfl
  simp only [Distinct.detach, hselect, hdistinct, hsees, hthird]
  rfl

theorem Projection.outcome_parse (text : Text) :
    (Projection.parse text).outcome =
      if (kwSelect.matchHere none (trim text)).isSome then
        match Keyword.find [kwFrom] (trim text) 7 with
        | none => .error (.malformedSelect (trim text))
        | some hit =>
          if (trim (slice (trim text) 6 hit.start)).isEmpty ||
              (trim ((trim text).drop hit.stop)).isEmpty then
            .error (.malformedSelect (trim text))
          else .ok ⟨entries (trim (slice (trim text) 6 hit.start)),
            trim ((trim text).drop hit.stop)⟩
      else .error (.malformedSelect (trim text)) := by
  have hlength : kwSelect.spelling.length = 6 := by decide
  have hsees : Cursor.sees { text := trim text } kwSelect =
      (kwSelect.matchHere none (trim text)).isSome := rfl
  simp only [Projection.parse, Run.outcome_ite, hlength, hsees, Run.outcome_lift_bind,
    value_search]
  split
  · cases Keyword.find [kwFrom] (trim text) 7 with
    | none => rfl
    | some hit => simp only [Run.outcome_ite, Run.outcome_throw, Run.outcome_pure]
  · rfl

/-! ## 5. Conditions -/

theorem Condition.outcome_parse (text : Text) (connective : Option Connective) :
    (Condition.parse text connective).outcome =
      match Keyword.find [kwLike] (trim text) 0 with
      | some hit =>
        if (trim ((trim text).take hit.start)).isEmpty ||
            (trim ((trim text).drop hit.stop)).isEmpty then
          .error (.malformedCondition (trim text))
        else .ok ⟨trim ((trim text).take hit.start), .like,
          unquote (trim ((trim text).drop hit.stop)), connective⟩
      | none =>
        match Comparison.find (trim text) with
        | some found =>
          if (trim ((trim text).take found.start)).isEmpty ||
              (trim ((trim text).drop found.stop)).isEmpty then
            .error (.malformedCondition (trim text))
          else .ok ⟨trim ((trim text).take found.start), found.comparison,
            trim ((trim text).drop found.stop), connective⟩
        | none => .error (.malformedCondition (trim text)) := by
  simp only [Condition.parse, Run.outcome_lift_bind, value_search]
  cases Keyword.find [kwLike] (trim text) 0 with
  | some hit => simp only [Run.outcome_ite, Run.outcome_throw, Run.outcome_pure]
  | none =>
    cases Comparison.find (trim text) with
    | some found => simp only [Run.outcome_ite, Run.outcome_throw, Run.outcome_pure]
    | none => rfl

theorem Criteria.outcome_parseFrom_nil (text : Text) (start : Nat)
    (connective : Option Connective) :
    (Criteria.parseFrom text start connective []).outcome =
      (Condition.parse (text.drop start) connective).outcome.map fun last => [last] := by
  simp only [Criteria.parseFrom, Run.outcome_bind, Run.outcome_pure]
  cases (Condition.parse (text.drop start) connective).outcome <;> rfl

theorem Criteria.outcome_parseFrom_cons (text : Text) (start : Nat)
    (connective : Option Connective) (hit : Hit) (hits : List Hit) :
    (Criteria.parseFrom text start connective (hit :: hits)).outcome = (do
      let first ← (Condition.parse (slice text start hit.start) connective).outcome
      let others ←
        (Criteria.parseFrom text hit.stop (some (.ofIndex hit.index)) hits).outcome
      return first :: others) := by
  simp only [Criteria.parseFrom, Run.outcome_bind, Run.outcome_pure]
  rfl

/-! ## 6. The query -/

theorem Outline.outcome_parse (policy : Policy) (text : Text) :
    (Outline.parse policy text).outcome = (do
      let distinct := Distinct.detach (trim text)
      let limit ← (Limit.detach distinct.rest).outcome
      let sorting ← (Sorting.detach policy limit.rest).outcome
      let grouping ← (Grouping.detach sorting.rest).outcome
      let criteria := (Criteria.detach grouping.rest).value
      let join ← (Join.detach policy criteria.rest).outcome
      let projection ← (Projection.parse join.rest).outcome
      let conditions ← criteria.clause.elim (.ok []) fun text => (Criteria.parse text).outcome
      return {
        fields := projection.fields
        table := projection.table
        conditions
        join := join.clause
        groups := grouping.clause
        ungroupedAggregate := Aggregate.withoutGroups grouping.rest grouping.clause
        sortKeys := sorting.clause
        limit := limit.clause
        distinct := distinct.clause }) := by
  simp only [Outline.parse, Run.outcome_bind, Run.outcome_pure]
  have helim : ∀ clause : Option Text,
      (clause.elim (pure []) Criteria.parse : Run (List Condition)).outcome =
        clause.elim (.ok []) fun text => (Criteria.parse text).outcome := by
    intro clause
    cases clause <;> rfl
  simp only [helim]
  rfl

/-- The stages of a query that is read: what each of them gives on the
text that the one before it left. -/
structure Outline.Stages (policy : Policy) (text : Text) where
  limit : Detached (Option UInt64)
  sorting : Detached (Option (List SortKey))
  grouping : Detached (Option (List Text))
  join : Detached (Option Join)
  projection : Projection
  conditions : List Condition
  limit_eq : (Limit.detach (Distinct.detach (trim text)).rest).outcome = .ok limit
  sorting_eq : (Sorting.detach policy limit.rest).outcome = .ok sorting
  grouping_eq : (Grouping.detach sorting.rest).outcome = .ok grouping
  join_eq : (Join.detach policy (Criteria.detach grouping.rest).value.rest).outcome = .ok join
  projection_eq : (Projection.parse join.rest).outcome = .ok projection
  conditions_eq :
    ((Criteria.detach grouping.rest).value.clause.elim (.ok []) fun criteria =>
      (Criteria.parse criteria).outcome) = .ok conditions

/-- The outline that the stages give. -/
def Outline.Stages.outline {policy : Policy} {text : Text} (stages : Stages policy text) :
    Outline where
  fields := stages.projection.fields
  table := stages.projection.table
  conditions := stages.conditions
  join := stages.join.clause
  groups := stages.grouping.clause
  ungroupedAggregate := Aggregate.withoutGroups stages.grouping.rest stages.grouping.clause
  sortKeys := stages.sorting.clause
  limit := stages.limit.clause
  distinct := (Distinct.detach (trim text)).clause

/-- A query is read exactly if all its stages are. -/
theorem Outline.outcome_parse_eq_ok_iff {policy : Policy} {text : Text} {outline : Outline} :
    (Outline.parse policy text).outcome = .ok outline ↔
      ∃ stages : Stages policy text, stages.outline = outline := by
  rw [Outline.outcome_parse]
  constructor
  · intro h
    obtain ⟨limit, hlimit, h⟩ := Except.bind_eq_ok_iff.mp h
    obtain ⟨sorting, hsorting, h⟩ := Except.bind_eq_ok_iff.mp h
    obtain ⟨grouping, hgrouping, h⟩ := Except.bind_eq_ok_iff.mp h
    obtain ⟨join, hjoin, h⟩ := Except.bind_eq_ok_iff.mp h
    obtain ⟨projection, hprojection, h⟩ := Except.bind_eq_ok_iff.mp h
    obtain ⟨conditions, hconditions, h⟩ := Except.bind_eq_ok_iff.mp h
    exact ⟨⟨limit, sorting, grouping, join, projection, conditions, hlimit, hsorting, hgrouping,
      hjoin, hprojection, hconditions⟩, Except.ok.inj h⟩
  · rintro ⟨stages, rfl⟩
    refine Except.bind_eq_ok_iff.mpr ⟨_, stages.limit_eq, ?_⟩
    refine Except.bind_eq_ok_iff.mpr ⟨_, stages.sorting_eq, ?_⟩
    refine Except.bind_eq_ok_iff.mpr ⟨_, stages.grouping_eq, ?_⟩
    refine Except.bind_eq_ok_iff.mpr ⟨_, stages.join_eq, ?_⟩
    refine Except.bind_eq_ok_iff.mpr ⟨_, stages.projection_eq, ?_⟩
    exact Except.bind_eq_ok_iff.mpr ⟨_, stages.conditions_eq, rfl⟩

end SelectOutline
