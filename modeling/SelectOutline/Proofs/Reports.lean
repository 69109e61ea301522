/-
SelectOutline.Proofs.Reports — what the readers report.

A reader reports the keywords that its searches find, and nothing else
(`KeywordsOnly`): one lemma for each reader, by the recursion of the
reader. Only two things are reported besides. The join phase warns of
text that it drops behind a join, and the query as a whole reports its
phases, so that the phases that are reported are those of the query and
not of any reader (`Run.completed`). For a query that is read these are all
phases, each with the text that its stage leaves
(`Outline.Stages.completed_parse`).
-/
import SelectOutline.Proofs.Stages

namespace SelectOutline

open Text

/-! ## 1. Keywords -/

/-- The events tell of keywords only. -/
def KeywordsOnly (events : List Event) : Prop :=
  ∀ event ∈ events, ∃ hit, event = .ofHit hit

namespace KeywordsOnly

@[simp] theorem nil : KeywordsOnly [] := by
  simp [KeywordsOnly]

@[simp] theorem append_iff {events events' : List Event} :
    KeywordsOnly (events ++ events') ↔ KeywordsOnly events ∧ KeywordsOnly events' :=
  List.forall_mem_append

@[simp] theorem search (keywords : List Keyword) (text : Text) (start : Nat) :
    KeywordsOnly (SelectOutline.search keywords text start).events := by
  intro event hmem
  obtain ⟨hit, -, rfl⟩ := Option.map_eq_some_iff.mp (Option.mem_toList.mp hmem)
  exact ⟨hit, rfl⟩

@[simp] theorem hit (hit : Hit) : KeywordsOnly (emit (.ofHit hit)).events := by
  intro event hmem
  exact ⟨hit, List.mem_singleton.mp hmem⟩

/-- A run that goes on reports what its parts report. -/
theorem bind_iff {α β : Type} {x : Run α} {f : α → Run β} :
    KeywordsOnly (x >>= f).events ↔
      KeywordsOnly x.events ∧ ∀ a, x.outcome = .ok a → KeywordsOnly (f a).events := by
  rw [Run.events_bind, append_iff]
  cases x.outcome <;> simp

@[simp] theorem map_iff {α β : Type} {f : α → β} {x : Run α} :
    KeywordsOnly (f <$> x).events ↔ KeywordsOnly x.events := by
  rw [map_eq_pure_bind, bind_iff]
  simp

end KeywordsOnly

/-! ## 2. The readers one by one -/

theorem Limit.keywordsOnly_detachFrom (text : Text) (hits : List Hit) :
    KeywordsOnly (Limit.detachFrom text hits).events := by
  induction hits with
  | nil => simp [Limit.detachFrom]
  | cons hit hits ih =>
    rw [Limit.detachFrom, KeywordsOnly.bind_iff]
    refine ⟨by simp, fun _ _ => ?_⟩
    split
    · exact ih
    · split <;> simp

theorem Limit.keywordsOnly (text : Text) : KeywordsOnly (Limit.detach text).events :=
  keywordsOnly_detachFrom text _

theorem Sorting.keywordsOnly (policy : Policy) (text : Text) :
    KeywordsOnly (Sorting.detach policy text).events := by
  rw [Sorting.detach, KeywordsOnly.bind_iff]
  refine ⟨by simp, fun found _ => ?_⟩
  cases found with
  | none => simp
  | some hit => simp

theorem Grouping.keywordsOnly (text : Text) : KeywordsOnly (Grouping.detach text).events := by
  rw [Grouping.detach, KeywordsOnly.bind_iff]
  refine ⟨by simp, fun found _ => ?_⟩
  cases found with
  | none => simp
  | some hit =>
    simp only
    split <;> simp

theorem Criteria.keywordsOnly_detach (text : Text) :
    KeywordsOnly (Criteria.detach text).events := by
  rw [Criteria.detach, Traced.events_bind]
  cases (search [kwWhere] text 0).value <;> simp

theorem Join.keywordsOnly_completeFrom (text : Text) (keyword : Hit) (hits : List Hit) :
    KeywordsOnly (Join.completeFrom text keyword hits).events := by
  induction hits with
  | nil => simp [Join.completeFrom]
  | cons hit hits ih =>
    simp only [Join.completeFrom, Traced.events_bind, KeywordsOnly.append_iff]
    refine ⟨KeywordsOnly.hit hit, ?_⟩
    split
    · split
      · exact ih
      · simp
    · exact ih

theorem Join.keywordsOnly_locateFrom (text : Text) (hits : List Hit) :
    KeywordsOnly (Join.locateFrom text hits).events := by
  induction hits with
  | nil => simp [Join.locateFrom]
  | cons hit hits ih =>
    simp only [Join.locateFrom, Traced.events_bind, KeywordsOnly.append_iff]
    refine ⟨KeywordsOnly.hit hit, keywordsOnly_completeFrom text hit _, ?_⟩
    split
    · simp
    · exact ih

theorem Projection.keywordsOnly (text : Text) : KeywordsOnly (Projection.parse text).events := by
  simp only [Projection.parse]
  split
  · rw [KeywordsOnly.bind_iff]
    refine ⟨by simp, fun found _ => ?_⟩
    cases found with
    | none => simp
    | some hit =>
      simp only
      split <;> simp
  · simp

theorem Condition.keywordsOnly (text : Text) (connective : Option Connective) :
    KeywordsOnly (Condition.parse text connective).events := by
  simp only [Condition.parse]
  rw [KeywordsOnly.bind_iff]
  refine ⟨by simp, fun found _ => ?_⟩
  cases found with
  | some hit =>
    simp only
    split <;> simp
  | none =>
    simp only
    split
    · split <;> simp
    · simp

theorem Criteria.keywordsOnly_parseFrom (text : Text) (start : Nat)
    (connective : Option Connective) (hits : List Hit) :
    KeywordsOnly (Criteria.parseFrom text start connective hits).events := by
  induction hits generalizing start connective with
  | nil => simp [Criteria.parseFrom, Condition.keywordsOnly]
  | cons hit hits ih =>
    simp [Criteria.parseFrom, KeywordsOnly.bind_iff, Condition.keywordsOnly, ih]

/-- The conditions of the criteria, if there are any. -/
theorem Criteria.keywordsOnly_elim (clause : Option Text) :
    KeywordsOnly (clause.elim (pure []) Criteria.parse : Run (List Condition)).events := by
  cases clause with
  | none => exact KeywordsOnly.nil
  | some criteria => exact keywordsOnly_parseFrom criteria 0 none _

/-! ## 3. Phases -/

/-- The phase that an event reports as done, and the text that it left. -/
def Event.completed? : Event → Option (Phase × Text)
  | .phaseDone phase remainder => some (phase, remainder)
  | _ => none

/-- The phases that a run reports as done, each with the text it left. -/
def Run.completed {α : Type} (run : Run α) : List (Phase × Text) :=
  run.events.filterMap Event.completed?

theorem KeywordsOnly.filterMap_completed? {events : List Event} (h : KeywordsOnly events) :
    events.filterMap Event.completed? = [] := by
  rw [List.filterMap_eq_nil_iff]
  intro event hmem
  obtain ⟨hit, rfl⟩ := h event hmem
  rfl

theorem Run.completed_eq_nil {α : Type} {run : Run α} (h : KeywordsOnly run.events) :
    run.completed = [] :=
  h.filterMap_completed?

@[simp] theorem Run.completed_pure {α : Type} (a : α) : (pure a : Run α).completed = [] := rfl

theorem Run.completed_bind {α β : Type} (x : Run α) (f : α → Run β) :
    (x >>= f).completed = x.completed ++
      match x.outcome with
      | .ok a => (f a).completed
      | .error _ => [] := by
  rw [completed, Run.events_bind, List.filterMap_append]
  cases x.outcome <;> rfl

@[simp] theorem Run.completed_map {α β : Type} (f : α → β) (x : Run α) :
    (f <$> x).completed = x.completed := by
  rw [map_eq_pure_bind, completed_bind]
  cases x.outcome <;> simp

/-- The join phase reports no phase either. -/
theorem Join.completed_detach (policy : Policy) (text : Text) :
    (Join.detach policy text).completed = [] := by
  have hlocate : (liftM (Join.locate text) : Run (Option JoinSpan)).completed = [] := by
    rw [Run.completed, Run.events_lift]
    exact (keywordsOnly_locateFrom text _).filterMap_completed?
  rw [Join.detach, Run.completed_bind, hlocate, Run.outcome_lift, List.nil_append]
  cases (Join.locate text).value with
  | none => rfl
  | some span =>
    simp only [Run.completed_bind, Run.outcome_lift]
    rw [Run.completed, Run.events_lift, (KeywordsOnly.search _ _ _).filterMap_completed?]
    cases (search kwJoins text span.stop).value with
    | none => rfl
    | some further => cases policy.joins <;> rfl

@[simp] theorem Outline.completed_report (phase : Phase) (remainder : Text) :
    (liftM (Outline.report phase remainder) : Run Unit).completed = [(phase, remainder)] := rfl

/-- A query that is read reports all phases as done, each with the text that
its stage leaves. Behind the projection nothing is left. -/
theorem Outline.Stages.completed_parse {policy : Policy} {text : Text}
    (stages : Stages policy text) :
    (Outline.parse policy text).completed =
      [(.distinct, (Distinct.detach (trim text)).rest), (.limit, stages.limit.rest),
        (.sorting, stages.sorting.rest), (.grouping, stages.grouping.rest),
        (.criteria, (Criteria.detach stages.grouping.rest).value.rest),
        (.join, stages.join.rest), (.projection, []), (.conditions, []), (.aggregates, [])] := by
  -- Between the reports the readers report no phase.
  have hlimit := Run.completed_eq_nil (Limit.keywordsOnly (Distinct.detach (trim text)).rest)
  have hsorting := Run.completed_eq_nil (Sorting.keywordsOnly policy stages.limit.rest)
  have hgrouping := Run.completed_eq_nil (Grouping.keywordsOnly stages.sorting.rest)
  have hcriteria : (liftM (Criteria.detach stages.grouping.rest) :
      Run (Detached (Option Text))).completed = [] := by
    apply Run.completed_eq_nil
    rw [Run.events_lift]
    exact Criteria.keywordsOnly_detach stages.grouping.rest
  have hprojection := Run.completed_eq_nil (Projection.keywordsOnly stages.join.rest)
  have hconditions := Run.completed_eq_nil
    (Criteria.keywordsOnly_elim (Criteria.detach stages.grouping.rest).value.clause)
  have hread : ((Criteria.detach stages.grouping.rest).value.clause.elim (pure [])
      Criteria.parse : Run (List Condition)).outcome = .ok stages.conditions := by
    rw [← stages.conditions_eq]
    cases (Criteria.detach stages.grouping.rest).value.clause <;> rfl
  simp only [Outline.parse, Run.completed_bind, Run.outcome_lift, Outline.completed_report, hlimit,
    hsorting, hgrouping, hcriteria, hprojection, hconditions, Join.completed_detach,
    stages.limit_eq, stages.sorting_eq, stages.grouping_eq, stages.join_eq, stages.projection_eq,
    hread, Run.completed_pure]
  rfl

end SelectOutline
