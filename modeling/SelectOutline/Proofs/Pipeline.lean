/-
SelectOutline.Proofs.Pipeline — the phases as a loop.

Reading a query is one loop over the phases. `Progress` is what the loop
has at hand between two phases, `Progress.advance` is one turn of it, and
`Outline.parse_eq_run` says that the turns, one after another, are what
`Outline.parse` does.

What holds of a run is proved for one turn, phase by phase
(`Progress.advance_leaves`, `Progress.kind_of_advance`), and then for the
run by induction on the phases that are left. Two facts are carried along:
the text that is left has bare ends, and behind the projection nothing is
left.

Whether a phase takes a clause is asked of the phase and its text alone
(`Phase.takes`), so that it is known of a refused run too. Of a query that
is read it is to be seen in the outline: a phase has taken a clause exactly
if the outline has one (`Outline.parse_takes`).
-/
import Mathlib.Tactic.IntervalCases
import SelectOutline.Proofs.Decomposition
import SelectOutline.Proofs.Reports

namespace SelectOutline

open Text

/-! ## 1. The loop -/

/-- The phases of a run, first to last. -/
def Phase.all : List Phase :=
  [distinct, limit, sorting, grouping, criteria, join, projection, conditions, aggregates]

theorem Phase.isChain_all : Phase.all.IsChain fun phase following => following = phase.next := by
  decide

/-- What a run has at hand between two phases. -/
structure Progress where
  /-- The text that no phase has taken yet. -/
  remainder : Text
  /-- The text that the aggregate check looks at. -/
  fragment : Text
  criteria : Option Text
  /-- The parts that are read. -/
  outline : Outline

namespace Progress

/-- Before the first phase nothing is read. -/
def start (text : Text) : Progress where
  remainder := trim text
  fragment := []
  criteria := none
  outline := {
    fields := []
    table := []
    conditions := []
    join := none
    groups := none
    ungroupedAggregate := false
    sortKeys := none
    limit := none
    distinct := false }

/-- One phase. -/
def advance (policy : Policy) (progress : Progress) : Phase → Run Progress
  | .distinct => do
    let distinct := Distinct.detach progress.remainder
    return { progress with
      remainder := distinct.rest
      outline := { progress.outline with distinct := distinct.clause } }
  | .limit => do
    let limit ← Limit.detach progress.remainder
    return { progress with
      remainder := limit.rest
      outline := { progress.outline with limit := limit.clause } }
  | .sorting => do
    let sorting ← Sorting.detach policy progress.remainder
    return { progress with
      remainder := sorting.rest
      outline := { progress.outline with sortKeys := sorting.clause } }
  | .grouping => do
    let grouping ← Grouping.detach progress.remainder
    return { progress with
      remainder := grouping.rest
      fragment := grouping.rest
      outline := { progress.outline with groups := grouping.clause } }
  | .criteria => do
    let criteria ← Criteria.detach progress.remainder
    return { progress with remainder := criteria.rest, criteria := criteria.clause }
  | .join => do
    let join ← Join.detach policy progress.remainder
    return { progress with
      remainder := join.rest
      outline := { progress.outline with join := join.clause } }
  | .projection => do
    let projection ← Projection.parse progress.remainder
    return { progress with
      remainder := []
      outline := { progress.outline with fields := projection.fields, table := projection.table } }
  | .conditions => do
    let conditions ← progress.criteria.elim (pure []) Criteria.parse
    return { progress with outline := { progress.outline with conditions } }
  | .aggregates =>
    return { progress with
      outline := { progress.outline with
        ungroupedAggregate :=
          Aggregate.withoutGroups progress.fragment progress.outline.groups } }
  | .finished => return progress

/-- Phase after phase, each reported when it is done. -/
def run (policy : Policy) : List Phase → Progress → Run Progress
  | [], progress => return progress
  | phase :: phases, progress => do
    let progress ← progress.advance policy phase
    Outline.report phase progress.remainder
    run policy phases progress

end Progress

/-- **Reading a query is the loop over its phases.** -/
theorem Outline.parse_eq_run (policy : Policy) (text : Text) :
    Outline.parse policy text =
      Progress.outline <$> Progress.run policy Phase.all (Progress.start text) := by
  simp only [Outline.parse, Phase.all, Progress.run, Progress.advance, Progress.start, pure_bind,
    bind_assoc, map_bind, map_pure]

/-! ## 2. What one phase leaves -/

/-- Whether a phase takes a clause off the text it is given. -/
def Phase.takes (policy : Policy) (text : Text) : Phase → Bool
  | distinct => (Distinct.detach text).clause
  | limit => (Limit.detach text).outcome.toOption.any (·.clause.isSome)
  | sorting => (Sorting.detach policy text).outcome.toOption.any (·.clause.isSome)
  | grouping => (Grouping.detach text).outcome.toOption.any (·.clause.isSome)
  | criteria => (Criteria.detach text).value.clause.isSome
  | join => (Join.detach policy text).outcome.toOption.any (·.clause.isSome)
  | _ => false

/-- What a phase leaves of the text it is given. -/
structure Phase.Leaves (policy : Policy) (phase : Phase) (before after : Text) : Prop where
  trimmed : Trimmed after
  length_le : after.length ≤ before.length
  length_lt : phase.takes policy before = true → after.length < before.length
  isPrefix : phase ∈ [sorting, grouping, criteria, join] → after <+: before
  nil : projection.index ≤ phase.index → after = []

/-- Without `DISTINCT` the text stays as it is, and with it it gets
shorter: the blanks behind `SELECT` and the word outweigh the one space. -/
theorem Distinct.length_detach (text : Text) :
    ((Distinct.detach text).clause = false → (Distinct.detach text).rest = text) ∧
      ((Distinct.detach text).clause = true → (Distinct.detach text).rest.length < text.length) := by
  by_cases hopens : ∃ rest, Opens text rest
  · obtain ⟨rest, hopens⟩ := hopens
    rw [detach_of_opens hopens]
    obtain ⟨select, gap, distinct, rfl, hselect, hgap, -, hdistinct, -⟩ := hopens
    refine ⟨Bool.noConfusion, fun _ => ?_⟩
    have hlength : select.length = 6 := by simpa using congrArg List.length hselect
    have hlength' : distinct.length = 8 := by simpa using congrArg List.length hdistinct
    have hspace : "SELECT ".toList.length = 7 := by decide
    have hpos := List.length_pos_iff.mpr hgap
    have htrim := length_trimStart_le rest
    simp only [List.length_append]
    omega
  · rw [detach_of_not_opens hopens]
    exact ⟨fun _ => rfl, Bool.noConfusion⟩

theorem Distinct.leaves {text : Text} (h : Trimmed text) (policy : Policy) :
    Phase.distinct.Leaves policy text (Distinct.detach text).rest := by
  obtain ⟨hfalse, htrue⟩ := length_detach text
  refine ⟨trimmed_detach h, ?_, htrue, fun hmem => absurd hmem (by decide),
    fun hle => absurd hle (by decide)⟩
  cases hclause : (Distinct.detach text).clause with
  | true => exact (htrue hclause).le
  | false => rw [hfalse hclause]

theorem Cursor.position_lt_of_readRun {inClass : Char → Bool} {cursor after : Cursor} {run : Text}
    (h : cursor.readRun inClass = some (run, after)) :
    cursor.position < after.position ∧ after.position ≤ cursor.text.length := by
  obtain ⟨hne, -, hpasses, -⟩ := passes_of_readRun h
  have hpos := List.length_pos_iff.mpr hne
  have hrest := congrArg List.length hpasses.rest_eq
  have hposition := hpasses.position_eq
  rw [rest, List.length_drop, List.length_append] at hrest
  omega

/-- Without a limit the text stays as it is, and with one it gets
shorter. -/
theorem Limit.length_detachFrom {text : Text} {hits : List Hit}
    (hhits : ∀ hit ∈ hits, hit.start < hit.stop) {detached : Detached (Option UInt64)}
    (h : (Limit.detachFrom text hits).outcome = .ok detached) :
    (detached.clause = none → detached.rest = text) ∧
      (detached.clause ≠ none → detached.rest.length < text.length) := by
  induction hits with
  | nil =>
    obtain rfl := Except.ok.inj h
    exact ⟨fun _ => rfl, fun hne => absurd rfl hne⟩
  | cons hit hits ih =>
    obtain ⟨hhit, hhits⟩ := List.forall_mem_cons.mp hhits
    rw [Limit.outcome_detachFrom_cons] at h
    split at h
    · exact ih hhits h
    · next digits after hread =>
      split at h
      swap
      · cases h
      obtain rfl := Except.ok.inj h
      refine ⟨fun hnone => absurd hnone (Option.some_ne_none _), fun _ => ?_⟩
      obtain ⟨hlt, hle⟩ := Cursor.position_lt_of_readRun hread
      have hcut := length_cut_le text hit.start after.position
      have hskip : hit.stop ≤ (Cursor.mk text hit.stop).skipBlanks.position := Nat.le_add_right _ _
      have htext : (Cursor.mk text hit.stop).skipBlanks.text = text := rfl
      rw [htext] at hle
      simp only [List.length_take, List.length_drop] at hcut
      change (cut text hit.start after.position).length < text.length
      omega

theorem Limit.length_detach {text : Text} {detached : Detached (Option UInt64)}
    (h : (Limit.detach text).outcome = .ok detached) :
    (detached.clause = none → detached.rest = text) ∧
      (detached.clause ≠ none → detached.rest.length < text.length) := by
  refine Limit.length_detachFrom (fun hit hmem => ?_) h
  obtain ⟨before, spelled, after, hsplits, -, -, hindex⟩ :=
    Keyword.findAll_splits regular_limit.single hmem
  exact hsplits.start_lt_stop (regular_limit.single _ (List.mem_of_getElem? hindex))

theorem Limit.leaves {text : Text} (htext : Trimmed text) (policy : Policy)
    {detached : Detached (Option UInt64)} (h : (Limit.detach text).outcome = .ok detached) :
    Phase.limit.Leaves policy text detached.rest := by
  obtain ⟨hnone, hsome⟩ := length_detach h
  refine ⟨trimmed_detachFrom htext h, ?_, ?_, fun hmem => absurd hmem (by decide),
    fun hle => absurd hle (by decide)⟩
  · by_cases hclause : detached.clause = none
    · rw [hnone hclause]
    · exact (hsome hclause).le
  · intro htakes
    refine hsome ?_
    simpa [Phase.takes, h, Except.toOption, Option.isSome_iff_ne_none] using htakes

/-- A phase that takes its clause off the end of the text leaves the
beginning of it. -/
theorem Detached.Accounts.leaves {α : Type} {detached : Detached (Option α)} {text clause : Text}
    {Reads : α → Text → Prop} (h : detached.Accounts text clause Reads) {policy : Policy}
    {phase : Phase} (htakes : phase.takes policy text = detached.clause.isSome)
    (hphase : phase.index < Phase.projection.index) :
    phase.Leaves policy text detached.rest := by
  have hlength := congrArg List.length h.text_eq
  rw [List.length_append] at hlength
  refine ⟨h.trimmed, by omega, ?_, fun _ => ⟨clause, h.text_eq.symm⟩, fun hle => by omega⟩
  intro htaken
  rw [htakes, Option.isSome_iff_ne_none] at htaken
  have hpos := List.length_pos_iff.mpr fun hnil => htaken (h.clause_nil.mp hnil)
  omega

/-- Behind the projection a phase finds nothing and leaves nothing. -/
theorem Phase.leaves_nil {policy : Policy} {phase : Phase} {text : Text} (htext : text = [])
    (htakes : phase.takes policy text = false) : phase.Leaves policy text text := by
  subst htext
  refine ⟨⟨startsBare_nil, endsBare_nil⟩, Nat.le_refl _, ?_, fun _ => List.nil_prefix, fun _ => rfl⟩
  intro htaken
  rw [htakes] at htaken
  cases htaken

theorem Progress.advance_leaves {policy : Policy} {phase : Phase} {progress after : Progress}
    (htrimmed : Trimmed progress.remainder)
    (hnil : Phase.projection.index < phase.index → progress.remainder = [])
    (h : (progress.advance policy phase).outcome = .ok after) :
    phase.Leaves policy progress.remainder after.remainder := by
  cases phase with
  | distinct =>
    obtain rfl := Except.ok.inj h
    exact Distinct.leaves htrimmed policy
  | limit =>
    rw [advance, Run.outcome_bind] at h
    obtain ⟨limit, hlimit, h⟩ := Except.bind_eq_ok_iff.mp h
    obtain rfl := Except.ok.inj h
    exact Limit.leaves htrimmed policy hlimit
  | sorting =>
    rw [advance, Run.outcome_bind] at h
    obtain ⟨sorting, hsorting, h⟩ := Except.bind_eq_ok_iff.mp h
    obtain rfl := Except.ok.inj h
    obtain ⟨clause, hclause⟩ := Sorting.accounts htrimmed hsorting
    exact hclause.leaves (by rw [Phase.takes, hsorting]; rfl) (by decide)
  | grouping =>
    rw [advance, Run.outcome_bind] at h
    obtain ⟨grouping, hgrouping, h⟩ := Except.bind_eq_ok_iff.mp h
    obtain rfl := Except.ok.inj h
    obtain ⟨clause, hclause⟩ := Grouping.accounts htrimmed hgrouping
    exact hclause.leaves (by rw [Phase.takes, hgrouping]; rfl) (by decide)
  | criteria =>
    obtain rfl := Except.ok.inj h
    obtain ⟨clause, hclause⟩ := Criteria.accounts htrimmed
    exact hclause.leaves rfl (by decide)
  | join =>
    rw [advance, Run.outcome_bind] at h
    obtain ⟨join, hjoin, h⟩ := Except.bind_eq_ok_iff.mp h
    obtain rfl := Except.ok.inj h
    obtain ⟨-, clause, hclause⟩ := Join.accounts htrimmed hjoin
    exact hclause.leaves (by rw [Phase.takes, hjoin]; rfl) (by decide)
  | projection =>
    rw [advance, Run.outcome_bind] at h
    obtain ⟨projection, -, h⟩ := Except.bind_eq_ok_iff.mp h
    obtain rfl := Except.ok.inj h
    exact ⟨⟨startsBare_nil, endsBare_nil⟩, Nat.zero_le _, fun htakes => absurd htakes Bool.false_ne_true,
      fun _ => List.nil_prefix, fun _ => rfl⟩
  | conditions =>
    rw [advance, Run.outcome_bind] at h
    obtain ⟨conditions, -, h⟩ := Except.bind_eq_ok_iff.mp h
    obtain rfl := Except.ok.inj h
    exact Phase.leaves_nil (hnil (by decide)) rfl
  | aggregates =>
    obtain rfl := Except.ok.inj h
    exact Phase.leaves_nil (hnil (by decide)) rfl
  | finished =>
    obtain rfl := Except.ok.inj h
    exact Phase.leaves_nil (hnil (by decide)) rfl

/-! ## 3. How one phase fails -/

/-- The kind of fault that a phase may end in. -/
def Phase.faultKind? : Phase → Option FaultKind
  | limit => some .limit
  | sorting => some .sorting
  | grouping => some .grouping
  | join => some .join
  | projection => some .select
  | conditions => some .criteria
  | _ => none

theorem Limit.kind_of_detachFrom {text : Text} {hits : List Hit} {fault : Fault}
    (h : (Limit.detachFrom text hits).outcome = .error fault) : fault.kind = .limit := by
  induction hits with
  | nil => cases h
  | cons hit hits ih =>
    rw [Limit.outcome_detachFrom_cons] at h
    split at h
    · exact ih h
    · split at h
      · cases h
      · obtain rfl := Except.error.inj h
        rfl

theorem SortKey.kind_of_parse {policy : Policy} {entry : Text} {fault : Fault}
    (h : SortKey.parse policy entry = .error fault) : fault.kind = .sorting := by
  rw [parse] at h
  split at h
  · obtain rfl := Except.error.inj h
    rfl
  · cases h
  · split at h
    · obtain rfl := Except.error.inj h
      rfl
    · cases h

theorem Sorting.kind_of_parse {policy : Policy} {list : List Text} {fault : Fault}
    (h : list.mapM (SortKey.parse policy) = .error fault) : fault.kind = .sorting := by
  induction list with
  | nil => cases h
  | cons entry list ih =>
    rw [List.mapM_cons] at h
    rcases Except.bind_eq_error_iff.mp h with hfirst | ⟨key, -, h⟩
    · exact SortKey.kind_of_parse hfirst
    · rcases Except.bind_eq_error_iff.mp h with hothers | ⟨keys, -, h⟩
      · exact ih hothers
      · cases h

theorem Sorting.kind_of_detach {policy : Policy} {text : Text} {fault : Fault}
    (h : (Sorting.detach policy text).outcome = .error fault) : fault.kind = .sorting := by
  rw [Sorting.outcome_detach] at h
  split at h
  · cases h
  · next hit hfind =>
    cases hparse : Sorting.parse policy (trim (text.drop hit.stop)) with
    | ok keys =>
      rw [hparse] at h
      cases h
    | error cause =>
      rw [hparse] at h
      obtain rfl := Except.error.inj h
      exact kind_of_parse hparse

theorem Grouping.kind_of_detach {text : Text} {fault : Fault}
    (h : (Grouping.detach text).outcome = .error fault) : fault.kind = .grouping := by
  rw [Grouping.outcome_detach] at h
  split at h
  · cases h
  · split at h
    · obtain rfl := Except.error.inj h
      rfl
    · cases h

theorem Join.kind_of_detach {policy : Policy} {text : Text} {fault : Fault}
    (h : (Join.detach policy text).outcome = .error fault) : fault.kind = .join := by
  rw [Join.outcome_detach] at h
  split at h
  · cases h
  · split at h
    · obtain rfl := Except.error.inj h
      rfl
    · cases h

theorem Projection.kind_of_parse {text : Text} {fault : Fault}
    (h : (Projection.parse text).outcome = .error fault) : fault.kind = .select := by
  have hselect : ∀ {text : Text}, (.error (.malformedSelect text) : Except Fault Projection) =
      .error fault → fault.kind = .select := by
    intro text heq
    obtain rfl := Except.error.inj heq
    rfl
  rw [Projection.outcome_parse] at h
  split at h
  · split at h
    · exact hselect h
    · split at h
      · exact hselect h
      · cases h
  · exact hselect h

theorem Condition.kind_of_parse {text : Text} {connective : Option Connective} {fault : Fault}
    (h : (Condition.parse text connective).outcome = .error fault) : fault.kind = .criteria := by
  have hcriteria : ∀ {text : Text}, (.error (.malformedCondition text) : Except Fault Condition) =
      .error fault → fault.kind = .criteria := by
    intro text heq
    obtain rfl := Except.error.inj heq
    rfl
  rw [Condition.outcome_parse] at h
  split at h
  · split at h
    · exact hcriteria h
    · cases h
  · split at h
    · split at h
      · exact hcriteria h
      · cases h
    · exact hcriteria h

theorem Criteria.kind_of_parseFrom {text : Text} {start : Nat} {connective : Option Connective}
    {hits : List Hit} {fault : Fault}
    (h : (Criteria.parseFrom text start connective hits).outcome = .error fault) :
    fault.kind = .criteria := by
  induction hits generalizing start connective with
  | nil =>
    rw [Criteria.parseFrom, Run.outcome_bind] at h
    rcases Except.bind_eq_error_iff.mp h with hlast | ⟨last, -, h⟩
    · exact Condition.kind_of_parse hlast
    · cases h
  | cons hit hits ih =>
    rw [Criteria.outcome_parseFrom_cons] at h
    rcases Except.bind_eq_error_iff.mp h with hfirst | ⟨first, -, h⟩
    · exact Condition.kind_of_parse hfirst
    · rcases Except.bind_eq_error_iff.mp h with hothers | ⟨others, -, h⟩
      · exact ih hothers
      · cases h

theorem Progress.kind_of_advance {policy : Policy} {phase : Phase} {progress : Progress}
    {fault : Fault} (h : (progress.advance policy phase).outcome = .error fault) :
    phase.faultKind? = some fault.kind := by
  -- Behind its reader a phase does not fail.
  have hread : ∀ {α : Type} {x : Except Fault α} {f : α → Progress},
      (x >>= fun a => .ok (f a)) = .error fault → x = .error fault := by
    intro α x f hbind
    rcases Except.bind_eq_error_iff.mp hbind with hx | ⟨a, -, hf⟩
    · exact hx
    · cases hf
  cases phase with
  | limit =>
    rw [advance, Run.outcome_bind] at h
    exact congrArg some (Limit.kind_of_detachFrom (hread h)).symm
  | sorting =>
    rw [advance, Run.outcome_bind] at h
    exact congrArg some (Sorting.kind_of_detach (hread h)).symm
  | grouping =>
    rw [advance, Run.outcome_bind] at h
    exact congrArg some (Grouping.kind_of_detach (hread h)).symm
  | join =>
    rw [advance, Run.outcome_bind] at h
    exact congrArg some (Join.kind_of_detach (hread h)).symm
  | projection =>
    rw [advance, Run.outcome_bind] at h
    exact congrArg some (Projection.kind_of_parse (hread h)).symm
  | conditions =>
    rw [advance, Run.outcome_bind] at h
    have hconditions := hread h
    cases hcriteria : progress.criteria with
    | none =>
      rw [hcriteria] at hconditions
      cases hconditions
    | some criteria =>
      rw [hcriteria] at hconditions
      exact congrArg some (Criteria.kind_of_parseFrom hconditions).symm
  | distinct => cases h
  | criteria => cases h
  | aggregates => cases h
  | finished => cases h

/-! ## 4. A whole run -/

/-- What a run reports as done, from a text on: `R` holds of each phase, the
text that the one before it left and the text that it leaves itself. -/
inductive Along (R : Phase → Text → Text → Prop) : Text → List (Phase × Text) → Prop
  | nil {before : Text} : Along R before []
  | cons {before after : Text} {phase : Phase} {completed : List (Phase × Text)} :
      R phase before after → Along R after completed →
        Along R before ((phase, after) :: completed)

/-- Each phase leaves what it may of the text that the one before it left. -/
abbrev Shrinking (policy : Policy) : Text → List (Phase × Text) → Prop :=
  Along (Phase.Leaves policy)

namespace Progress

/-- A phase does not report itself as done. -/
theorem completed_advance (policy : Policy) (progress : Progress) (phase : Phase) :
    (progress.advance policy phase).completed = [] := by
  -- What a phase does behind its reader is not reported.
  have hread : ∀ {α : Type} {x : Run α} {f : α → Progress}, x.completed = [] →
      (x >>= fun a => pure (f a)).completed = [] := by
    intro α x f hx
    rw [Run.completed_bind, hx]
    cases x.outcome <;> rfl
  cases phase with
  | limit => exact hread (Run.completed_eq_nil (Limit.keywordsOnly _))
  | sorting => exact hread (Run.completed_eq_nil (Sorting.keywordsOnly policy _))
  | grouping => exact hread (Run.completed_eq_nil (Grouping.keywordsOnly _))
  | criteria =>
    refine hread (Run.completed_eq_nil ?_)
    rw [Run.events_lift]
    exact Criteria.keywordsOnly_detach _
  | join => exact hread (Join.completed_detach policy _)
  | projection => exact hread (Run.completed_eq_nil (Projection.keywordsOnly _))
  | conditions => exact hread (Run.completed_eq_nil (Criteria.keywordsOnly_elim _))
  | distinct => rfl
  | aggregates => rfl
  | finished => rfl

/-- A run goes on behind a phase that is done. -/
theorem outcome_run_cons (policy : Policy) (phase : Phase) (phases : List Phase)
    (progress : Progress) :
    (run policy (phase :: phases) progress).outcome =
      (progress.advance policy phase).outcome >>= fun after => (run policy phases after).outcome := by
  simp only [run, Run.outcome_bind, Run.outcome_lift]
  rfl

/-- A phase is reported when it is done, before those that follow. -/
theorem completed_run_cons (policy : Policy) (phase : Phase) (phases : List Phase)
    (progress : Progress) :
    (run policy (phase :: phases) progress).completed =
      match (progress.advance policy phase).outcome with
      | .ok after => (phase, after.remainder) :: (run policy phases after).completed
      | .error _ => [] := by
  rw [run, Run.completed_bind, completed_advance, List.nil_append]
  cases (progress.advance policy phase).outcome with
  | error fault => rfl
  | ok after =>
    simp only [Run.completed_bind, Run.outcome_lift]
    rfl

/-- A run is done with the first of its phases, and it is refused in the
phase that follows them, if any does. -/
theorem run_stops (policy : Policy) (phases : List Phase) (progress : Progress) :
    ∃ count ≤ phases.length,
      (run policy phases progress).completed.map Prod.fst = phases.take count ∧
      ((∃ after, (run policy phases progress).outcome = .ok after) ↔ count = phases.length) ∧
      ∀ fault, (run policy phases progress).outcome = .error fault →
        phases[count]?.bind Phase.faultKind? = some fault.kind := by
  induction phases generalizing progress with
  | nil =>
    exact ⟨0, Nat.le_refl _, rfl, ⟨fun _ => rfl, fun _ => ⟨progress, rfl⟩⟩, fun _ h => nomatch h⟩
  | cons phase phases ih =>
    rw [completed_run_cons, outcome_run_cons]
    cases hadvance : (progress.advance policy phase).outcome with
    | error fault =>
      refine ⟨0, Nat.zero_le _, rfl, ⟨?_, ?_⟩, ?_⟩
      · rintro ⟨after, hafter⟩
        cases hafter
      · intro hzero
        cases hzero
      · intro cause hcause
        obtain rfl := Except.error.inj hcause
        exact kind_of_advance hadvance
    | ok after =>
      obtain ⟨count, hle, hmap, hok, herror⟩ := ih after
      refine ⟨count + 1, Nat.succ_le_succ hle, ?_, ?_, ?_⟩
      · rw [List.map_cons, hmap, List.take_succ_cons]
      · rw [List.length_cons, Nat.add_right_cancel_iff]
        exact hok
      · intro cause hcause
        rw [List.getElem?_cons_succ]
        exact herror cause hcause

/-- What the phases leave shrinks from one to the next. -/
theorem run_shrinking {policy : Policy} {phases : List Phase} {progress : Progress}
    (hchain : phases.IsChain fun phase following => following = phase.next)
    (htrimmed : Trimmed progress.remainder)
    (hnil : ∀ phase ∈ phases.head?, Phase.projection.index < phase.index →
      progress.remainder = []) :
    Shrinking policy progress.remainder (run policy phases progress).completed := by
  induction phases generalizing progress with
  | nil => exact .nil
  | cons phase phases ih =>
    rw [completed_run_cons]
    cases hadvance : (progress.advance policy phase).outcome with
    | error fault => exact .nil
    | ok after =>
      have hleaves := advance_leaves htrimmed (hnil phase rfl) hadvance
      refine .cons hleaves (ih hchain.of_cons hleaves.trimmed ?_)
      -- Once the projection is done, it stays behind.
      intro following hmem hindex
      obtain ⟨others, rfl⟩ := List.head?_eq_some_iff.mp hmem
      obtain rfl := (List.isChain_cons_cons.mp hchain).1
      rw [Phase.index_next] at hindex
      exact hleaves.nil (by omega)

end Progress

/-- Where a run is refused, and with which kind of fault. -/
theorem Phase.refusal_of_all {count : Nat} {kind : FaultKind}
    (h : Phase.all[count]?.bind Phase.faultKind? = some kind) :
    (count, kind) ∈ [(1, .limit), (2, .sorting), (3, .grouping), (5, .join), (6, .select),
      (7, .criteria)] := by
  obtain ⟨phase, hphase, hkind⟩ := Option.bind_eq_some_iff.mp h
  have hcount := (List.getElem?_eq_some_iff.mp hphase).1
  rw [show Phase.all.length = 9 from rfl] at hcount
  interval_cases count <;> obtain rfl := Option.some.inj hphase <;>
    first
      | (obtain rfl := Option.some.inj hkind; decide)
      | cases hkind

/-- Whether the outline has the clause that a phase takes. -/
def Phase.clauseIn (outline : Outline) : Phase → Bool
  | distinct => outline.distinct
  | limit => outline.limit.isSome
  | sorting => outline.sortKeys.isSome
  | grouping => outline.groups.isSome
  | criteria => !outline.conditions.isEmpty
  | join => outline.join.isSome
  | _ => false

/-- Criteria are never without conditions. -/
theorem Outline.Stages.isSome_criteria {policy : Policy} {text : Text}
    (stages : Stages policy text) :
    (Criteria.detach stages.grouping.rest).value.clause.isSome = !stages.conditions.isEmpty := by
  have hconditions := stages.conditions_eq
  cases hclause : (Criteria.detach stages.grouping.rest).value.clause with
  | none =>
    rw [hclause] at hconditions
    rw [← Except.ok.inj hconditions]
    rfl
  | some criteria =>
    rw [hclause] at hconditions
    simp [Criteria.ne_nil_of_parseFrom hconditions]

/-- **The phases take the clauses of the outline.** In the run of a query that
is read a phase has taken a clause exactly if the outline has it. -/
theorem Outline.parse_takes {policy : Policy} {text : Text} {outline : Outline}
    (h : (parse policy text).outcome = .ok outline) :
    Along (fun phase before _ => phase.takes policy before = phase.clauseIn outline) (trim text)
      (parse policy text).completed := by
  obtain ⟨stages, rfl⟩ := outcome_parse_eq_ok_iff.mp h
  have hlimit : Phase.limit.takes policy (Distinct.detach (trim text)).rest =
      stages.limit.clause.isSome := by
    rw [Phase.takes, stages.limit_eq]
    rfl
  have hsorting : Phase.sorting.takes policy stages.limit.rest =
      stages.sorting.clause.isSome := by
    rw [Phase.takes, stages.sorting_eq]
    rfl
  have hgrouping : Phase.grouping.takes policy stages.sorting.rest =
      stages.grouping.clause.isSome := by
    rw [Phase.takes, stages.grouping_eq]
    rfl
  have hjoin : Phase.join.takes policy (Criteria.detach stages.grouping.rest).value.rest =
      stages.join.clause.isSome := by
    rw [Phase.takes, stages.join_eq]
    rfl
  rw [stages.completed_parse]
  exact .cons rfl (.cons hlimit (.cons hsorting (.cons hgrouping
    (.cons stages.isSome_criteria (.cons hjoin (.cons rfl (.cons rfl (.cons rfl .nil))))))))

/-- **What a run reports.** Whatever the text and the policy, the phases
that are reported as done are the first of the nine, in their order. The
text is read if and only if all nine are done, and otherwise the phase that
follows the last one done decides the kind of the fault. What is left of
the trimmed text has bare ends after each phase, it never grows and it
shrinks whenever a clause is taken off it, the phases from the sorting to
the join take their clauses off the end, and behind the projection nothing
is left. If the text is read, the clauses that are taken are those of the
outline. -/
theorem Outline.parse_reports (policy : Policy) (text : Text) :
    ∃ count ≤ 9,
      (parse policy text).completed.map Prod.fst = Phase.all.take count ∧
      ((∃ outline, (parse policy text).outcome = .ok outline) ↔ count = 9) ∧
      (∀ fault, (parse policy text).outcome = .error fault →
        (count, fault.kind) ∈ [(1, .limit), (2, .sorting), (3, .grouping), (5, .join),
          (6, .select), (7, .criteria)]) ∧
      Shrinking policy (trim text) (parse policy text).completed ∧
      ∀ outline, (parse policy text).outcome = .ok outline →
        Along (fun phase before _ => phase.takes policy before = phase.clauseIn outline) (trim text)
          (parse policy text).completed := by
  have htakes : ∀ outline, (parse policy text).outcome = .ok outline →
      Along (fun phase before _ => phase.takes policy before = phase.clauseIn outline) (trim text)
        (parse policy text).completed := fun _ => parse_takes
  obtain ⟨count, hle, hmap, hok, herror⟩ :=
    Progress.run_stops policy Phase.all (Progress.start text)
  have hshrinking : Shrinking policy (Progress.start text).remainder
      (Progress.run policy Phase.all (Progress.start text)).completed :=
    Progress.run_shrinking Phase.isChain_all (trimmed_trim text)
      fun phase hmem hindex => absurd hindex (by obtain rfl := Option.some.inj hmem; decide)
  rw [parse_eq_run, Run.completed_map, Run.outcome_map] at htakes ⊢
  refine ⟨count, hle, hmap, ?_, ?_, hshrinking, htakes⟩
  · rw [show (9 : Nat) = Phase.all.length from rfl, ← hok]
    cases (Progress.run policy Phase.all (Progress.start text)).outcome with
    | ok after => exact ⟨fun _ => ⟨after, rfl⟩, fun _ => ⟨after.outline, rfl⟩⟩
    | error cause => exact ⟨fun ⟨_, h⟩ => (nomatch h), fun ⟨_, h⟩ => (nomatch h)⟩
  · intro fault hfault
    refine Phase.refusal_of_all (herror fault ?_)
    cases hrun : (Progress.run policy Phase.all (Progress.start text)).outcome with
    | error cause =>
      rw [hrun] at hfault
      exact congrArg Except.error (Except.error.inj hfault)
    | ok after =>
      rw [hrun] at hfault
      cases hfault

/-- A query with two joins and with a limit that is not at its end. -/
def Outline.twoJoins : Text :=
  " SELECT  DISTINCT a FROM t INNER JOIN b ON b.x = t.x ".toList ++
    "LEFT JOIN c ON c.y = t.y LIMIT 5 WHERE a = 1 ".toList

/-- Five phases are done when the strict policy refuses the second join, and
the limit left one space. The count of the phases tells the kind of the
fault. -/
theorem Outline.parse_reports_second_join :
    (parse .strict twoJoins).completed =
        [ (.distinct, "SELECT a FROM t INNER JOIN b ON b.x = t.x ".toList ++
            "LEFT JOIN c ON c.y = t.y LIMIT 5 WHERE a = 1".toList),
          (.limit, "SELECT a FROM t INNER JOIN b ON b.x = t.x ".toList ++
            "LEFT JOIN c ON c.y = t.y WHERE a = 1".toList),
          (.sorting, "SELECT a FROM t INNER JOIN b ON b.x = t.x ".toList ++
            "LEFT JOIN c ON c.y = t.y WHERE a = 1".toList),
          (.grouping, "SELECT a FROM t INNER JOIN b ON b.x = t.x ".toList ++
            "LEFT JOIN c ON c.y = t.y WHERE a = 1".toList),
          (.criteria, "SELECT a FROM t INNER JOIN b ON b.x = t.x ".toList ++
            "LEFT JOIN c ON c.y = t.y".toList) ] ∧
      ∃ fault, (parse .strict twoJoins).outcome = .error fault ∧ fault.kind = .join := by
  refine ⟨by decide +kernel, ?_⟩
  have hlength : (parse .strict twoJoins).completed.length = 5 := by decide +kernel
  obtain ⟨count, hle, hphases, hok, hfault, -⟩ := parse_reports .strict twoJoins
  have hcount : count = 5 := by
    have h := congrArg List.length hphases
    rw [List.length_map, hlength, List.length_take] at h
    change 5 = min count 9 at h
    omega
  subst hcount
  cases houtcome : (parse .strict twoJoins).outcome with
  | ok outline => exact absurd (hok.mp ⟨outline, houtcome⟩) (by decide)
  | error fault =>
    refine ⟨fault, rfl, ?_⟩
    simpa using hfault fault houtcome

end SelectOutline
