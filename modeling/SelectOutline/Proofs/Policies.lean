/-
SelectOutline.Proofs.Policies — a stricter policy only refuses.

The policy is asked in two places, once for the direction of a sort key
and once for the text behind a join. In both it decides whether the
phase is refused and never what the phase gives, so that a query is read
the same way under every policy that reads it (`Stricter`).

The default policy reports what the join phase would have been refused
for (`Dropped`), and no other phase reports it.
-/
import SelectOutline.Proofs.Joins
import SelectOutline.Proofs.Reports
import SelectOutline.Proofs.Stages

namespace SelectOutline

open Text

/-! ## 1. A stricter reading -/

/-- `x` is a stricter reading of what `y` reads: it gives the same or,
where there is `Cause` for it, is refused with a fault of kind `kind`. -/
structure Stricter {α : Type} (kind : FaultKind) (Cause : α → Prop) (x y : Except Fault α) :
    Prop where
  sound : ∀ a, x = .ok a → y = .ok a
  refused : ∀ a, y = .ok a → Cause a → ∃ fault, x = .error fault ∧ fault.kind = kind
  same : ∀ a, y = .ok a → ¬ Cause a → x = .ok a

namespace Stricter

variable {α β : Type} {kind : FaultKind}

/-- What the policy does not matter to. -/
theorem refl {Cause : α → Prop} {x : Except Fault α} (h : ∀ a, x = .ok a → ¬ Cause a) :
    Stricter kind Cause x x where
  sound _ hx := hx
  refused a hx hcause := absurd hcause (h a hx)
  same _ hx _ := hx

variable {x y : Except Fault α} {f g : α → Except Fault β}

/-- What is refused for a cause. -/
theorem of_cause {Cause : α → Prop} {fault : Fault} {a : α} (hx : x = .error fault)
    (hkind : fault.kind = kind) (hy : y = .ok a) (h : Cause a) : Stricter kind Cause x y := by
  subst hx hy
  refine ⟨fun _ hx => (nomatch hx), fun _ _ _ => ⟨fault, rfl, hkind⟩, ?_⟩
  intro b hb hcause
  obtain rfl := Except.ok.inj hb
  exact absurd h hcause

/-- One after the other: there is cause to refuse the whole if there is
for one of the two steps. -/
theorem bind {C : α → Prop} {D : α → β → Prop} {E : β → Prop} (h : Stricter kind C x y)
    (hfg : ∀ a, Stricter kind (D a) (f a) (g a))
    (hE : ∀ a b, g a = .ok b → (E b ↔ C a ∨ D a b)) :
    Stricter kind E (x >>= f) (y >>= g) := by
  refine ⟨?_, ?_, ?_⟩
  · intro b hb
    obtain ⟨a, hx, hf⟩ := Except.bind_eq_ok_iff.mp hb
    exact Except.bind_eq_ok_iff.mpr ⟨a, h.sound a hx, (hfg a).sound b hf⟩
  · intro b hb hcause
    obtain ⟨a, hy, hg⟩ := Except.bind_eq_ok_iff.mp hb
    by_cases hC : C a
    · obtain ⟨fault, hx, hkind⟩ := h.refused a hy hC
      exact ⟨fault, by rw [hx]; rfl, hkind⟩
    · have hD := ((hE a b hg).mp hcause).resolve_left hC
      obtain ⟨fault, hf, hkind⟩ := (hfg a).refused b hg hD
      exact ⟨fault, by rw [h.same a hy hC]; exact hf, hkind⟩
  · intro b hb hcause
    obtain ⟨a, hy, hg⟩ := Except.bind_eq_ok_iff.mp hb
    rw [hE a b hg, not_or] at hcause
    exact Except.bind_eq_ok_iff.mpr ⟨a, h.same a hy hcause.1, (hfg a).same b hg hcause.2⟩

/-- What is done with the result has no part in it. -/
theorem map {C : α → Prop} {E : β → Prop} (h : Stricter kind C x y) {f : α → β}
    (hE : ∀ a, E (f a) ↔ C a) : Stricter kind E (x.map f) (y.map f) := by
  have := h.bind (f := fun a => .ok (f a)) (g := fun a => .ok (f a)) (D := fun _ _ => False)
    (fun a => refl fun _ _ => id) (E := E)
    (fun a b hb => by obtain rfl := Except.ok.inj hb; simp [hE])
  cases x <;> cases y <;> exact this

/-- Entry by entry: there is cause to refuse a list if there is for one
of its entries. -/
theorem mapM {γ : Type} {C : α → Prop} {f g : γ → Except Fault α}
    (h : ∀ c, Stricter kind C (f c) (g c)) (list : List γ) :
    Stricter kind (fun results => ∃ a ∈ results, C a) (list.mapM f) (list.mapM g) := by
  induction list with
  | nil => exact refl fun results hresults => by obtain rfl := Except.ok.inj hresults; simp
  | cons c list ih =>
    rw [List.mapM_cons, List.mapM_cons]
    refine (h c).bind (D := fun _ results => ∃ b ∈ results.tail, C b) (fun a => ?_) ?_
    · exact ih.bind (D := fun _ _ => False) (fun others => refl fun _ _ => id)
        fun others results hresults => by obtain rfl := Except.ok.inj hresults; simp
    · intro a results hresults
      obtain ⟨others, -, hcons⟩ := Except.bind_eq_ok_iff.mp hresults
      obtain rfl := Except.ok.inj hcons
      simp

end Stricter

/-! ## 2. Directions -/

/-- A sort key with another direction than the two usual ones. -/
def SortKey.Unusual (key : SortKey) : Prop :=
  ∃ word, key.direction = .other word

theorem SortKey.stricter_parse (policy : Policy) (entry : Text) :
    Stricter .sorting (fun key => policy.directions = .strict ∧ key.Unusual)
      (SortKey.parse policy entry) (SortKey.parse {} entry) := by
  have husual : ∀ (field : Text) (direction : Direction), (∀ word, direction ≠ .other word) →
      Stricter .sorting (fun key : SortKey => policy.directions = .strict ∧ key.Unusual)
        (.ok ⟨field, direction⟩) (.ok ⟨field, direction⟩) := by
    intro field direction hdirection
    refine .refl fun key hkey => ?_
    obtain rfl := Except.ok.inj hkey
    rintro ⟨-, word, hword⟩
    exact hdirection word hword
  rw [parse, parse]
  match words entry with
  | [] => exact .refl fun key hkey => nomatch hkey
  | [field] => exact husual field .ascending fun _ => Direction.noConfusion
  | field :: word :: others =>
    simp only
    cases hdirection : Direction.ofText word with
    | ascending => exact husual field .ascending fun _ => Direction.noConfusion
    | descending => exact husual field .descending fun _ => Direction.noConfusion
    | other direction =>
      cases hpolicy : policy.directions with
      | strict =>
        refine .of_cause rfl rfl rfl ?_
        exact ⟨rfl, direction, rfl⟩
      | lenient => exact .refl fun key _ h => nomatch h.1

theorem Sorting.stricter_detach (policy : Policy) (text : Text) :
    Stricter .sorting
      (fun sorting => policy.directions = .strict ∧
        ∃ keys ∈ sorting.clause, ∃ key ∈ keys, key.Unusual)
      (Sorting.detach policy text).outcome (Sorting.detach {} text).outcome := by
  rw [Sorting.outcome_detach, Sorting.outcome_detach]
  cases Keyword.find [kwOrderBy] text 0 with
  | none => exact .refl fun sorting h => by obtain rfl := Except.ok.inj h; simp
  | some hit =>
    exact (Stricter.mapM (SortKey.stricter_parse policy) _).map fun keys => by
      simp [and_left_comm]

/-! ## 3. Dropped joins -/

/-- The events report that text behind a join was dropped. -/
def Dropped (events : List Event) : Prop :=
  ∃ ignored, Event.joinsDropped ignored ∈ events

namespace Dropped

@[simp] theorem nil_iff : Dropped [] ↔ False := by
  simp [Dropped]

@[simp] theorem append_iff {events events' : List Event} :
    Dropped (events ++ events') ↔ Dropped events ∨ Dropped events' := by
  simp [Dropped, exists_or]

@[simp] theorem report_iff {phase : Phase} {remainder : Text} :
    Dropped (Outline.report phase remainder).events ↔ False := by
  simp [Dropped, Outline.report, emit]

/-- A run that goes on reports what its parts report. -/
theorem bind_iff {α β : Type} {x : Run α} {f : α → Run β} :
    Dropped (x >>= f).events ↔
      Dropped x.events ∨ ∃ a, x.outcome = .ok a ∧ Dropped (f a).events := by
  rw [Run.events_bind, append_iff]
  cases x.outcome <;> simp

end Dropped

/-- Who reports keywords only does not report dropped text. -/
theorem KeywordsOnly.not_dropped {events : List Event} (h : KeywordsOnly events) :
    ¬ Dropped events := by
  rintro ⟨ignored, hmem⟩
  obtain ⟨hit, hhit⟩ := h _ hmem
  cases hhit

/-! ## 4. Joins -/

/-- The join phase drops text exactly if a join keyword stands behind the
join. -/
theorem Join.dropped_iff (text : Text) :
    Dropped (Join.detach {} text).events ↔
      ∃ span further, Join.find text = some span ∧
        Keyword.find kwJoins text span.stop = some further := by
  rw [Join.detach, Dropped.bind_iff, Run.events_lift]
  simp only [(keywordsOnly_locateFrom text _).not_dropped, locate, false_or, Run.outcome_lift,
    Except.ok.injEq]
  constructor
  · rintro ⟨found, hfind, h⟩
    cases found with
    | none => simp at h
    | some span =>
      simp only at h
      rw [Dropped.bind_iff, Run.events_lift] at h
      obtain h | ⟨further, hfurther, h⟩ := h
      · exact absurd h (KeywordsOnly.search kwJoins text span.stop).not_dropped
      · cases further with
        | none => simp at h
        | some further => exact ⟨span, further, hfind, Except.ok.inj hfurther⟩
  · rintro ⟨span, further, hfind, hfurther⟩
    refine ⟨some span, hfind, Dropped.bind_iff.mpr (.inr ⟨some further, ?_, ?_⟩)⟩
    · rw [Run.outcome_lift, value_search, hfurther]
    · refine Dropped.bind_iff.mpr (.inl ⟨text.drop further.start, ?_⟩)
      simp [emit]

theorem Join.stricter_detach (policy : Policy) (text : Text) :
    Stricter .join (fun _ => policy.joins = .refuse ∧ Dropped (Join.detach {} text).events)
      (Join.detach policy text).outcome (Join.detach {} text).outcome := by
  rw [Join.outcome_detach, Join.outcome_detach, Join.dropped_iff]
  cases Join.find text with
  | none => exact .refl fun _ _ h => by simp at h
  | some span =>
    simp only [Option.some.injEq, exists_and_left, exists_eq_left']
    cases Keyword.find kwJoins text span.stop with
    | none => cases policy.joins <;> exact .refl fun _ _ h => by simp at h
    | some further =>
      cases policy.joins with
      | keepFirst => exact .refl fun _ _ h => nomatch h.1
      | refuse =>
        refine .of_cause rfl rfl rfl ?_
        exact ⟨rfl, further, rfl⟩

/-! ## 5. The query -/

/-- The text that the join phase reads, under the default policy. -/
def Outline.joinSource (text : Text) : Except Fault Text := do
  let limit ← (Limit.detach (Distinct.detach (trim text)).rest).outcome
  let sorting ← (Sorting.detach {} limit.rest).outcome
  let grouping ← (Grouping.detach sorting.rest).outcome
  return (Criteria.detach grouping.rest).value.rest

/-- Of all phases only the join phase reports dropped joins. -/
theorem Outline.dropped_parse {text source : Text} (hsource : Outline.joinSource text = .ok source) :
    Dropped (Outline.parse {} text).events ↔ Dropped (Join.detach {} source).events := by
  obtain ⟨limit, hlimit, h⟩ := Except.bind_eq_ok_iff.mp hsource
  obtain ⟨sorting, hsorting, h⟩ := Except.bind_eq_ok_iff.mp h
  obtain ⟨grouping, hgrouping, h⟩ := Except.bind_eq_ok_iff.mp h
  obtain rfl := Except.ok.inj h
  have hlimit' := fun text => (Limit.keywordsOnly text).not_dropped
  have hsorting' := fun text => (Sorting.keywordsOnly {} text).not_dropped
  have hgrouping' := fun text => (Grouping.keywordsOnly text).not_dropped
  have hcriteria' := fun text => (Criteria.keywordsOnly_detach text).not_dropped
  have hprojection' := fun text => (Projection.keywordsOnly text).not_dropped
  have hconditions' := fun clause => (Criteria.keywordsOnly_elim clause).not_dropped
  simp only [Outline.parse, Dropped.bind_iff, Run.events_lift, Run.events_pure, Run.outcome_lift,
    Dropped.report_iff, Dropped.nil_iff, Except.ok.injEq, exists_eq_left', false_or, hlimit',
    hsorting', hgrouping', hcriteria', hprojection', hconditions', hlimit, hsorting, hgrouping,
    and_false, exists_false, or_false, true_and, exists_const]

/-- Some sort key has another direction than the two usual ones. -/
def Outline.HasUnusualKey (outline : Outline) : Prop :=
  ∃ keys ∈ outline.sortKeys, ∃ key ∈ keys, key.Unusual

theorem Outline.Stages.joinSource_eq {text : Text} (stages : Stages {} text) :
    Outline.joinSource text = .ok (Criteria.detach stages.grouping.rest).value.rest :=
  Except.bind_eq_ok_iff.mpr ⟨_, stages.limit_eq, Except.bind_eq_ok_iff.mpr ⟨_, stages.sorting_eq,
    Except.bind_eq_ok_iff.mpr ⟨_, stages.grouping_eq, rfl⟩⟩⟩

theorem Outline.outcome_parse_default {policy : Policy} {text : Text} {outline : Outline}
    (h : (Outline.parse policy text).outcome = .ok outline) :
    (Outline.parse {} text).outcome = .ok outline := by
  obtain ⟨stages, rfl⟩ := Outline.outcome_parse_eq_ok_iff.mp h
  have hsorting := (Sorting.stricter_detach policy _).sound _ stages.sorting_eq
  have hjoin := (Join.stricter_detach policy _).sound _ stages.join_eq
  exact Outline.outcome_parse_eq_ok_iff.mpr
    ⟨{ stages with sorting_eq := hsorting, join_eq := hjoin }, rfl⟩

/-- What a policy does with a query that is read by default. -/
theorem Outline.outcome_parse_policy (policy : Policy) {text : Text} {outline : Outline}
    (h : (Outline.parse {} text).outcome = .ok outline) :
    (policy.directions = .strict ∧ outline.HasUnusualKey ∧
      ∃ fault, (Outline.parse policy text).outcome = .error fault ∧ fault.kind = .sorting) ∨
    ¬ (policy.directions = .strict ∧ outline.HasUnusualKey) ∧
      (policy.joins = .refuse ∧ Dropped (Outline.parse {} text).events ∧
        (∃ fault, (Outline.parse policy text).outcome = .error fault ∧ fault.kind = .join) ∨
      ¬ (policy.joins = .refuse ∧ Dropped (Outline.parse {} text).events) ∧
        (Outline.parse policy text).outcome = .ok outline) := by
  obtain ⟨stages, rfl⟩ := Outline.outcome_parse_eq_ok_iff.mp h
  have hsort := Sorting.stricter_detach policy stages.limit.rest
  have hdetach := Join.stricter_detach policy (Criteria.detach stages.grouping.rest).value.rest
  rw [Outline.dropped_parse stages.joinSource_eq]
  by_cases hunusual : policy.directions = .strict ∧ stages.outline.HasUnusualKey
  · obtain ⟨fault, hfault, hkind⟩ := hsort.refused _ stages.sorting_eq hunusual
    refine .inl ⟨hunusual.1, hunusual.2, fault, ?_, hkind⟩
    rw [Outline.outcome_parse]
    exact Except.bind_eq_error_iff.mpr (.inr ⟨_, stages.limit_eq,
      Except.bind_eq_error_iff.mpr (.inl hfault)⟩)
  refine .inr ⟨hunusual, ?_⟩
  have hsame := hsort.same _ stages.sorting_eq hunusual
  by_cases hdropped : policy.joins = .refuse ∧
      Dropped (Join.detach {} (Criteria.detach stages.grouping.rest).value.rest).events
  · obtain ⟨fault, hfault, hkind⟩ := hdetach.refused _ stages.join_eq hdropped
    refine .inl ⟨hdropped.1, hdropped.2, fault, ?_, hkind⟩
    rw [Outline.outcome_parse]
    exact Except.bind_eq_error_iff.mpr (.inr ⟨_, stages.limit_eq,
      Except.bind_eq_error_iff.mpr (.inr ⟨_, hsame,
        Except.bind_eq_error_iff.mpr (.inr ⟨_, stages.grouping_eq,
          Except.bind_eq_error_iff.mpr (.inl hfault)⟩)⟩)⟩)
  · refine .inr ⟨hdropped, Outline.outcome_parse_eq_ok_iff.mpr ⟨{ stages with
      sorting_eq := hsame, join_eq := hdetach.same _ stages.join_eq hdropped }, rfl⟩⟩

/-- The warning of dropped joins tells of a join and of a join keyword
outside literals behind it. -/
theorem Outline.dropped_iff {text : Text} {outline : Outline}
    (h : (Outline.parse {} text).outcome = .ok outline) :
    Dropped (Outline.parse {} text).events ↔
      ∃ source span position, Outline.joinSource text = .ok source ∧
        Join.find source = some span ∧ outline.join = some span.join ∧
          Keyword.Stands kwJoins source span.stop position := by
  obtain ⟨stages, rfl⟩ := Outline.outcome_parse_eq_ok_iff.mp h
  have hsource := stages.joinSource_eq
  rw [Outline.dropped_parse hsource, Join.dropped_iff]
  constructor
  · rintro ⟨span, further, hspan, hfurther⟩
    obtain ⟨position, hstands⟩ :=
      (Keyword.isSome_find_iff regular_joins).mp (Option.isSome_of_eq_some hfurther)
    refine ⟨_, span, position, hsource, hspan, ?_, hstands⟩
    have hjoin := stages.join_eq
    rw [Join.outcome_detach] at hjoin
    simp only [hspan] at hjoin
    rw [Outline.Stages.outline, ← Except.ok.inj hjoin]
  · rintro ⟨source, span, position, hsource', hspan, -, hstands⟩
    obtain rfl := Except.ok.inj (hsource'.symm.trans hsource)
    obtain ⟨further, hfurther⟩ := Option.isSome_iff_exists.mp
      ((Keyword.isSome_find_iff regular_joins).mpr ⟨position, hstands⟩)
    exact ⟨span, further, hspan, hfurther⟩

/-- **A stricter policy only refuses.** What it reads is read the same way
by default; and of what is read by default it refuses a query for the
direction of a sort key, else for text that is dropped behind the join,
and otherwise reads it the same way. -/
theorem Outline.parse_policy (policy : Policy) (text : Text) :
    (∀ outline, (Outline.parse policy text).outcome = .ok outline →
      (Outline.parse {} text).outcome = .ok outline) ∧
    ∀ outline, (Outline.parse {} text).outcome = .ok outline →
      ((∃ fault, (Outline.parse policy text).outcome = .error fault ∧ fault.kind = .sorting) ↔
        policy.directions = .strict ∧ outline.HasUnusualKey) ∧
      (¬ (policy.directions = .strict ∧ outline.HasUnusualKey) →
        ((∃ fault, (Outline.parse policy text).outcome = .error fault ∧ fault.kind = .join) ↔
          policy.joins = .refuse ∧ Dropped (Outline.parse {} text).events) ∧
        (¬ (policy.joins = .refuse ∧ Dropped (Outline.parse {} text).events) →
          (Outline.parse policy text).outcome = .ok outline)) ∧
      (Dropped (Outline.parse {} text).events ↔
        ∃ source span position, Outline.joinSource text = .ok source ∧
          Join.find source = some span ∧ outline.join = some span.join ∧
            Keyword.Stands kwJoins source span.stop position) := by
  refine ⟨fun outline => Outline.outcome_parse_default, fun outline h => ?_⟩
  rw [← Outline.dropped_iff h]
  rcases Outline.outcome_parse_policy policy h with
    ⟨hstrict, hunusual, hfault⟩ | ⟨husual, ⟨hrefuse, hdropped, fault, hfault, hkind⟩ | ⟨hkept, hok⟩⟩
  · refine ⟨iff_of_true hfault ⟨hstrict, hunusual⟩, ?_, Iff.rfl⟩
    intro husual
    exact absurd ⟨hstrict, hunusual⟩ husual
  · have hsorting : ¬ ∃ fault, (Outline.parse policy text).outcome = .error fault ∧
        fault.kind = .sorting := by
      rintro ⟨fault', hfault', hkind'⟩
      obtain rfl := Except.error.inj (hfault.symm.trans hfault')
      rw [hkind] at hkind'
      cases hkind'
    refine ⟨iff_of_false hsorting husual, fun _ => ⟨?_, ?_⟩, Iff.rfl⟩
    · exact iff_of_true ⟨fault, hfault, hkind⟩ ⟨hrefuse, hdropped⟩
    · intro hkept
      exact absurd ⟨hrefuse, hdropped⟩ hkept
  · have hnone : ∀ kind, ¬ ∃ fault, (Outline.parse policy text).outcome = .error fault ∧
        fault.kind = kind := by
      rintro kind ⟨fault, hfault, -⟩
      rw [hok] at hfault
      cases hfault
    exact ⟨iff_of_false (hnone _) husual, fun _ => ⟨iff_of_false (hnone _) hkept, fun _ => hok⟩,
      Iff.rfl⟩

/-- A query that both rules have something against: the direction is
refused first, and where any direction may stand the join is. -/
theorem Outline.parse_policy_two_joins :
    ∃ outline,
      (Outline.parse {} ("SELECT a FROM t INNER JOIN b ON b.x = t.x LEFT JOIN c ON c.y = t.y " ++
        "ORDER BY a up").toList).outcome = .ok outline ∧
      outline.HasUnusualKey ∧
      (∃ fault, (Outline.parse .strict ("SELECT a FROM t INNER JOIN b ON b.x = t.x " ++
        "LEFT JOIN c ON c.y = t.y ORDER BY a up").toList).outcome = .error fault ∧
          fault.kind = .sorting) ∧
      ∃ fault, (Outline.parse { joins := .refuse } ("SELECT a FROM t INNER JOIN b ON b.x = t.x " ++
        "LEFT JOIN c ON c.y = t.y ORDER BY a up").toList).outcome = .error fault ∧
          fault.kind = .join := by
  have hparse : (Outline.parse {} ("SELECT a FROM t INNER JOIN b ON b.x = t.x " ++
      "LEFT JOIN c ON c.y = t.y ORDER BY a up").toList).outcome = .ok
        { fields := ["a".toList]
          table := "t".toList
          conditions := []
          join := some ⟨.inner, "b".toList, "b.x".toList, "t.x".toList⟩
          groups := none
          ungroupedAggregate := false
          sortKeys := some [⟨"a".toList, .other "UP".toList⟩]
          limit := none
          distinct := false } := by
    decide +kernel
  have hdropped : Dropped (Outline.parse {} ("SELECT a FROM t INNER JOIN b ON b.x = t.x " ++
      "LEFT JOIN c ON c.y = t.y ORDER BY a up").toList).events :=
    ⟨"LEFT JOIN c ON c.y = t.y".toList, by decide +kernel⟩
  refine ⟨_, hparse, ⟨_, rfl, _, List.mem_singleton_self _, _, rfl⟩, ?_, ?_⟩
  · exact ((Outline.parse_policy .strict _).2 _ hparse).1.mpr
      ⟨rfl, _, rfl, _, List.mem_singleton_self _, _, rfl⟩
  · have husual : ¬ ({ joins := .refuse } : Policy).directions = .strict := by decide
    exact (((Outline.parse_policy { joins := .refuse } _).2 _ hparse).2.1
      fun h => husual h.1).1.mpr ⟨rfl, hdropped⟩

end SelectOutline
