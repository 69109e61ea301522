/-
SelectOutline.Proofs.Noninterference — literals do not decide how a
query is read.

Two queries of the same shape are read side by side, phase by phase.
Each phase is refused for both with the same kind of fault, or it gives
results of the same structure and leaves texts of the same shape.

One phase needs a condition for that. The search for the `ON` of a join
begins two characters behind the join keyword, and it begins inside a
literal if one blank and a quote stand there; what it then finds depends
on the text of the literal. `JoinsPlain` excludes this. A query without
join keywords may still not satisfy it, as taking out the limit can
bring two words of a join keyword together: `sameOutcome_parse_glued`.
-/
import SelectOutline.Proofs.Decomposition
import SelectOutline.Proofs.Likeness
import SelectOutline.Proofs.Words

namespace SelectOutline

open Text

/-! ## 1. Outcomes side by side -/

/-- Two outcomes that are both results, and then related, or both faults,
and then of the same kind. -/
def SameOutcome {α β : Type} (R : α → β → Prop) : Except Fault α → Except Fault β → Prop
  | .ok a, .ok b => R a b
  | .error fault, .error fault' => fault.kind = fault'.kind
  | _, _ => False

namespace SameOutcome

variable {α β γ δ : Type} {R : α → β → Prop} {S : γ → δ → Prop} {x : Except Fault α}
  {y : Except Fault β}

theorem bind (h : SameOutcome R x y) {f : α → Except Fault γ} {g : β → Except Fault δ}
    (hfg : ∀ a b, x = .ok a → R a b → SameOutcome S (f a) (g b)) :
    SameOutcome S (x >>= f) (y >>= g) := by
  cases x with
  | ok a =>
    cases y with
    | ok b => exact hfg a b rfl h
    | error fault => exact h.elim
  | error fault =>
    cases y with
    | ok b => exact h.elim
    | error fault' => exact h

theorem map (h : SameOutcome R x y) {f : α → γ} {g : β → δ} (hfg : ∀ a b, R a b → S (f a) (g b)) :
    SameOutcome S (x.map f) (y.map g) := by
  cases x with
  | ok a =>
    cases y with
    | ok b => exact hfg a b h
    | error fault => exact h.elim
  | error fault =>
    cases y with
    | ok b => exact h.elim
    | error fault' => exact h

end SameOutcome

/-- Two clauses with the same key, taken off texts of the same shape. -/
structure Detached.Agree {α κ : Type} (key : α → κ) (a b : Detached α) : Prop where
  clause_eq : key a.clause = key b.clause
  rest : SameShape a.rest b.rest

/-! ## 2. The start of a query and the limit -/

theorem Keyword.Opening.closed_take {keyword : Keyword} {word : Text} (h : keyword.Opening word)
    {before : Option Char} {text : Text} (hsees : (keyword.matchHere before text).isSome = true) :
    Closed (text.take word.length) ∧ Closed (text.take (word.length + 1)) := by
  obtain ⟨length, hmatch⟩ := Option.isSome_iff_exists.mp hsees
  obtain ⟨s, rest, rfl, hs, -, hblank⟩ := h.matchHere_eq_some_iff.mp hmatch
  have hlength : s.length = word.length := by rw [← hs, List.length_map]
  have hunquoted : Unquoted s := by
    have hw := h.lettered
    rw [h.words_eq] at hw
    exact (Keyword.Spells.single hs).unquoted hw
  cases rest with
  | nil => cases hblank
  | cons b rest =>
    have hb : Unquoted [b] := by
      intro c hc
      rw [List.mem_singleton.mp hc]
      exact isQuote_of_isBlank hblank
    constructor
    · rw [List.take_left' hlength]
      exact hunquoted.closed
    · have htake : (s ++ b :: rest).take (word.length + 1) = s ++ [b] := by
        rw [List.take_add, List.take_left' hlength, List.drop_left' hlength]
        rfl
      rw [htake]
      exact (hunquoted.append hb).closed

theorem Distinct.agree {s s' : Text} (h : SameShape s s') :
    (Distinct.detach s).Agree id (Distinct.detach s') := by
  rw [Distinct.detach_eq, Distinct.detach_eq,
    ← Keyword.matchHere_eq opening_select.lettered h.alike]
  cases hselect : (kwSelect.matchHere none s).isSome with
  | false => exact ⟨rfl, h⟩
  | true =>
    have hsecond : SameShape (trimStart (s.drop 6)) (trimStart (s'.drop 6)) :=
      (h.drop (opening_select.closed_take hselect).1).trimStart
    rw [← Keyword.matchHere_eq opening_distinct.lettered hsecond.alike]
    cases hdistinct : (kwDistinct.matchHere none (trimStart (s.drop 6))).isSome with
    | false => exact ⟨rfl, h⟩
    | true =>
      have hthird : SameShape (trimStart ((trimStart (s.drop 6)).drop 8))
          (trimStart ((trimStart (s'.drop 6)).drop 8)) :=
        (hsecond.drop (opening_distinct.closed_take hdistinct).1).trimStart
      exact ⟨rfl, (SameShape.refl (by decide)).append hthird⟩

theorem isDigit_of_isQuote (c : Char) (h : isQuote c = true) : isDigit c = false := by
  rw [isQuote, Bool.or_eq_true, beq_iff_eq, beq_iff_eq] at h
  rcases h with rfl | rfl
  · decide
  · decide

theorem Limit.sameOutcome_detachFrom {s s' : Text} (h : SameShape s s') {hits : List Hit}
    (hhits : ∀ hit ∈ hits, Closed (s.take hit.start) ∧ Closed (s.take hit.stop)) :
    SameOutcome (Detached.Agree id) (Limit.detachFrom s hits).outcome
      (Limit.detachFrom s' hits).outcome := by
  induction hits with
  | nil => exact ⟨rfl, h⟩
  | cons hit hits ih =>
    obtain ⟨hstart, hstop⟩ := hhits hit (by simp)
    have hcursor : Cursor.Alike s s' ⟨s, hit.stop⟩ ⟨s', hit.stop⟩ := ⟨h, rfl, rfl, rfl, hstop⟩
    have hread := hcursor.skipBlanks.readRun isDigit_of_isQuote
    rw [Limit.outcome_detachFrom_cons, Limit.outcome_detachFrom_cons, Cursor.readDigits,
      Cursor.readDigits]
    generalize (Cursor.mk s hit.stop).skipBlanks.readRun isDigit = read at hread ⊢
    generalize (Cursor.mk s' hit.stop).skipBlanks.readRun isDigit = read' at hread ⊢
    cases hread with
    | none => exact ih fun other hmem => hhits other (by simp [hmem])
    | @some x y hxy =>
      obtain ⟨digits, after⟩ := x
      obtain ⟨digits', after'⟩ := y
      obtain ⟨rfl, hafter⟩ := hxy
      have hposition : after.position = after'.position := hafter.position_eq
      simp only [← hposition]
      split
      · exact ⟨rfl, h.cut hstart hafter.closed⟩
      · rfl

theorem Limit.sameOutcome {s s' : Text} (h : SameShape s s') :
    SameOutcome (Detached.Agree id) (Limit.detach s).outcome (Limit.detach s').outcome := by
  rw [Limit.detach, Limit.detach, ← h.findAll_eq regular_limit.single (closed_take_zero s)]
  exact Limit.sameOutcome_detachFrom h fun hit hmem =>
    Keyword.closed_of_findAll regular_limit.single (closed_take_zero s) hmem

/-! ## 3. Clauses at the end -/

theorem SortKey.sameOutcome {s s' : Text} (h : SameShape s s') :
    SameOutcome (fun _ _ => True) (SortKey.parse {} s) (SortKey.parse {} s') := by
  have hwords : words s = [] ↔ words s' = [] := by
    rw [words_eq_nil_iff, words_eq_nil_iff, ← trim_eq_nil_iff, ← trim_eq_nil_iff,
      h.trim.eq_nil_iff]
  -- With any word at all an entry is read.
  have hread : ∀ {entry : Text}, words entry ≠ [] → ∃ key, SortKey.parse {} entry = .ok key := by
    intro entry hne
    unfold SortKey.parse
    split
    · contradiction
    · exact ⟨_, rfl⟩
    · split
      · next heq => cases heq
      · exact ⟨_, rfl⟩
  by_cases hnil : words s = []
  · simp only [SortKey.parse, hnil, hwords.mp hnil]
    rfl
  · obtain ⟨key, hkey⟩ := hread hnil
    obtain ⟨key', hkey'⟩ := hread fun hnil' => hnil (hwords.mpr hnil')
    rw [hkey, hkey']
    trivial

theorem Sorting.sameOutcome_mapM {l l' : List Text} (h : List.Forall₂ SameShape l l') :
    SameOutcome (fun keys keys' => keys.length = keys'.length) (l.mapM (SortKey.parse {}))
      (l'.mapM (SortKey.parse {})) := by
  induction h with
  | nil => rfl
  | cons hentry _ ih =>
    rw [List.mapM_cons, List.mapM_cons]
    refine (SortKey.sameOutcome hentry).bind fun key key' _ _ => ?_
    refine ih.bind fun keys keys' _ hlength => ?_
    exact congrArg (· + 1) hlength

theorem Sorting.sameOutcome {s s' : Text} (h : SameShape s s') :
    SameOutcome (Detached.Agree (Option.map List.length)) (Sorting.detach {} s).outcome
      (Sorting.detach {} s').outcome := by
  rw [Sorting.outcome_detach, Sorting.outcome_detach,
    ← h.find_eq regular_orderBy.single (closed_take_zero s)]
  cases hfind : Keyword.find [kwOrderBy] s 0 with
  | none => exact ⟨rfl, h⟩
  | some hit =>
    obtain ⟨hstart, hstop⟩ :=
      Keyword.closed_of_find regular_orderBy.single (closed_take_zero s) hfind
    refine (Sorting.sameOutcome_mapM (h.drop hstop).trim.entries).map fun keys keys' hlength => ?_
    exact ⟨congrArg some hlength, (h.take hstart).trimEnd⟩

theorem any_isEmpty_eq {l l' : List Text} (h : List.Forall₂ SameShape l l') :
    l.any List.isEmpty = l'.any List.isEmpty := by
  induction h with
  | nil => rfl
  | cons hentry _ ih => rw [List.any_cons, List.any_cons, hentry.isEmpty_eq, ih]

theorem Grouping.sameOutcome {s s' : Text} (h : SameShape s s') :
    SameOutcome (Detached.Agree (Option.map List.length)) (Grouping.detach s).outcome
      (Grouping.detach s').outcome := by
  rw [Grouping.outcome_detach, Grouping.outcome_detach,
    ← h.find_eq regular_groupBy.single (closed_take_zero s)]
  cases hfind : Keyword.find [kwGroupBy] s 0 with
  | none => exact ⟨rfl, h⟩
  | some hit =>
    obtain ⟨hstart, hstop⟩ :=
      Keyword.closed_of_find regular_groupBy.single (closed_take_zero s) hfind
    have hentries := (h.drop hstop).trim.entries
    simp only [any_isEmpty_eq hentries]
    split
    · rfl
    · exact ⟨congrArg some hentries.length_eq, (h.take hstart).trimEnd⟩

theorem Criteria.agree {s s' : Text} (h : SameShape s s') :
    Option.Rel SameShape (Criteria.detach s).value.clause (Criteria.detach s').value.clause ∧
      SameShape (Criteria.detach s).value.rest (Criteria.detach s').value.rest := by
  rw [Criteria.value_detach, Criteria.value_detach,
    ← h.find_eq regular_where.single (closed_take_zero s)]
  cases hfind : Keyword.find [kwWhere] s 0 with
  | none => exact ⟨.none, h⟩
  | some hit =>
    obtain ⟨hstart, hstop⟩ :=
      Keyword.closed_of_find regular_where.single (closed_take_zero s) hfind
    have hcriteria := (h.drop hstop).trim
    refine ⟨?_, (h.take hstart).trim⟩
    simp only [hcriteria.isEmpty_eq]
    split
    · exact .none
    · exact .some hcriteria

/-! ## 4. The join -/

/-- No join keyword outside literals is followed by one blank and a
literal. -/
def JoinsPlain (text : Text) : Prop :=
  ∀ before spelled after b c, text = before ++ spelled ++ b :: c :: after → Closed before →
    before.getLast?.any isBlank = true → isBlank b = true →
    (∃ keyword ∈ kwJoins, Keyword.Spells keyword.words spelled) → isQuote c = false

theorem JoinsPlain.of_append {s t : Text} (h : JoinsPlain (s ++ t)) : JoinsPlain s := by
  rintro before spelled after b c rfl
  exact h before spelled (after ++ t) b c (by simp)

theorem joinsPlain_of_absent {text : Text} (h : Keyword.Absent kwJoins text) :
    JoinsPlain text := by
  rintro before spelled after b c rfl hclosed hbefore hb ⟨keyword, hmem, hspells⟩
  have hregular := regular_joins keyword hmem
  have hnone := h before.length
    (by rw [List.append_assoc, List.take_left]; exact hclosed) keyword hmem
  rw [List.append_assoc, Keyword.matchAt_append] at hnone
  have hsome := (Keyword.matchHere_eq_some_iff hregular.lettered.bare).mpr
    ⟨fun _ => hbefore, spelled, b :: c :: after, rfl, hspells, rfl, fun _ => hb⟩
  rw [hnone] at hsome
  cases hsome

/-- The search for `ON` begins outside literals. -/
theorem JoinsPlain.closed_take {text : Text} (h : JoinsPlain text) {hit : Hit}
    (hhit : hit ∈ Keyword.findAll kwJoins text 0) :
    Closed (text.take (hit.stop + 1)) ∧ Closed (text.take (hit.stop + 2)) := by
  obtain ⟨before, spelled, after, hsplits, -, hclosed, hindex⟩ :=
    Keyword.findAll_splits regular_joins hhit
  have hmem := List.mem_of_getElem? hindex
  rw [List.drop_zero] at hclosed
  have hspelled : Closed (before ++ spelled) :=
    hclosed.append (hsplits.spells.unquoted (regular_joins _ hmem).lettered).closed
  have htake : ∀ n, text.take (hit.stop + n) = before ++ spelled ++ after.take n := by
    intro n
    rw [List.take_add, hsplits.drop_stop, hsplits.stop_eq, hsplits.text_eq, ← List.length_append,
      List.take_left]
  have hblank := hsplits.blank_after
  rw [htake, htake]
  cases after with
  | nil => cases hblank
  | cons b after =>
    have hb : Closed (before ++ spelled ++ [b]) := by
      refine hspelled.append (Unquoted.closed fun c hc => ?_)
      rw [List.mem_singleton.mp hc]
      exact isQuote_of_isBlank hblank
    refine ⟨hb, ?_⟩
    cases after with
    | nil => exact hb
    | cons c after =>
      have hc : isQuote c = false :=
        h before spelled after b c hsplits.text_eq hclosed hsplits.blank_before hblank
          ⟨hit.keyword, hmem, hsplits.spells⟩
      have happend : before ++ spelled ++ [b, c] = (before ++ spelled ++ [b]) ++ [c] := by simp
      change Closed (before ++ spelled ++ [b, c])
      rw [happend]
      refine hb.append (Unquoted.closed fun d hd => ?_)
      rw [List.mem_singleton.mp hd]
      exact hc

/-- Two joins that differ in their tables only, at the same place of two
texts. -/
structure JoinSpan.Agree (text : Text) (x y : JoinSpan) : Prop where
  join_eq : (x.join.kind, x.join.keys) = (y.join.kind, y.join.keys)
  start_eq : x.start = y.start
  closed_start : Closed (text.take x.start)

namespace Join

variable {s s' : Text}

theorem completeFrom_rel (h : SameShape s s') {keyword : Hit}
    (hstart : Closed (s.take keyword.start)) (hstop : Closed (s.take (keyword.stop + 1)))
    {hits : List Hit}
    (hhits : ∀ hit ∈ hits, Closed (s.take hit.start) ∧ Closed (s.take hit.stop)) :
    Option.Rel (JoinSpan.Agree s) (completeFrom s keyword hits).value
      (completeFrom s' keyword hits).value := by
  induction hits with
  | nil => exact .none
  | cons hit hits ih =>
    have ih := ih fun other hmem => hhits other (by simp [hmem])
    obtain ⟨hon, hkeys⟩ := hhits hit (by simp)
    have htable := (h.slice hstop hon).trim
    have hcursor : Cursor.Alike s s' ⟨s, hit.stop⟩ ⟨s', hit.stop⟩ := ⟨h, rfl, rfl, rfl, hkeys⟩
    have hread := hcursor.readKeys
    simp only [completeFrom, Traced.value_bind]
    generalize JoinKeys.read ⟨s, hit.stop⟩ = read at hread ⊢
    generalize JoinKeys.read ⟨s', hit.stop⟩ = read' at hread ⊢
    cases hread with
    | none => exact ih
    | @some x y hxy =>
      obtain ⟨keys, after⟩ := x
      obtain ⟨keys', after'⟩ := y
      obtain ⟨rfl, -⟩ := hxy
      simp only [htable.isEmpty_eq]
      split
      · exact ih
      · exact .some ⟨rfl, rfl, hstart⟩

theorem locateFrom_rel (h : SameShape s s') {hits : List Hit}
    (hhits : ∀ hit ∈ hits, Closed (s.take hit.start) ∧ Closed (s.take (hit.stop + 1)) ∧
      Closed (s.take (hit.stop + 2))) :
    Option.Rel (JoinSpan.Agree s) (locateFrom s hits).value (locateFrom s' hits).value := by
  induction hits with
  | nil => exact .none
  | cons hit hits ih =>
    obtain ⟨hstart, hstop, hon⟩ := hhits hit (by simp)
    have hcomplete : Option.Rel (JoinSpan.Agree s) (complete s hit).value
        (complete s' hit).value := by
      rw [complete, complete, ← h.findAll_eq regular_on.single hon]
      exact completeFrom_rel h hstart hstop fun other hmem =>
        Keyword.closed_of_findAll regular_on.single hon hmem
    simp only [locateFrom, Traced.value_bind]
    generalize (complete s hit).value = found at hcomplete ⊢
    generalize (complete s' hit).value = found' at hcomplete ⊢
    cases hcomplete with
    | none => exact ih fun other hmem => hhits other (by simp [hmem])
    | some hspan => exact .some hspan

theorem find_rel (h : SameShape s s') (hplain : JoinsPlain s) :
    Option.Rel (JoinSpan.Agree s) (find s) (find s') := by
  rw [find, find, locate, locate, ← h.findAll_eq regular_joins (closed_take_zero s)]
  exact locateFrom_rel h fun hit hmem =>
    ⟨(Keyword.closed_of_findAll regular_joins (closed_take_zero s) hmem).1,
      hplain.closed_take hmem⟩

theorem sameOutcome (h : SameShape s s') (hplain : JoinsPlain s) :
    SameOutcome (Detached.Agree (Option.map fun join => (join.kind, join.keys)))
      (Join.detach {} s).outcome (Join.detach {} s').outcome := by
  have hfind := find_rel h hplain
  rw [Join.outcome_detach, Join.outcome_detach]
  generalize find s = found at hfind ⊢
  generalize find s' = found' at hfind ⊢
  cases hfind with
  | none => exact ⟨rfl, h⟩
  | @some span span' hspan =>
    refine ⟨congrArg some hspan.join_eq, ?_⟩
    simp only [← hspan.start_eq]
    exact (h.take hspan.closed_start).trim

end Join

/-! ## 5. Head and conditions -/

theorem Projection.sameOutcome {s s' : Text} (h : SameShape s s') :
    SameOutcome (fun p p' => p.fields.length = p'.fields.length)
      (Projection.parse s).outcome (Projection.parse s').outcome := by
  have htrim := h.trim
  rw [Projection.outcome_parse, Projection.outcome_parse,
    ← Keyword.matchHere_eq opening_select.lettered htrim.alike]
  cases hselect : (kwSelect.matchHere none (trim s)).isSome with
  | false => rfl
  | true =>
    obtain ⟨hclosed, hclosed'⟩ := opening_select.closed_take hselect
    change Closed ((trim s).take 6) at hclosed
    change Closed ((trim s).take 7) at hclosed'
    rw [if_pos rfl, if_pos rfl, ← htrim.find_eq regular_from.single hclosed']
    cases hfind : Keyword.find [kwFrom] (trim s) 7 with
    | none => rfl
    | some hit =>
      obtain ⟨hstart, hstop⟩ := Keyword.closed_of_find regular_from.single hclosed' hfind
      have hfields := (htrim.slice hclosed hstart).trim
      simp only [hfields.isEmpty_eq, (htrim.drop hstop).trim.isEmpty_eq]
      split
      · rfl
      · exact hfields.entries.length_eq

/-- What a condition says apart from its field and its value. -/
def Condition.operators (condition : Condition) : Comparison × Option Connective :=
  (condition.comparison, condition.connective)

theorem Condition.sameOutcome {s s' : Text} (h : SameShape s s') (connective : Option Connective) :
    SameOutcome (fun c c' => c.operators = c'.operators) (Condition.parse s connective).outcome
      (Condition.parse s' connective).outcome := by
  have htrim := h.trim
  rw [Condition.outcome_parse, Condition.outcome_parse,
    ← htrim.find_eq regular_like.single (closed_take_zero _)]
  cases hfind : Keyword.find [kwLike] (trim s) 0 with
  | some hit =>
    obtain ⟨hstart, hstop⟩ :=
      Keyword.closed_of_find regular_like.single (closed_take_zero _) hfind
    simp only [(htrim.take hstart).trim.isEmpty_eq, (htrim.drop hstop).trim.isEmpty_eq]
    split
    · rfl
    · rfl
  | none =>
    have hsymbol : Comparison.find (trim s) = Comparison.find (trim s') :=
      Comparison.findFrom_eq htrim.alike 0
    rw [← hsymbol]
    cases hfound : Comparison.find (trim s) with
    | none => rfl
    | some found =>
      obtain ⟨hstart, hstop⟩ := Comparison.closed_of_find hfound
      simp only [(htrim.take hstart).trim.isEmpty_eq, (htrim.drop hstop).trim.isEmpty_eq]
      split
      · rfl
      · rfl

theorem Criteria.sameOutcome_parseFrom {s s' : Text} (h : SameShape s s') {hits : List Hit}
    (hhits : ∀ hit ∈ hits, Closed (s.take hit.start) ∧ Closed (s.take hit.stop)) {start : Nat}
    (hstart : Closed (s.take start)) (connective : Option Connective) :
    SameOutcome (fun l l' => l.map Condition.operators = l'.map Condition.operators)
      (Criteria.parseFrom s start connective hits).outcome
      (Criteria.parseFrom s' start connective hits).outcome := by
  induction hits generalizing start connective with
  | nil =>
    rw [Criteria.outcome_parseFrom_nil, Criteria.outcome_parseFrom_nil]
    refine (Condition.sameOutcome (h.drop hstart) connective).map fun last last' hlast => ?_
    rw [List.map_singleton, List.map_singleton, hlast]
  | cons hit hits ih =>
    obtain ⟨hend, hnext⟩ := hhits hit (by simp)
    rw [Criteria.outcome_parseFrom_cons, Criteria.outcome_parseFrom_cons]
    refine (Condition.sameOutcome (h.slice hstart hend) connective).bind
      fun first first' _ hfirst => ?_
    refine (ih (fun other hmem => hhits other (by simp [hmem])) hnext _).bind
      fun others others' _ hothers => ?_
    change (first :: others).map Condition.operators = (first' :: others').map Condition.operators
    rw [List.map_cons, List.map_cons, hfirst, hothers]

theorem Criteria.sameOutcome {s s' : Text} (h : SameShape s s') :
    SameOutcome (fun l l' => l.map Condition.operators = l'.map Condition.operators)
      (Criteria.parse s).outcome (Criteria.parse s').outcome := by
  rw [Criteria.parse, Criteria.parse, ← h.findAll_eq regular_connectives (closed_take_zero s)]
  exact Criteria.sameOutcome_parseFrom h
    (fun hit hmem => Keyword.closed_of_findAll regular_connectives (closed_take_zero s) hmem)
    (closed_take_zero s) none

/-! ## 6. The query -/

/-- Two outlines that differ in their names and values only. -/
structure Outline.SameStructure (a b : Outline) : Prop where
  distinct_eq : a.distinct = b.distinct
  limit_eq : a.limit = b.limit
  fields_length : a.fields.length = b.fields.length
  groups_length : a.groups.map List.length = b.groups.map List.length
  sortKeys_length : a.sortKeys.map List.length = b.sortKeys.map List.length
  conditions_eq : a.conditions.map Condition.operators = b.conditions.map Condition.operators
  join_eq : a.join.map (fun join => (join.kind, join.keys)) =
    b.join.map fun join => (join.kind, join.keys)

/-- **Literals do not interfere.** Two queries of the same shape are both
read or both refused, with outlines of the same structure or faults of
the same kind, unless a literal follows a join keyword and one blank
where the limit has been taken out. -/
theorem Outline.sameOutcome_parse {text text' : Text} (h : SameShape text text')
    (hplain : ∀ limit, (Limit.detach (Distinct.detach (trim text)).rest).outcome = .ok limit →
      JoinsPlain limit.rest) :
    SameOutcome Outline.SameStructure (Outline.parse {} text).outcome
      (Outline.parse {} text').outcome := by
  rw [Outline.outcome_parse, Outline.outcome_parse]
  have hdistinct := Distinct.agree h.trim
  refine (Limit.sameOutcome hdistinct.rest).bind fun limit limit' hrun hlimit => ?_
  have htrimmed : Trimmed limit.rest :=
    Limit.trimmed_detachFrom (Distinct.trimmed_detach (trimmed_trim text)) hrun
  refine (Sorting.sameOutcome hlimit.rest).bind fun sorting sorting' hrun' hsorting => ?_
  refine (Grouping.sameOutcome hsorting.rest).bind fun grouping grouping' hrun'' hgrouping => ?_
  obtain ⟨hcriteria, hrest⟩ := Criteria.agree hgrouping.rest
  -- The join phase works on the front part of what the limit phase left.
  have hjoins : JoinsPlain (Criteria.detach grouping.rest).value.rest := by
    obtain ⟨sortingText, hsort⟩ := Sorting.accounts htrimmed hrun'
    obtain ⟨groupsText, hgroup⟩ := Grouping.accounts hsort.trimmed hrun''
    obtain ⟨criteriaText, hwhere⟩ := Criteria.accounts hgroup.trimmed
    have hall := hplain limit hrun
    rw [hsort.text_eq, hgroup.text_eq, hwhere.text_eq] at hall
    exact hall.of_append.of_append.of_append
  refine (Join.sameOutcome hrest hjoins).bind fun join join' _ hjoin => ?_
  refine (Projection.sameOutcome hjoin.rest).bind fun projection projection' _ hfields => ?_
  have hconditions : SameOutcome
      (fun l l' => l.map Condition.operators = l'.map Condition.operators)
      ((Criteria.detach grouping.rest).value.clause.elim (.ok [])
        fun text => (Criteria.parse text).outcome)
      ((Criteria.detach grouping'.rest).value.clause.elim (.ok [])
        fun text => (Criteria.parse text).outcome) := by
    generalize (Criteria.detach grouping.rest).value.clause = clause at hcriteria ⊢
    generalize (Criteria.detach grouping'.rest).value.clause = clause' at hcriteria ⊢
    cases hcriteria with
    | none => rfl
    | some hclause => exact Criteria.sameOutcome hclause
  refine hconditions.bind fun conditions conditions' _ hoperators => ?_
  exact {
    distinct_eq := hdistinct.clause_eq
    limit_eq := hlimit.clause_eq
    fields_length := hfields
    groups_length := hgrouping.clause_eq
    sortKeys_length := hsorting.clause_eq
    conditions_eq := hoperators
    join_eq := hjoin.clause_eq }

/-- Keywords, commas and operators in literals change nothing, unless
taking out the limit puts a literal behind a join keyword. -/
theorem Outline.sameOutcome_parse_glued :
    SameOutcome Outline.SameStructure
      (Outline.parse {} "SELECT a, 'x, y' FROM t LIMIT 3 WHERE b = 'p AND q' ORDER BY c".toList).outcome
      (Outline.parse {} "SELECT a, 'zzzz' FROM t LIMIT 3 WHERE b = ' WHERE ' ORDER BY c".toList).outcome ∧
    SameShape "SELECT a FROM INNER LIMIT 5 JOIN 'x ON a = b y' ON c = d".toList
      "SELECT a FROM INNER LIMIT 5 JOIN 'zzzzzzzzzzzz' ON c = d".toList ∧
    Keyword.Absent kwJoins "SELECT a FROM INNER LIMIT 5 JOIN 'x ON a = b y' ON c = d".toList ∧
    ¬ SameOutcome Outline.SameStructure
      (Outline.parse {} "SELECT a FROM INNER LIMIT 5 JOIN 'x ON a = b y' ON c = d".toList).outcome
      (Outline.parse {} "SELECT a FROM INNER LIMIT 5 JOIN 'zzzzzzzzzzzz' ON c = d".toList).outcome := by
  refine ⟨Outline.sameOutcome_parse ⟨by decide +kernel, by decide +kernel⟩ ?_,
    ⟨by decide +kernel, by decide +kernel⟩,
    Keyword.absent_of_find_eq_none regular_joins (by decide +kernel), ?_⟩
  · intro limit hrun
    have hrest : (Limit.detach (Distinct.detach (trim
        "SELECT a, 'x, y' FROM t LIMIT 3 WHERE b = 'p AND q' ORDER BY c".toList)).rest).outcome.map
          Detached.rest = .ok "SELECT a, 'x, y' FROM t WHERE b = 'p AND q' ORDER BY c".toList := by
      decide +kernel
    rw [hrun] at hrest
    have heq : limit.rest = _ := Except.ok.inj hrest
    rw [heq]
    exact joinsPlain_of_absent (Keyword.absent_of_find_eq_none regular_joins (by decide +kernel))
  · have hread : (Outline.parse {}
        "SELECT a FROM INNER LIMIT 5 JOIN 'x ON a = b y' ON c = d".toList).outcome =
          .error (.malformedSelect "SELECT a FROM".toList) := by
      decide +kernel
    have hread' : (Outline.parse {}
        "SELECT a FROM INNER LIMIT 5 JOIN 'zzzzzzzzzzzz' ON c = d".toList).outcome.isOk = true := by
      decide +kernel
    rw [hread]
    cases hok : (Outline.parse {}
        "SELECT a FROM INNER LIMIT 5 JOIN 'zzzzzzzzzzzz' ON c = d".toList).outcome with
    | ok outline => exact id
    | error fault =>
      rw [hok] at hread'
      cases hread'

end SelectOutline
