/-
SelectOutline.Proofs.Exhaustion — a clause is taken off once and for all.

Four stages take a clause and all text behind it off the end of a text.
What they leave is a part of the text in front of which only blanks are
missing (`Remnant`). A keyword or a join that stands in such a part stands
in the whole text as well, with the same text around it; the searches in
the whole text find it or something in front of it (`Keyword.find_within`,
`Join.find_within`). So nothing is left for a stage behind itself, and the
other stages, in any order, bring nothing back.
-/
import SelectOutline.Proofs.FirstJoin

namespace SelectOutline

open Text

/-! ## 1. Keywords in the middle of a text -/

/-- The hit when `count` characters are put in front of the text. -/
def Hit.shift (hit : Hit) (count : Nat) : Hit :=
  { hit with start := count + hit.start, stop := count + hit.stop }

/-- A keyword stands where it does whatever is added around the text. -/
theorem Hit.Splits.within {hit : Hit} {text before spelled after : Text}
    (h : hit.Splits text before spelled after) (front tail : Text) :
    (hit.shift front.length).Splits (front ++ text ++ tail) (front ++ before) spelled
      (after ++ tail) := by
  have hne : before ≠ [] := by
    rintro rfl
    exact absurd h.blank_before (by simp)
  refine ⟨?_, ?_, ?_, h.spells, ?_, (h.append tail).blank_after⟩
  · rw [h.text_eq]
    simp
  · simp only [Hit.shift, h.start_eq, List.length_append]
  · simp only [Hit.shift, h.stop_eq, List.length_append, Nat.add_assoc]
  · rw [List.getLast?_append_of_ne_nil _ hne]
    exact h.blank_before

namespace Keyword

variable {keywords : List Keyword} {text : Text} {hit : Hit}

/-- What a search finds in the middle of a text, a search in the whole text
finds as well, or something in front of it. -/
theorem find_within (hk : ∀ keyword ∈ keywords, keyword.Regular)
    (hinitials : (keywords.map initial).Nodup) {front : Text} (hfront : Closed front) (tail : Text)
    (h : find keywords text 0 = some hit) :
    ∃ found, find keywords (front ++ text ++ tail) 0 = some found ∧
      found.start ≤ front.length + hit.start := by
  obtain ⟨before, spelled, after, hsplits, -, hclosed, hindex⟩ := find_splits hk h
  exact exists_find_le_of_splits hk hinitials (hsplits.within front tail) hindex (Nat.zero_le _)
    (hfront.append hclosed)

/-- The hits of a repeated search in the middle of a text are hits of one
in the whole text that begins outside literals. -/
theorem mem_findAll_within (hk : Separate keywords) (front tail : Text) {start start' : Nat}
    (hle : start' ≤ front.length + start)
    (hclosed : Closed ((front ++ text.take start).drop start'))
    (h : hit ∈ findAll keywords text start) :
    hit.shift front.length ∈ findAll keywords (front ++ text ++ tail) start' := by
  obtain ⟨before, spelled, after, hsplits, hstart, hbefore, hindex⟩ := findAll_splits hk.regular h
  have htake : text.take start = before.take start := by
    rw [hsplits.text_eq, List.append_assoc, List.take_append_of_le_length hstart]
  have hlength : (front ++ before.take start).length = front.length + start := by
    rw [List.length_append, List.length_take, Nat.min_eq_left hstart]
  have hdrop : (front ++ before).drop start' =
      (front ++ text.take start).drop start' ++ before.drop start := by
    rw [htake, ← List.drop_append_of_le_length (by rw [hlength]; exact hle), List.append_assoc,
      List.take_append_drop]
  refine mem_findAll hk (hsplits.within front tail) hindex ?_ ?_
  · rw [List.length_append]
    omega
  · rw [hdrop]
    exact hclosed.append hbefore

end Keyword

/-! ## 2. Joins in the middle of a text -/

theorem Text.slice_within {text : Text} (front tail : Text) (start : Nat) {stop : Nat}
    (h : stop ≤ text.length) :
    slice (front ++ text ++ tail) (front.length + start) (front.length + stop) =
      slice text start stop := by
  rw [slice, slice, List.append_assoc, List.take_length_add_append, List.drop_length_add_append,
    List.take_append_of_le_length h]

theorem JoinKeys.Begins.append {text : Text} (h : Begins text) (tail : Text) :
    Begins (text ++ tail) := by
  obtain ⟨keys, pair, after, rfl, hwritten, hleft, hright⟩ := h
  exact ⟨keys, pair, after ++ tail, List.append_assoc _ _ _, hwritten, hleft, hright⟩

/-- Of several hits in the order of the text, the first that gives
something is no later than any that does. -/
theorem Keyword.findSome?_of_mem {α : Type} {f : Hit → Option α} {hits : List Hit} {hit : Hit}
    (hpairwise : hits.Pairwise fun hit later => hit.start < later.start) (hmem : hit ∈ hits)
    (hsome : (f hit).isSome = true) :
    ∃ first a, hits.findSome? f = some a ∧ f first = some a ∧ first.start ≤ hit.start := by
  induction hits with
  | nil => cases hmem
  | cons first hits ih =>
    obtain ⟨hbehind, hpairwise⟩ := List.pairwise_cons.mp hpairwise
    rw [List.findSome?_cons]
    cases hfirst : f first with
    | some a =>
      refine ⟨first, a, rfl, hfirst, ?_⟩
      rcases List.mem_cons.mp hmem with rfl | hmem
      · exact Nat.le_refl _
      · exact (hbehind hit hmem).le
    | none =>
      rcases List.mem_cons.mp hmem with rfl | hmem
      · rw [hfirst] at hsome
        cases hsome
      · exact ih hpairwise hmem

namespace Join

variable {front text : Text}

/-- A join keyword and an `ON` that make a join still do when text is added
around them. -/
theorem isSome_spanAt_within {keyword hit : Hit} (front tail : Text) (hstart : hit.start ≤ text.length)
    (hstop : hit.stop ≤ text.length) (h : (spanAt text keyword hit).isSome = true) :
    (spanAt (front ++ text ++ tail) (keyword.shift front.length) (hit.shift front.length)).isSome =
      true := by
  obtain ⟨htable, hbegins⟩ := isSome_spanAt_iff.mp h
  refine isSome_spanAt_iff.mpr ⟨?_, ?_⟩
  · simp only [Hit.shift, Nat.add_assoc]
    rw [slice_within front tail _ hstart]
    exact htable
  · simp only [Hit.shift]
    rw [List.append_assoc, List.drop_length_add_append, List.drop_append_of_le_length hstop]
    exact hbegins.append tail

/-- What is found in the middle of a text is found in the whole text, or
the first join of the whole text stands in front of it. -/
theorem find_within (hfront : Closed front) (tail : Text) {span : JoinSpan}
    (h : find text = some span) :
    ∃ found, find (front ++ text ++ tail) = some found ∧
      found.start ≤ front.length + span.start := by
  rw [find_eq_findSome?] at h
  obtain ⟨keyword, hmem, hcomplete⟩ := List.exists_of_findSome?_eq_some h
  obtain ⟨hit, hmemOn, hspan⟩ := List.exists_of_findSome?_eq_some hcomplete
  obtain ⟨before, spelled, after, hsplits, -, -, hindex⟩ :=
    Keyword.findAll_splits regular_on.single hmemOn
  have hstart := hsplits.start_lt_stop (regular_on.single _ (List.mem_of_getElem? hindex))
  have hstop := hsplits.stop_le
  -- The join keyword and its `ON` are come to in the whole text, ...
  have hkeyword := Keyword.mem_findAll_within separate_joins front tail
    (Nat.zero_le _) (by simpa using hfront) hmem
  have hon := Keyword.mem_findAll_within separate_on front tail
    (Nat.le_refl _) (by simp [Closed]) hmemOn
  have hplace : front.length + (keyword.stop + 2) = (keyword.shift front.length).stop + 2 :=
    (Nat.add_assoc _ _ _).symm
  rw [hplace] at hon
  have hsome := isSome_spanAt_within front tail (by omega) hstop.le (Option.isSome_of_eq_some hspan)
  -- ... and the join is found with them, unless something is found before.
  obtain ⟨_, _, hcompleteOn, -⟩ :=
    Keyword.findSome?_of_mem (Keyword.findAll_pairwise regular_on.single _ _) hon hsome
  obtain ⟨first, found, hfound, hfirst, hle⟩ :=
    Keyword.findSome?_of_mem
      (f := fun keyword => (Keyword.findAll [kwOn] _ (keyword.stop + 2)).findSome? (spanAt _ keyword))
      (Keyword.findAll_pairwise regular_joins _ 0) hkeyword (Option.isSome_of_eq_some hcompleteOn)
  refine ⟨found, by rw [find_eq_findSome?]; exact hfound, ?_⟩
  obtain ⟨_, _, hspanFirst⟩ := List.exists_of_findSome?_eq_some hfirst
  rw [(spanAt_eq_some_iff.mp hspanFirst).1, (spanAt_eq_some_iff.mp hspan).1]
  exact hle

end Join

/-! ## 3. Stages -/

/-- The stages that take a clause and all text behind it off the end of a
text. -/
inductive ClauseStage where
  | sorting
  | grouping
  | criteria
  | join
  deriving DecidableEq

/-- What such a stage reads. -/
inductive Clause where
  | sortKeys (keys : List SortKey)
  | groups (groups : List Text)
  | criteria (criteria : Text)
  | join (join : Join)
  deriving DecidableEq

namespace ClauseStage

/-- The clause that a stage reads, if there is one, and the text that it
leaves. -/
def detach (policy : Policy) (text : Text) : ClauseStage → Except Fault (Option Clause × Text)
  | sorting => (Sorting.detach policy text).outcome.map fun detached =>
    (detached.clause.map .sortKeys, detached.rest)
  | grouping => (Grouping.detach text).outcome.map fun detached =>
    (detached.clause.map .groups, detached.rest)
  | criteria =>
    .ok ((Criteria.detach text).value.clause.map .criteria, (Criteria.detach text).value.rest)
  | join => (Join.detach policy text).outcome.map fun detached =>
    (detached.clause.map .join, detached.rest)

/-- What stages leave of a text, one after another. -/
def remainder (policy : Policy) : List ClauseStage → Text → Except Fault Text
  | [], text => .ok text
  | stage :: stages, text => do
    let (_, rest) ← stage.detach policy text
    remainder policy stages rest

/-- Where the clause of a stage begins. -/
def place (text : Text) : ClauseStage → Option Nat
  | sorting => (Keyword.find [kwOrderBy] text 0).map (·.start)
  | grouping => (Keyword.find [kwGroupBy] text 0).map (·.start)
  | criteria => (Keyword.find [kwWhere] text 0).map (·.start)
  | join => (Join.find text).map (·.start)

/-- A clause begins inside the text. -/
theorem place_lt {stage : ClauseStage} {text : Text} {position : Nat}
    (h : stage.place text = some position) : position < text.length := by
  cases stage with
  | join =>
    obtain ⟨span, hspan, rfl⟩ := Option.map_eq_some_iff.mp h
    obtain ⟨before, spelled, after, rfl, hstart, -, -, -, hblank⟩ := Join.find_splits hspan
    have hne : after ≠ [] := by
      rintro rfl
      cases hblank
    have := List.length_pos_iff.mpr hne
    simp only [List.length_append]
    omega
  | _ =>
    obtain ⟨hit, hhit, rfl⟩ := Option.map_eq_some_iff.mp h
    exact (Keyword.find_start hhit).2

/-- A clause in the middle of a text begins where it does, or another one
of its kind begins before it. -/
theorem place_within {stage : ClauseStage} {front text : Text} (hfront : Closed front) (tail : Text)
    {position : Nat} (h : stage.place text = some position) :
    ∃ found, stage.place (front ++ text ++ tail) = some found ∧
      found ≤ front.length + position := by
  have hkeyword : ∀ {keyword : Keyword}, keyword.Regular →
      (Keyword.find [keyword] text 0).map (·.start) = some position →
        ∃ found, (Keyword.find [keyword] (front ++ text ++ tail) 0).map (·.start) = some found ∧
          found ≤ front.length + position := by
    intro keyword hregular hplace
    obtain ⟨hit, hhit, rfl⟩ := Option.map_eq_some_iff.mp hplace
    obtain ⟨found, hfound, hle⟩ :=
      Keyword.find_within hregular.single (by simp) hfront tail hhit
    exact ⟨found.start, by rw [hfound, Option.map_some], hle⟩
  cases stage with
  | sorting => exact hkeyword regular_orderBy h
  | grouping => exact hkeyword regular_groupBy h
  | criteria => exact hkeyword regular_where h
  | join =>
    obtain ⟨span, hspan, rfl⟩ := Option.map_eq_some_iff.mp h
    obtain ⟨found, hfound, hle⟩ := Join.find_within hfront tail hspan
    exact ⟨found.start, by rw [place, hfound, Option.map_some], hle⟩

/-- Without its clause a stage leaves the text as it is. -/
theorem detach_of_place_eq_none {policy : Policy} {stage : ClauseStage} {text : Text}
    (h : stage.place text = none) : stage.detach policy text = .ok (none, text) := by
  cases stage with
  | sorting =>
    rw [detach, Sorting.outcome_detach, Option.map_eq_none_iff.mp h]
    rfl
  | grouping =>
    rw [detach, Grouping.outcome_detach, Option.map_eq_none_iff.mp h]
    rfl
  | criteria =>
    rw [detach, Criteria.value_detach, Option.map_eq_none_iff.mp h]
    rfl
  | join =>
    rw [detach, Join.outcome_detach, Option.map_eq_none_iff.mp h]
    rfl

end ClauseStage

/-! ## 4. What is left -/

/-- What is left of a text when blanks are dropped at its start and any
text at its end. -/
def Text.Remnant (rest text : Text) : Prop :=
  ∃ gap tail, AllBlank gap ∧ text = gap ++ rest ++ tail

namespace Text

theorem Remnant.refl (text : Text) : Remnant text text :=
  ⟨[], [], allBlank_nil, by simp⟩

theorem Remnant.trans {rest middle text : Text} (h : Remnant rest middle)
    (h' : Remnant middle text) : Remnant rest text := by
  obtain ⟨gap, tail, hgap, rfl⟩ := h
  obtain ⟨gap', tail', hgap', rfl⟩ := h'
  refine ⟨gap' ++ gap, tail ++ tail', ?_, by simp⟩
  exact List.forall_mem_append.mpr ⟨hgap', hgap⟩

theorem remnant_take (text : Text) (position : Nat) : Remnant (text.take position) text :=
  ⟨[], text.drop position, allBlank_nil, by simp⟩

theorem remnant_trim (text : Text) : Remnant (trim text) text := by
  obtain ⟨gap, gap', hgap, -, heq⟩ := exists_eq_append_trim text
  exact ⟨gap, gap', hgap, heq⟩

theorem remnant_trimEnd (text : Text) : Remnant (trimEnd text) text := by
  obtain ⟨gap, -, heq⟩ := exists_eq_trimEnd_append text
  exact ⟨[], gap, allBlank_nil, by rw [List.nil_append]; exact heq⟩

end Text

namespace ClauseStage

variable {policy : Policy} {stage : ClauseStage} {text rest : Text} {clause : Option Clause}

/-- A stage leaves the text as it is, or a remnant of what stands before
its clause. -/
theorem remnant_of_detach_eq_ok (h : stage.detach policy text = .ok (clause, rest)) :
    stage.place text = none ∧ rest = text ∨
      ∃ position, stage.place text = some position ∧ Remnant rest (text.take position) := by
  cases hplace : stage.place text with
  | none =>
    rw [detach_of_place_eq_none hplace] at h
    exact .inl ⟨rfl, (congrArg Prod.snd (Except.ok.inj h)).symm⟩
  | some position =>
    refine .inr ⟨position, rfl, ?_⟩
    cases stage with
    | sorting =>
      obtain ⟨hit, hhit, rfl⟩ := Option.map_eq_some_iff.mp hplace
      rw [detach, Sorting.outcome_detach, hhit] at h
      simp only at h
      cases hparse : Sorting.parse policy (trim (text.drop hit.stop)) with
      | error fault =>
        rw [hparse] at h
        cases h
      | ok keys =>
        rw [hparse] at h
        obtain rfl := congrArg Prod.snd (Except.ok.inj h)
        exact remnant_trimEnd _
    | grouping =>
      obtain ⟨hit, hhit, rfl⟩ := Option.map_eq_some_iff.mp hplace
      rw [detach, Grouping.outcome_detach, hhit] at h
      simp only at h
      split at h
      · cases h
      · obtain rfl := congrArg Prod.snd (Except.ok.inj h)
        exact remnant_trimEnd _
    | criteria =>
      obtain ⟨hit, hhit, rfl⟩ := Option.map_eq_some_iff.mp hplace
      rw [detach, Criteria.value_detach, hhit] at h
      obtain rfl := congrArg Prod.snd (Except.ok.inj h)
      exact remnant_trim _
    | join =>
      obtain ⟨span, hspan, rfl⟩ := Option.map_eq_some_iff.mp hplace
      rw [detach, Join.outcome_detach, hspan] at h
      simp only at h
      split at h
      · cases h
      · obtain rfl := congrArg Prod.snd (Except.ok.inj h)
        exact remnant_trim _

theorem remnant_of_detach (h : stage.detach policy text = .ok (clause, rest)) :
    Remnant rest text := by
  rcases remnant_of_detach_eq_ok h with ⟨-, rfl⟩ | ⟨position, -, hremnant⟩
  · exact .refl rest
  · exact hremnant.trans (remnant_take text position)

/-- So is what several stages leave. -/
theorem remnant_of_remainder {stages : List ClauseStage}
    (h : remainder policy stages text = .ok rest) : Remnant rest text := by
  induction stages generalizing text with
  | nil =>
    obtain rfl := Except.ok.inj h
    exact .refl text
  | cons stage stages ih =>
    rw [remainder] at h
    obtain ⟨⟨clause, middle⟩, hdetach, hrest⟩ := Except.bind_eq_ok_iff.mp h
    exact (ih hrest).trans (remnant_of_detach hdetach)

/-- A text without a clause has no remnant with one. -/
theorem place_of_remnant (h : Remnant rest text) (hnone : stage.place text = none) :
    stage.place rest = none := by
  obtain ⟨gap, tail, hgap, rfl⟩ := h
  cases hplace : stage.place rest with
  | none => rfl
  | some position =>
    obtain ⟨found, hfound, -⟩ := place_within hgap.unquoted.closed tail hplace
    rw [hnone] at hfound
    cases hfound

/-- What a stage leaves holds no clause for it: it would begin before the
one that was taken. -/
theorem place_of_detach (h : stage.detach policy text = .ok (clause, rest)) :
    stage.place rest = none := by
  rcases remnant_of_detach_eq_ok h with ⟨hnone, rfl⟩ | ⟨position, hsome, gap, tail, hgap, htake⟩
  · exact hnone
  cases hplace : stage.place rest with
  | none => rfl
  | some earlier =>
    have htext : text = gap ++ rest ++ (tail ++ text.drop position) := by
      rw [← List.append_assoc, ← htake, List.take_append_drop]
    obtain ⟨found, hfound, hle⟩ :=
      place_within hgap.unquoted.closed (tail ++ text.drop position) hplace
    rw [← htext, hsome] at hfound
    obtain rfl := Option.some.inj hfound
    have hlt := place_lt hplace
    have hlength := congrArg List.length htake
    rw [List.length_take, List.length_append, List.length_append] at hlength
    omega

/-- **A clause is taken off once and for all.** What a stage leaves holds no
clause for it, and nothing that any stages leave of that does. -/
theorem detach_remainder {policy : Policy} {stage : ClauseStage} {text rest : Text}
    {clause : Option Clause} (h : stage.detach policy text = .ok (clause, rest)) :
    stage.detach policy rest = .ok (none, rest) ∧
      ∀ stages last, remainder policy stages rest = .ok last →
        stage.detach policy last = .ok (none, last) := by
  have hnone := place_of_detach h
  refine ⟨detach_of_place_eq_none hnone, ?_⟩
  intro stages last hrest
  exact detach_of_place_eq_none (place_of_remnant (remnant_of_remainder hrest) hnone)

/-- The first join keyword is passed over, because its table is quoted, and
stays in what is left. It is passed over again behind the stage and behind
two more. -/
theorem detach_remainder_quoted_table :
    join.detach {} ("SELECT a FROM t INNER JOIN 'u v' ON x = y WHERE p GROUP BY q " ++
        "LEFT JOIN w ON b = c").toList =
      .ok (some (.join ⟨.left, "w".toList, "b".toList, "c".toList⟩),
        "SELECT a FROM t INNER JOIN 'u v' ON x = y WHERE p GROUP BY q".toList) ∧
    remainder {} [grouping, criteria]
        "SELECT a FROM t INNER JOIN 'u v' ON x = y WHERE p GROUP BY q".toList =
      .ok "SELECT a FROM t INNER JOIN 'u v' ON x = y".toList ∧
    join.detach {} "SELECT a FROM t INNER JOIN 'u v' ON x = y WHERE p GROUP BY q".toList =
      .ok (none, "SELECT a FROM t INNER JOIN 'u v' ON x = y WHERE p GROUP BY q".toList) ∧
    join.detach {} "SELECT a FROM t INNER JOIN 'u v' ON x = y".toList =
      .ok (none, "SELECT a FROM t INNER JOIN 'u v' ON x = y".toList) := by
  have hdetach : join.detach {} ("SELECT a FROM t INNER JOIN 'u v' ON x = y WHERE p GROUP BY q " ++
      "LEFT JOIN w ON b = c").toList =
        .ok (some (.join ⟨.left, "w".toList, "b".toList, "c".toList⟩),
          "SELECT a FROM t INNER JOIN 'u v' ON x = y WHERE p GROUP BY q".toList) := by
    decide +kernel
  have hremainder : remainder {} [grouping, criteria]
      "SELECT a FROM t INNER JOIN 'u v' ON x = y WHERE p GROUP BY q".toList =
        .ok "SELECT a FROM t INNER JOIN 'u v' ON x = y".toList := by
    decide +kernel
  obtain ⟨hagain, hlater⟩ := detach_remainder hdetach
  exact ⟨hdetach, hremainder, hagain, hlater _ _ hremainder⟩

end ClauseStage

end SelectOutline
