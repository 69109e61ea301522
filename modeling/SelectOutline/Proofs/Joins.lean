/-
SelectOutline.Proofs.Joins — join keywords and the joins that they begin.

Each kind of join has its keyword, and the three begin with different
letters, so that a search for all of them reports the one that is
written. A join that is found begins at the keyword of its kind.
-/
import SelectOutline.Proofs.Reading
import SelectOutline.Proofs.Search

namespace SelectOutline

open Text

/-! ## 1. Join keywords -/

namespace JoinKind

/-- The keyword of a kind. -/
def keyword : JoinKind → Keyword
  | inner => kwInnerJoin
  | left => kwLeftJoin
  | right => kwRightJoin

/-- The place of its keyword in `kwJoins`. -/
def index : JoinKind → Nat
  | inner => 0
  | left => 1
  | right => 2

/-- The keyword in capital letters, with one space. -/
def phrase (kind : JoinKind) : Text :=
  kind.name.toList ++ " JOIN".toList

theorem ofIndex_index (kind : JoinKind) : ofIndex kind.index = kind := by
  cases kind <;> rfl

theorem keyword_ofIndex {index : Nat} {keyword : Keyword}
    (h : kwJoins[index]? = some keyword) : (ofIndex index).keyword = keyword := by
  rw [kwJoins] at h
  rcases index with _ | _ | _ | index
  · rw [List.getElem?_cons_zero] at h
    exact Option.some.inj h
  · rw [List.getElem?_cons_succ, List.getElem?_cons_zero] at h
    exact Option.some.inj h
  · rw [List.getElem?_cons_succ, List.getElem?_cons_succ, List.getElem?_cons_zero] at h
    exact Option.some.inj h
  · simp only [List.getElem?_cons_succ, List.getElem?_nil] at h
    cases h

/-- Only the three places are ever looked up. -/
theorem index_lt_of_mem_findAll {text : Text} {start : Nat} {hit : Hit}
    (h : hit ∈ Keyword.findAll kwJoins text start) : hit.index < 3 := by
  obtain ⟨_, _, _, -, -, -, hindex⟩ := Keyword.findAll_splits regular_joins h
  exact (List.getElem?_eq_some_iff.mp hindex).1

theorem keyword_mem (kind : JoinKind) : kind.keyword ∈ kwJoins := by
  cases kind <;> simp [keyword, kwJoins]

theorem spells_phrase (kind : JoinKind) : Keyword.Spells kind.keyword.words kind.phrase := by
  have h : kind.phrase = kind.name.toList ++ [' '] ++ "JOIN".toList := by
    cases kind <;> rfl
  rw [h]
  cases kind <;> exact .cons rfl (by decide) (by decide) (.single rfl)

end JoinKind

theorem Keyword.firstHere_joins (kind : JoinKind) {before : Option Char}
    (hbefore : before.any isBlank = true) {s after : Text}
    (hs : Keyword.Spells kind.keyword.words s) (hafter : after.head?.any isBlank = true)
    (position : Nat) :
    Keyword.firstHere kwJoins before position (s ++ after) =
      some ⟨position, position + s.length, kind.index, kind.keyword⟩ :=
  Keyword.firstHere_spelled regular_joins (by decide) (by cases kind <;> rfl) hbefore hs hafter
    position

/-! ## 2. What a located join says -/

namespace Join

/-- The join that a join keyword and a word `ON` behind it make, if a pair
of identifiers and a table are there. -/
def spanAt (text : Text) (keyword hit : Hit) : Option JoinSpan :=
  match JoinKeys.read ⟨text, hit.stop⟩ with
  | some (keys, after) =>
    if (trim (slice text (keyword.stop + 1) hit.start)).isEmpty then none
    else
      some ⟨⟨.ofIndex keyword.index, trim (slice text (keyword.stop + 1) hit.start), keys⟩,
        keyword.start, after.position⟩
  | none => none

theorem spanAt_eq_some_iff {text : Text} {keyword hit : Hit} {span : JoinSpan} :
    spanAt text keyword hit = some span ↔
      span.start = keyword.start ∧ span.join.kind = .ofIndex keyword.index ∧
        span.join.table = trim (slice text (keyword.stop + 1) hit.start) ∧
        span.join.table ≠ [] ∧ ∃ after : Cursor,
          JoinKeys.read ⟨text, hit.stop⟩ = some (span.join.keys, after) ∧
            span.stop = after.position := by
  constructor
  · intro h
    rw [spanAt] at h
    split at h
    swap
    · cases h
    next keys after hread =>
    split at h
    · cases h
    · next htable =>
      obtain rfl := Option.some.inj h
      exact ⟨rfl, rfl, rfl, by simpa using htable, after, hread, rfl⟩
  · obtain ⟨⟨kind, table, keys⟩, start, stop⟩ := span
    rintro ⟨rfl, rfl, rfl, hne, after, hread, rfl⟩
    have htable : (trim (slice text (keyword.stop + 1) hit.start)).isEmpty = false := by
      simpa using hne
    simp only [spanAt, hread, htable, Bool.false_eq_true, if_false]

/-- The table reaches up to the first word `ON` that makes a join. -/
theorem value_completeFrom (text : Text) (keyword : Hit) (hits : List Hit) :
    (completeFrom text keyword hits).value = hits.findSome? (spanAt text keyword) := by
  induction hits with
  | nil => rfl
  | cons hit hits ih =>
    simp only [completeFrom, Traced.value_bind, List.findSome?_cons, spanAt]
    cases JoinKeys.read ⟨text, hit.stop⟩ with
    | none => exact ih
    | some read =>
      simp only
      split
      · exact ih
      · rfl

/-- The join begins at the first join keyword that begins one. -/
theorem value_locateFrom (text : Text) (hits : List Hit) :
    (locateFrom text hits).value = hits.findSome? fun hit => (complete text hit).value := by
  induction hits with
  | nil => rfl
  | cons hit hits ih =>
    simp only [locateFrom, Traced.value_bind, List.findSome?_cons]
    cases (complete text hit).value with
    | some span => rfl
    | none => exact ih

/-- The table of a join reaches up to one of the words `ON`, behind which
its pair of identifiers is read. -/
theorem completeFrom_eq_some {text : Text} {keyword : Hit} {hits : List Hit} {span : JoinSpan}
    (h : (completeFrom text keyword hits).value = some span) :
    span.start = keyword.start ∧ span.join.kind = .ofIndex keyword.index ∧
      ∃ hit ∈ hits, span.join.table = trim (slice text (keyword.stop + 1) hit.start) ∧
        span.join.table ≠ [] ∧ ∃ after : Cursor,
          JoinKeys.read ⟨text, hit.stop⟩ = some (span.join.keys, after) ∧
            span.stop = after.position := by
  rw [value_completeFrom] at h
  obtain ⟨hit, hmem, hspan⟩ := List.exists_of_findSome?_eq_some h
  obtain ⟨hstart, hkind, hrest⟩ := spanAt_eq_some_iff.mp hspan
  exact ⟨hstart, hkind, hit, hmem, hrest⟩

/-- A join begins at one of the join keywords, which gives its kind. -/
theorem locateFrom_eq_some {text : Text} {hits : List Hit} {span : JoinSpan}
    (h : (locateFrom text hits).value = some span) :
    ∃ hit ∈ hits, span.start = hit.start ∧ span.join.kind = .ofIndex hit.index ∧
      (complete text hit).value = some span := by
  rw [value_locateFrom] at h
  obtain ⟨hit, hmem, hspan⟩ := List.exists_of_findSome?_eq_some h
  obtain ⟨hstart, hkind, -⟩ := completeFrom_eq_some hspan
  exact ⟨hit, hmem, hstart, hkind, hspan⟩

end Join

/-- A join splits the text it is found in: what stands before its
keyword, the keyword, the table between blanks, the word `ON`, the pair
of identifiers, and what stands after them. -/
structure JoinSpan.Splits (span : JoinSpan) (text before spelled body on pair after : Text) :
    Prop where
  text_eq : text = before ++ spelled ++ body ++ on ++ pair ++ after
  start_eq : span.start = before.length
  stop_eq : span.stop = (before ++ spelled ++ body ++ on ++ pair).length
  closed : Closed before
  spells : Keyword.Spells span.join.kind.keyword.words spelled
  spells_on : Keyword.Spells kwOn.words on
  written : span.join.keys.Written pair
  left : IsIdentifier span.join.keys.left
  right : IsIdentifier span.join.keys.right
  blank_before : before.getLast?.any isBlank = true
  blank_first : body.head?.any isBlank = true
  blank_last : body.getLast?.any isBlank = true
  blank_pair : pair.head?.any isBlank = true
  table_eq : trim body = span.join.table
  table_ne_nil : span.join.table ≠ []
  stops : ∀ c ∈ after.head?, isIdentifierChar c = false

theorem JoinKeys.Written.ne_nil {keys : JoinKeys} {pair : Text} (h : keys.Written pair) :
    pair ≠ [] := by
  obtain ⟨gap, gap', gap'', -, -, -, rfl⟩ := h
  simp

namespace Join

/-- A join keyword and an `ON` behind it that make a join split the text
in its six parts. -/
theorem splits_of_spanAt {text before spelled rest beforeOn on restOn : Text} {keyword hit : Hit}
    {span : JoinSpan} (hsplits : keyword.Splits text before spelled rest)
    (hindex : kwJoins[keyword.index]? = some keyword.keyword) (hclosed : Closed before)
    (hsplitsOn : hit.Splits text beforeOn on restOn) (hkeyword : hit.keyword = kwOn)
    (hle : keyword.stop + 2 ≤ beforeOn.length) (h : spanAt text keyword hit = some span) :
    ∃ body pair after, beforeOn = before ++ spelled ++ body ∧
      span.Splits text before spelled body on pair after := by
  obtain ⟨hstart, hkind, htable, hne, after, hread, hstop⟩ := spanAt_eq_some_iff.mp h
  obtain ⟨hleft, hright, hstops, pair, hwritten, hpasses⟩ := JoinKeys.read_eq_some hread
  have hpair : restOn = pair ++ after.rest := by
    rw [← hsplitsOn.drop_stop]
    exact hpasses.rest_eq
  have hblank := hsplits.blank_after
  cases rest with
  | nil => cases hblank
  | cons b tail =>
    have hb : isBlank b = true := hblank
    -- What stands before `ON` is the keyword, a blank and the slice of the table.
    have htake : text.take (keyword.stop + 1) = before ++ spelled ++ [b] := by
      rw [List.take_add, hsplits.drop_stop, hsplits.take_stop]
      rfl
    have hbody : beforeOn = before ++ spelled ++ b :: slice text (keyword.stop + 1) hit.start := by
      have hstart : keyword.stop + 1 ≤ hit.start := by
        rw [hsplitsOn.start_eq]
        omega
      have := take_eq_append_slice text hstart
      rw [hsplitsOn.take_start, htake] at this
      simpa using this
    have htrim : trim (b :: slice text (keyword.stop + 1) hit.start) = span.join.table := by
      rw [htable, trim, trim, trimStart, List.dropWhile_cons_of_pos hb, trimStart]
    refine ⟨b :: slice text (keyword.stop + 1) hit.start, pair, after.rest, hbody,
      ?_, hstart.trans hsplits.start_eq, ?_, hclosed, ?_, hkeyword ▸ hsplitsOn.spells, hwritten,
      hleft, hright, hsplits.blank_before, hblank, ?_, ?_, htrim, hne, hstops⟩
    · calc text = beforeOn ++ on ++ restOn := hsplitsOn.text_eq
        _ = _ := by rw [hbody, hpair, ← List.append_assoc, List.append_assoc before]
    · rw [hstop, hpasses.position_eq, hsplitsOn.stop_eq, hbody]
      simp only [List.length_append]
    · rw [hkind, JoinKind.keyword_ofIndex hindex]
      exact hsplits.spells
    · have hlast := hsplitsOn.blank_before
      rw [hbody, List.getLast?_append_of_ne_nil _ (List.cons_ne_nil _ _)] at hlast
      exact hlast
    · have hhead := hsplitsOn.blank_after
      rw [hpair, List.head?_append_of_ne_nil _ hwritten.ne_nil] at hhead
      exact hhead

/-- A join that is found is all there: nothing but the six parts is left
of the text. -/
theorem find_parts {text : Text} {span : JoinSpan} (h : find text = some span) :
    ∃ before spelled body on pair after, span.Splits text before spelled body on pair after := by
  obtain ⟨keyword, hmem, -, -, hcomplete⟩ := locateFrom_eq_some h
  obtain ⟨before, spelled, rest, hsplits, -, hclosed, hindex⟩ :=
    Keyword.findAll_splits regular_joins hmem
  rw [complete, value_completeFrom] at hcomplete
  obtain ⟨hit, hmem', hspan⟩ := List.exists_of_findSome?_eq_some hcomplete
  obtain ⟨beforeOn, on, restOn, hsplitsOn, hle, -, hindexOn⟩ :=
    Keyword.findAll_splits regular_on.single hmem'
  obtain ⟨body, pair, after, -, hparts⟩ := splits_of_spanAt hsplits hindex hclosed hsplitsOn
    (List.mem_singleton.mp (List.mem_of_getElem? hindexOn)) hle hspan
  exact ⟨before, spelled, body, on, pair, after, hparts⟩

/-- A join that is found begins at a join keyword of its kind, outside
literals. -/
theorem find_splits {text : Text} {span : JoinSpan} (h : find text = some span) :
    ∃ before spelled after,
      text = before ++ spelled ++ after ∧ span.start = before.length ∧ Closed before ∧
        Keyword.Spells span.join.kind.keyword.words spelled ∧
        before.getLast?.any isBlank = true ∧ after.head?.any isBlank = true := by
  obtain ⟨before, spelled, body, on, pair, after, hspan⟩ := find_parts h
  refine ⟨before, spelled, body ++ on ++ pair ++ after, ?_, hspan.start_eq, hspan.closed,
    hspan.spells, hspan.blank_before, ?_⟩
  · rw [hspan.text_eq]
    simp
  · have hhead := hspan.blank_first
    cases body with
    | nil => cases hhead
    | cons b body => exact hhead

end Join

end SelectOutline
