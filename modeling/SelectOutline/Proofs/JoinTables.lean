/-
SelectOutline.Proofs.JoinTables — joins of a table with literals in it.

The search for `ON` begins two characters behind the join keyword and
takes that place to lie outside literals. After one blank it is the
place behind the first character of the table. If that character is no
quote, all literals of the table are passed over, whatever is in them.
If it opens a literal, the search begins inside that literal, and from
there on what it takes for literals is never what the literals are:
the `ON` behind the table is not found. `find_joinText_iff` says that
nothing else matters.
-/
import SelectOutline.Proofs.Joins
import SelectOutline.Proofs.Reading

namespace SelectOutline

open Text

namespace Join

/-! ## 1. A join after some text -/

/-- A text with a join at its end. -/
def joinText (kind : JoinKind) (pre table left right : Text) : Text :=
  pre ++ [' '] ++ kind.phrase ++ [' '] ++ table ++ " ON ".toList ++ left ++ " = ".toList ++ right

/-- The hit of the join keyword in it. -/
def joinHit (kind : JoinKind) (pre : Text) : Hit where
  start := pre.length + 1
  stop := pre.length + 1 + kind.phrase.length
  index := kind.index
  keyword := kind.keyword

variable {kind : JoinKind} {pre table left right : Text}

theorem find_joinText (hclosed : Closed pre)
    (hfree : Keyword.Absent kwJoins (pre ++ [' '])) :
    Keyword.find kwJoins (joinText kind pre table left right) 0 = some (joinHit kind pre) := by
  have htext : joinText kind pre table left right =
      pre ++ ' ' :: (kind.phrase ++ ' ' :: (table ++ " ON ".toList ++ left ++ " = ".toList ++ right))
      := by simp [joinText]
  -- No join keyword ends with the word that begins this one.
  have hrest : ∀ (rest : Text), ∀ keyword ∈ kwJoins, ∀ word ∈ keyword.words.tail,
      Keyword.stripWord word (trimStart (kind.phrase ++ rest)) = none := by
    intro rest keyword hkeyword word hword
    have htail : keyword.words.tail = ["JOIN".toList] := by
      simp only [kwJoins, List.mem_cons, List.not_mem_nil, or_false] at hkeyword
      rcases hkeyword with rfl | rfl | rfl <;> rfl
    rw [htail] at hword
    obtain rfl := List.mem_singleton.mp hword
    cases kind <;> rfl
  have habsent := Keyword.Absent.findFrom_eq regular_joins
    (show Keyword.Absent kwJoins ([] ++ pre ++ [' ']) from hfree) rfl (by decide)
    (hrest (' ' :: (table ++ " ON ".toList ++ left ++ " = ".toList ++ right))) 0
  have hfirst := Keyword.firstHere_joins kind (show (some ' ').any isBlank = true by decide)
    kind.spells_phrase
    (show (' ' :: (table ++ " ON ".toList ++ left ++ " = ".toList ++ right)).head?.any isBlank = true
      from rfl) (pre.length + 1)
  rw [htext, Keyword.find_zero]
  refine habsent.trans ?_
  rw [hclosed, Nat.zero_add]
  obtain ⟨c, rest, hphrase, hc⟩ : ∃ c rest, kind.phrase = c :: rest ∧ isQuote c = false := by
    cases kind <;> exact ⟨_, _, rfl, by decide⟩
  rw [hphrase] at hfirst ⊢
  rw [List.cons_append] at hfirst ⊢
  rw [Keyword.findFrom_of_firstHere hc hfirst, joinHit, hphrase]

/-- The first join keyword decides: what follows it is read, and only
then are later keywords looked at. -/
theorem find_joinText_eq (hclosed : Closed pre) (hfree : Keyword.Absent kwJoins (pre ++ [' '])) :
    find (joinText kind pre table left right) =
      match (complete (joinText kind pre table left right) (joinHit kind pre)).value with
      | some span => some span
      | none => (locateFrom (joinText kind pre table left right)
          (Keyword.findAll kwJoins (joinText kind pre table left right)
            (joinHit kind pre).stop)).value := by
  rw [find, locate, Keyword.findAll_of_some regular_joins (find_joinText hclosed hfree)]
  simp only [locateFrom, Traced.value_bind]
  cases (complete (joinText kind pre table left right) (joinHit kind pre)).value with
  | none => rfl
  | some span => rfl

/-- The text up to the word `ON`, with the blank before it. -/
def joinHead (kind : JoinKind) (pre table : Text) : Text :=
  pre ++ [' '] ++ kind.phrase ++ [' '] ++ table ++ [' ']

theorem joinText_eq : joinText kind pre table left right =
    joinHead kind pre table ++ "ON".toList ++ [' '] ++ left ++ [' '] ++ ['='] ++ [' '] ++ right := by
  simp [joinText, joinHead]

/-- The slice that the table is read from. -/
theorem slice_joinText (rest : Text) {stop : Nat}
    (hstop : stop ≤ (joinHead kind pre table).length) :
    slice (joinHead kind pre table ++ rest) ((joinHit kind pre).stop + 1) stop =
      (table ++ [' ']).take (stop - ((joinHit kind pre).stop + 1)) := by
  have hlength : (pre ++ [' '] ++ kind.phrase ++ [' ']).length = (joinHit kind pre).stop + 1 := by
    simp only [joinHit, List.length_append, List.length_singleton]
  rw [slice, List.take_append_of_le_length hstop, joinHead, List.append_assoc _ table,
    List.drop_take, ← hlength, List.drop_left]

/-! ## 2. A table that does not begin with a literal -/

theorem find_on_joinText {c : Char} {rest : Text} (hc : isQuote c = false) (hrest : Closed rest)
    (hon : Keyword.Absent [kwOn] ([' '] ++ (c :: rest) ++ [' '])) :
    Keyword.find [kwOn] (joinText kind pre (c :: rest) left right) ((joinHit kind pre).stop + 2) =
      some ⟨(joinHead kind pre (c :: rest)).length, (joinHead kind pre (c :: rest)).length + 2, 0,
        kwOn⟩ := by
  have hstart : (joinHit kind pre).stop + 2 =
      (pre ++ [' '] ++ kind.phrase ++ [' '] ++ [c]).length := by
    simp only [joinHit, List.length_append, List.length_singleton]
  have htext : joinText kind pre (c :: rest) left right =
      (pre ++ [' '] ++ kind.phrase ++ [' '] ++ [c]) ++
        (rest ++ ' ' :: ("ON".toList ++ ' ' :: (left ++ " = ".toList ++ right))) := by
    simp [joinText]
  have hlast : (pre ++ [' '] ++ kind.phrase ++ [' '] ++ [c]).getLast? = [' ', c].getLast? := by
    rw [List.getLast?_concat]
    rfl
  have hhead : Closed [' ', c] := by
    apply Unquoted.closed
    intro d hd
    simp only [List.mem_cons, List.not_mem_nil, or_false] at hd
    rcases hd with rfl | rfl
    · decide
    · exact hc
  have hwords : ∀ keyword ∈ [kwOn], ∀ word ∈ keyword.words.tail, Keyword.stripWord word
      (trimStart ("ON".toList ++ ' ' :: (left ++ " = ".toList ++ right))) = none := by
    intro keyword hmem word hword
    rw [List.mem_singleton.mp hmem] at hword
    cases hword
  have habsent := Keyword.Absent.findFrom_eq regular_on.single
    (show Keyword.Absent [kwOn] ([' ', c] ++ rest ++ [' ']) by simpa using hon) hhead
    (show isBlank ' ' = true by decide) hwords
    (pre ++ [' '] ++ kind.phrase ++ [' '] ++ [c]).length
  have hfirst := Keyword.firstHere_spelled regular_on.single (by simp)
    (show [kwOn][0]? = some kwOn from rfl)
    (show (some ' ').any isBlank = true by decide)
    (show Keyword.Spells kwOn.words "ON".toList from .single rfl)
    (show (' ' :: (left ++ " = ".toList ++ right)).head?.any isBlank = true from rfl)
    (joinHead kind pre (c :: rest)).length
  rw [hstart, htext, Keyword.find_append, hlast]
  refine habsent.trans ?_
  have hposition : (pre ++ [' '] ++ kind.phrase ++ [' '] ++ [c]).length + rest.length + 1 =
      (joinHead kind pre (c :: rest)).length := by
    simp [joinHead]
    omega
  rw [hrest, hposition]
  exact Keyword.findFrom_of_firstHere (by decide) hfirst

theorem complete_joinText {c : Char} {rest : Text} (hc : isQuote c = false) (hrest : Closed rest)
    (hon : Keyword.Absent [kwOn] ([' '] ++ (c :: rest) ++ [' ']))
    (htrim : trim (c :: rest) = c :: rest) (hleft : IsIdentifier left)
    (hright : IsIdentifier right) :
    (complete (joinText kind pre (c :: rest) left right) (joinHit kind pre)).value =
      some ⟨⟨kind, c :: rest, left, right⟩, pre.length + 1,
        (joinText kind pre (c :: rest) left right).length⟩ := by
  have hread := JoinKeys.read_eq
    (show joinText kind pre (c :: rest) left right =
      (joinHead kind pre (c :: rest) ++ "ON".toList) ++ [' '] ++ left ++ [' '] ++ ['='] ++ [' '] ++
        right ++ [] by rw [joinText_eq, List.append_nil])
    (by decide) hleft (by decide) (by decide) hright (by simp)
  have hslice : trim (slice (joinText kind pre (c :: rest) left right) ((joinHit kind pre).stop + 1)
      (joinHead kind pre (c :: rest)).length) = c :: rest := by
    have hstop : (joinHead kind pre (c :: rest)).length - ((joinHit kind pre).stop + 1) =
        (c :: rest ++ [' ']).length := by
      simp only [joinHead, joinHit, List.length_append, List.length_cons, List.length_nil]
      omega
    rw [joinText_eq, List.append_assoc, List.append_assoc, List.append_assoc, List.append_assoc,
      List.append_assoc, List.append_assoc, slice_joinText _ (Nat.le_refl _), hstop,
      List.take_length]
    have hbare := endsBare_trim (c :: rest)
    rw [htrim] at hbare
    exact trim_surrounded allBlank_nil (htrim ▸ startsBare_trim (c :: rest)) hbare (by decide)
  rw [complete, Keyword.findAll_of_some regular_on.single (find_on_joinText hc hrest hon)]
  simp only [completeFrom, Traced.value_bind]
  have hstop : (joinHead kind pre (c :: rest) ++ "ON".toList).length =
      (joinHead kind pre (c :: rest)).length + 2 := by
    simp
  rw [hstop] at hread
  rw [hread]
  simp only [hslice, List.isEmpty_cons, Bool.false_eq_true, if_false, Traced.value_pure]
  rw [Option.some.injEq, joinText_eq]
  simp [joinHit, JoinKind.ofIndex_index]

/-! ## 3. A table that begins with a literal -/

/-- The word `ON` behind the table is not found: where it stands, the
scan that began inside the first literal takes it to be quoted. -/
theorem hit_start_lt_of_quote {quote : Char} {rest : Text} (hquote : isQuote quote = true)
    (hclosed : Closed (quote :: rest)) (hleft : IsIdentifier left) (hright : IsIdentifier right)
    {hit : Hit}
    (h : hit ∈ Keyword.findAll [kwOn] (joinText kind pre (quote :: rest) left right)
      ((joinHit kind pre).stop + 2)) :
    hit.start < (joinHit kind pre).stop + 1 + (quote :: rest).length := by
  obtain ⟨before, spelled, after, hsplits, hstart, hbefore, -⟩ :=
    Keyword.findAll_splits regular_on.single h
  by_contra hge
  rw [hsplits.start_eq] at hge
  have hlength : (pre ++ [' '] ++ kind.phrase ++ [' '] ++ [quote]).length =
      (joinHit kind pre).stop + 2 := by
    simp only [joinHit, List.length_append, List.length_singleton]
  have htext : joinText kind pre (quote :: rest) left right =
      (pre ++ [' '] ++ kind.phrase ++ [' '] ++ [quote]) ++
        (rest ++ (" ON ".toList ++ left ++ " = ".toList ++ right)) := by
    simp [joinText]
  have hdrop : before.drop ((joinHit kind pre).stop + 2) <+:
      rest ++ (" ON ".toList ++ left ++ " = ".toList ++ right) := by
    refine ⟨spelled ++ after, ?_⟩
    rw [← List.drop_append_of_le_length hstart, ← List.append_assoc, ← hsplits.text_eq, htext,
      ← hlength, List.drop_left]
  obtain ⟨tail, htail⟩ : rest <+: before.drop ((joinHit kind pre).stop + 2) := by
    refine List.prefix_of_prefix_length_le (List.prefix_append _ _) hdrop ?_
    rw [List.length_drop]
    rw [List.length_cons] at hge
    omega
  have hunquoted : Unquoted tail := by
    rw [← htail, List.prefix_append_right_inj] at hdrop
    intro c hc
    have hmem := hdrop.subset hc
    simp only [List.mem_append] at hmem
    rcases hmem with ((hmem | hmem) | hmem) | hmem
    · exact (show Unquoted " ON ".toList by decide) c hmem
    · exact hleft.unquoted c hmem
    · exact (show Unquoted " = ".toList by decide) c hmem
    · exact hright.unquoted c hmem
  have hinside : (Quoting.inside quote).scan rest = .outside := by
    rw [Closed, Quoting.scan_cons, Quoting.step_open hquote] at hclosed
    exact hclosed
  -- The two scans of `rest` begin in different states and cannot meet.
  have hne : Quoting.outside.scan rest ≠ (Quoting.inside quote).scan rest :=
    Quoting.scan_ne Quoting.proper_outside (show (Quoting.inside quote).Proper from hquote)
      Quoting.noConfusion rest
  rw [← htail, Closed, Quoting.scan_append,
    Quoting.scan_unquoted (Quoting.scan_proper Quoting.proper_outside rest) hunquoted] at hbefore
  exact hne (hbefore.trans hinside.symm)

theorem find_joinText_ne_of_quote {quote : Char} {rest : Text} (hpre : Closed pre)
    (hfree : Keyword.Absent kwJoins (pre ++ [' '])) (hquote : isQuote quote = true)
    (hclosed : Closed (quote :: rest)) (hleft : IsIdentifier left) (hright : IsIdentifier right)
    {stop : Nat} :
    find (joinText kind pre (quote :: rest) left right) ≠
      some ⟨⟨kind, quote :: rest, left, right⟩, pre.length + 1, stop⟩ := by
  rw [find_joinText_eq hpre hfree]
  intro h
  split at h
  · next span hspan =>
    obtain rfl := Option.some.inj h
    obtain ⟨-, -, hit, hmem, htable, -⟩ := completeFrom_eq_some hspan
    have hlt := hit_start_lt_of_quote hquote hclosed hleft hright hmem
    have hle : hit.start ≤ (joinHead kind pre (quote :: rest)).length := by
      simp only [joinHead, joinHit, List.length_append, List.length_singleton] at hlt ⊢
      omega
    change quote :: rest = _ at htable
    rw [joinText_eq, List.append_assoc, List.append_assoc, List.append_assoc, List.append_assoc,
      List.append_assoc, List.append_assoc, slice_joinText _ hle] at htable
    have hlength := length_trim_le
      ((quote :: rest ++ [' ']).take (hit.start - ((joinHit kind pre).stop + 1)))
    rw [← htable, List.length_take] at hlength
    have hpos : 0 < (quote :: rest).length := by simp
    omega
  · obtain ⟨hit, hmem, hstart, -⟩ := locateFrom_eq_some h
    obtain ⟨before, spelled, after, hsplits, hle, -, -⟩ :=
      Keyword.findAll_splits regular_joins hmem
    have := hsplits.start_eq
    simp only [joinHit] at hle hstart
    have hpos : 0 < kind.phrase.length := by cases kind <;> decide
    omega

/-! ## 4. The two cases together -/

/-- **When a join is read.** The join at the end of a text is read, with
its table as it is written, exactly when the table does not begin with a
literal; literals further on are passed over, whatever is in them. -/
theorem find_joinText_iff (kind : JoinKind) (pre table left right : Text)
    (hpre : Closed pre) (hfree : Keyword.Absent kwJoins (pre ++ [' ']))
    (hne : table ≠ []) (htrim : trim table = table) (htable : Closed table)
    (hon : Keyword.Absent [kwOn] ([' '] ++ table ++ [' ']))
    (hleft : IsIdentifier left) (hright : IsIdentifier right) :
    find (joinText kind pre table left right) =
        some ⟨⟨kind, table, left, right⟩, pre.length + 1,
          (joinText kind pre table left right).length⟩ ↔
      table.head?.any isQuote = false := by
  cases table with
  | nil => exact absurd rfl hne
  | cons c rest =>
    cases hc : isQuote c with
    | true =>
      constructor
      · intro h
        exact absurd h (find_joinText_ne_of_quote hpre hfree hc htable hleft hright)
      · intro h
        rw [List.head?_cons, Option.any_some, hc] at h
        cases h
    | false =>
      have hrest : Closed rest := by
        rw [Closed, Quoting.scan_cons, Quoting.step_outside hc] at htable
        exact htable
      constructor
      · intro _
        exact hc
      · intro _
        rw [find_joinText_eq hpre hfree, complete_joinText hc hrest hon htrim hleft hright]

/-- A literal that looks like the end of the join is passed over inside
a table, and lost at its start. -/
theorem find_joinText_literal :
    find (joinText .left "SELECT a FROM t".toList "u 'x ON y = z'".toList "t.id".toList
        "u.id".toList) =
      some ⟨⟨.left, "u 'x ON y = z'".toList, "t.id".toList, "u.id".toList⟩, 16, 55⟩ ∧
    find (joinText .left "SELECT a FROM t".toList "'x ON y = z'".toList "t.id".toList
        "u.id".toList) ≠
      some ⟨⟨.left, "'x ON y = z'".toList, "t.id".toList, "u.id".toList⟩, 16, 53⟩ := by
  have hpre : Closed "SELECT a FROM t".toList := by decide
  have hfree : Keyword.Absent kwJoins ("SELECT a FROM t".toList ++ [' ']) :=
    Keyword.absent_of_find_eq_none regular_joins (by decide +kernel)
  have hleft : IsIdentifier "t.id".toList := by decide +kernel
  have hright : IsIdentifier "u.id".toList := by decide +kernel
  constructor
  · exact (find_joinText_iff .left _ "u 'x ON y = z'".toList _ _ hpre hfree (by decide)
      (by decide +kernel) (by decide)
      (Keyword.absent_of_find_eq_none regular_on.single (by decide +kernel))
      hleft hright).mpr (by decide)
  · intro h
    have := (find_joinText_iff .left _ "'x ON y = z'".toList _ _ hpre hfree (by decide)
      (by decide +kernel) (by decide)
      (Keyword.absent_of_find_eq_none regular_on.single (by decide +kernel))
      hleft hright).mp h
    revert this
    decide

end Join

end SelectOutline
