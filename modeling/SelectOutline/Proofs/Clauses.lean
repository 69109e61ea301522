/-
SelectOutline.Proofs.Clauses — clauses come off the end of a text.

The text before a written clause is passable for the search of its
keyword, so that the keyword is found where it was written. Each phase
then gives what was written into its clause and leaves what was written
before it, and leaves a text without the clause alone (`detach_eq`).
-/
import SelectOutline.Proofs.Lists
import SelectOutline.Proofs.Stages

namespace SelectOutline.Grammar

open Text Keyword

/-! ## 1. Lists and conditions at the end -/

/-- Where a keyword stands behind a text that is passable for it, a
search from the start of that text on splits the whole there. -/
theorem exists_hit_behind {keyword : Keyword} (hk : keyword.Regular) {firsts : List Text}
    (hfirsts : BeginIn [keyword] firsts) (pre : Text) {s : Text} (hs : Passable firsts s) (gap : Gap)
    (word : Spelled keyword) (after : Gap) (body : Text) :
    ∃ hit, find [keyword] (pre ++ (s ++ (gap.text ++ (word.text ++ (after.text ++ body)))))
        pre.length = some hit ∧
      (pre ++ (s ++ (gap.text ++ (word.text ++ (after.text ++ body))))).take hit.start =
        pre ++ s ++ gap.text ∧
      (pre ++ (s ++ (gap.text ++ (word.text ++ (after.text ++ body))))).drop hit.stop =
        after.text ++ body := by
  have hfind := find_clause hk.single hfirsts (by simp)
    (show [keyword][0]? = some keyword from rfl) pre hs gap.ne_nil gap.blank word.spells
    (after.blank_head body)
  refine ⟨_, hfind, ?_, ?_⟩
  · rw [← List.append_assoc, ← List.append_assoc]
    exact List.take_left
  · rw [← List.append_assoc, ← List.append_assoc, ← List.append_assoc]
    exact List.drop_left

theorem exists_hit_clause {keyword : Keyword} (hk : keyword.Regular) {firsts : List Text}
    (hfirsts : BeginIn [keyword] firsts) {s : Text} (hs : Passable firsts s) (gap : Gap)
    (word : Spelled keyword) (after : Gap) (body : Text) :
    ∃ hit, find [keyword] (s ++ (gap.text ++ (word.text ++ (after.text ++ body)))) 0 = some hit ∧
      (s ++ (gap.text ++ (word.text ++ (after.text ++ body)))).take hit.start = s ++ gap.text ∧
      (s ++ (gap.text ++ (word.text ++ (after.text ++ body)))).drop hit.stop =
        after.text ++ body :=
  exists_hit_behind hk hfirsts [] hs gap word after body

theorem find_passable_zero {keyword : Keyword} (hk : keyword.Regular) {firsts : List Text}
    (hfirsts : BeginIn [keyword] firsts) {s : Text} (hs : Passable firsts s) :
    find [keyword] s 0 = none :=
  find_passable hk.single hfirsts [] hs

theorem SortClause.detach_eq {policy : Policy} {s : Text} (hs : Passable ["ORDER".toList] s)
    (hends : EndsBare s) (clause : Option SortClause)
    (h : ∀ c ∈ clause, ∀ entry ∈ c.list.toList, entry.Admitted policy) :
    (Sorting.detach policy (s ++ optional SortClause.text clause)).outcome =
      .ok ⟨clause.map SortClause.keys, s⟩ := by
  rw [Sorting.outcome_detach]
  cases clause with
  | none =>
    rw [optional, Option.elim_none, List.append_nil,
      find_passable_zero regular_orderBy (by decide) hs]
    rfl
  | some clause =>
    obtain ⟨hit, hfind, htake, hdrop⟩ := exists_hit_clause regular_orderBy (by decide) hs
      clause.before clause.keyword clause.after (clause.list.text SortEntry.text)
    have htrim : trim (clause.after.text ++ clause.list.text SortEntry.text) =
        clause.list.text SortEntry.text :=
      (clause.list.trimmed SortEntry.trimmed SortEntry.ne_nil).trim_blanks_append clause.after.blank
    rw [optional, Option.elim_some, SortClause.text, hfind]
    simp only [htake, hdrop, htrim, parse_list (h clause rfl), trimEnd_append_eq hends
      clause.before.blank]
    rfl

theorem GroupClause.detach_eq {s : Text} (hs : Passable ["GROUP".toList] s) (hends : EndsBare s)
    (clause : Option GroupClause) :
    (Grouping.detach (s ++ optional GroupClause.text clause)).outcome =
      .ok ⟨clause.map GroupClause.groups, s⟩ := by
  rw [Grouping.outcome_detach]
  cases clause with
  | none =>
    rw [optional, Option.elim_none, List.append_nil,
      find_passable_zero regular_groupBy (by decide) hs]
    rfl
  | some clause =>
    obtain ⟨hit, hfind, htake, hdrop⟩ := exists_hit_clause regular_groupBy (by decide) hs
      clause.before clause.keyword clause.after (clause.list.text Item.text)
    have htrim : trim (clause.after.text ++ clause.list.text Item.text) =
        clause.list.text Item.text :=
      (clause.list.trimmed Item.trimmed Item.ne_nil).trim_blanks_append clause.after.blank
    have hfull : (clause.list.toList.map Item.text).any List.isEmpty = false := by
      rw [List.any_eq_false]
      intro text hmem
      obtain ⟨item, -, rfl⟩ := List.mem_map.mp hmem
      simp [item.ne_nil]
    rw [optional, Option.elim_some, GroupClause.text, hfind]
    simp only [htake, hdrop, htrim, Listed.entries_text Item.entry, hfull, Bool.false_eq_true,
      if_false, trimEnd_append_eq hends clause.before.blank]
    rfl

theorem WhereClause.detach_eq {s : Text} (hs : Passable ["WHERE".toList] s) (hbare : Trimmed s)
    (clause : Option WhereClause) :
    (Criteria.detach (s ++ optional WhereClause.text clause)).value =
      ⟨clause.map WhereClause.body, s⟩ := by
  rw [Criteria.value_detach]
  cases clause with
  | none =>
    rw [optional, Option.elim_none, List.append_nil,
      find_passable_zero regular_where (by decide) hs]
    rfl
  | some clause =>
    obtain ⟨hit, hfind, htake, hdrop⟩ := exists_hit_clause regular_where (by decide) hs
      clause.before clause.keyword clause.after clause.body
    have htrim : trim (clause.after.text ++ clause.body) = clause.body :=
      clause.trimmed_body.trim_blanks_append clause.after.blank
    have hrest : trim (s ++ clause.before.text) = s :=
      hbare.trim_append_blanks clause.before.blank
    rw [optional, Option.elim_some, WhereClause.text, hfind]
    simp only [htake, hdrop, htrim, hrest, List.isEmpty_iff, clause.body_ne_nil, if_false]
    rfl

/-! ## 2. The join -/

theorem joins_getElem (kind : JoinKind) : kwJoins[kind.index]? = some kind.keyword := by
  cases kind <;> rfl

/-- The `ON` of a join is found, although the search for it begins two
characters behind the join keyword: that is among the blanks, at the
table, or inside its first name. -/
theorem find_on (pre : Text) (after : Gap) (table : Table) (gap : Gap) (word : Spelled kwOn)
    {rest : Text} (hrest : rest.head?.any isBlank = true) :
    find [kwOn] (pre ++ (after.text ++ (table.text ++ (gap.text ++ (word.text ++ rest)))))
        (pre.length + 2) =
      some ⟨(pre ++ after.text ++ table.text ++ gap.text).length,
        (pre ++ after.text ++ table.text ++ gap.text ++ word.text).length, 0, kwOn⟩ := by
  have hf : (["ON".toList] : List Text) ⊆ reserved := by decide
  obtain ⟨b, blanks, hafter⟩ := List.exists_cons_of_ne_nil after.ne_nil
  cases blanks with
  | cons b' blanks =>
    have hblanks : AllBlank blanks := fun c hc => after.blank c (by simp [hafter, hc])
    have hpassable : Passable ["ON".toList] (blanks ++ table.text) := by
      have := Passable.blanks hblanks (table.passable hf stops_nil .nil)
      rwa [List.append_nil] at this
    have hfind := find_clause regular_on.single (by decide) (by decide)
      (show [kwOn][0]? = some kwOn from rfl) (pre ++ [b, b']) hpassable gap.ne_nil gap.blank
      word.spells hrest
    rw [hafter]
    simpa using hfind
  | nil =>
    obtain ⟨first, others⟩ := table
    obtain ⟨c, name, hname⟩ := List.exists_cons_of_ne_nil first.ne_nil
    have hsolid : Solid (c :: name) := hname ▸ first.solid
    have hpassable : Passable ["ON".toList] (others.flatMap fun atom => ' ' :: atom.text) := by
      have := Table.passable_others others hf stops_nil .nil
      rwa [List.append_nil] at this
    have hlast : (pre ++ [b, c]).getLast? = some c := by simp
    -- No blank stands before the rest of the first name.
    have hpasses : ∀ {t : Text}, Stops t →
        findFrom [kwOn] .outside (pre ++ [b, c]).getLast? (pre ++ [b, c]).length
            ((name ++ others.flatMap fun atom => ' ' :: atom.text) ++ t) =
          findFrom [kwOn] .outside
            ((name ++ others.flatMap fun atom => ' ' :: atom.text).getLast?.or
              (pre ++ [b, c]).getLast?)
            ((pre ++ [b, c]).length + (name ++ others.flatMap fun atom => ' ' :: atom.text).length)
            t := by
      intro t ht
      rw [List.append_assoc, findFrom_solid regular_on.single (fun d hd => hsolid d (by simp [hd]))
        (by rw [hlast]; exact (hsolid c (by simp)).1),
        hpassable.findFrom_eq regular_on.single (by decide) ht]
      simp only [List.getLast?_append, List.length_append, Option.or_assoc, Nat.add_assoc]
    have hfind := find_of_passes regular_on.single (by decide)
      (show [kwOn][0]? = some kwOn from rfl) (pre ++ [b, c]) hpasses gap.ne_nil gap.blank
      word.spells hrest
    rw [hafter, Table.text, hname]
    simpa using hfind

namespace JoinClause

variable (clause : JoinClause)

/-- What follows the word `ON`. -/
def keysText : Text :=
  clause.onAfter.text ++ (clause.left.text ++ (clause.equalsBefore.text ++
    '=' :: (clause.equalsAfter.text ++ clause.right.text)))

/-- The text before and with the word `ON`, behind `pre`. -/
def tableText (pre : Text) : Text :=
  pre ++ clause.before.text ++ clause.keyword.text ++ clause.after.text ++ clause.table.text ++
    clause.onBefore.text ++ clause.on.text

theorem text_eq (pre : Text) : pre ++ clause.text = clause.tableText pre ++ clause.keysText := by
  simp [JoinClause.text, tableText, keysText]

theorem read_keys (pre : Text) :
    JoinKeys.read ⟨pre ++ clause.text, (clause.tableText pre).length⟩ =
      some (⟨clause.left.text, clause.right.text⟩,
        ⟨pre ++ clause.text, (pre ++ clause.text).length⟩) := by
  have htext : pre ++ clause.text = clause.tableText pre ++ clause.onAfter.text ++
      clause.left.text ++ clause.equalsBefore.text ++ ['='] ++ clause.equalsAfter.text ++
      clause.right.text := by
    rw [text_eq]
    simp [keysText]
  have hread := JoinKeys.read_eq (htext.trans (List.append_nil _).symm)
    clause.onAfter.blank ⟨clause.left.ne_nil, clause.left.chars⟩ clause.equalsBefore.blank
    clause.equalsAfter.blank ⟨clause.right.ne_nil, clause.right.chars⟩ (by simp)
  rw [← htext] at hread
  exact hread

/-- The table is read, without the blanks around it. -/
theorem trim_slice_table (pre : Text) :
    trim (slice (pre ++ clause.text) ((pre ++ clause.before.text ++ clause.keyword.text).length + 1)
      (pre ++ clause.before.text ++ clause.keyword.text ++ clause.after.text ++ clause.table.text ++
        clause.onBefore.text).length) = clause.table.text := by
  obtain ⟨b, blanks, hafter⟩ := List.exists_cons_of_ne_nil clause.after.ne_nil
  have hblanks : AllBlank blanks := fun c hc => clause.after.blank c (by simp [hafter, hc])
  have htext : pre ++ clause.text = (pre ++ clause.before.text ++ clause.keyword.text ++
      clause.after.text ++ clause.table.text ++ clause.onBefore.text) ++
        (clause.on.text ++ clause.keysText) := by
    simp [text_eq, tableText]
  have htaken : pre ++ clause.before.text ++ clause.keyword.text ++ clause.after.text ++
      clause.table.text ++ clause.onBefore.text =
        (pre ++ clause.before.text ++ clause.keyword.text ++ [b]) ++
          (blanks ++ clause.table.text ++ clause.onBefore.text) := by
    simp [hafter]
  have hlength : (pre ++ clause.before.text ++ clause.keyword.text).length + 1 =
      (pre ++ clause.before.text ++ clause.keyword.text ++ [b]).length := by
    simp only [List.length_append, List.length_singleton]
  rw [slice, htext, List.take_left, hlength, htaken, List.drop_left]
  exact clause.table.trimmed.trim_between hblanks clause.onBefore.blank

theorem find_eq {s : Text}
    (hs : Passable ["INNER".toList, "LEFT".toList, "RIGHT".toList] s) :
    Join.find (s ++ clause.text) =
      some ⟨clause.join, (s ++ clause.before.text).length, (s ++ clause.text).length⟩ := by
  -- The join keyword is found, and from there on the word `ON`.
  have hjoin : find kwJoins (s ++ clause.text) 0 = some ⟨(s ++ clause.before.text).length,
      (s ++ clause.before.text ++ clause.keyword.text).length, clause.kind.index,
      clause.kind.keyword⟩ :=
    find_clause regular_joins (by decide) (by decide) (joins_getElem clause.kind) [] hs
      clause.before.ne_nil clause.before.blank clause.keyword.spells
      (clause.after.blank_head (clause.table.text ++ (clause.onBefore.text ++ (clause.on.text ++
        clause.keysText))))
  have htext : s ++ clause.text = s ++ clause.before.text ++ clause.keyword.text ++
      (clause.after.text ++ (clause.table.text ++ (clause.onBefore.text ++ (clause.on.text ++
        clause.keysText)))) := by
    simp [text_eq, tableText]
  have hon : find [kwOn] (s ++ clause.text)
      ((s ++ clause.before.text ++ clause.keyword.text).length + 2) =
      some ⟨(s ++ clause.before.text ++ clause.keyword.text ++ clause.after.text ++
        clause.table.text ++ clause.onBefore.text).length, (clause.tableText s).length, 0, kwOn⟩ := by
    rw [htext]
    exact find_on (s ++ clause.before.text ++ clause.keyword.text) clause.after clause.table
      clause.onBefore clause.on (clause.onAfter.blank_head _)
  rw [Join.find, Join.locate, findAll_of_some regular_joins hjoin]
  simp only [Join.locateFrom, Traced.value_bind, Join.complete,
    findAll_of_some regular_on.single hon, Join.completeFrom, clause.trim_slice_table,
    clause.read_keys, List.isEmpty_iff, clause.table.ne_nil, if_false, JoinKind.ofIndex_index]
  rfl

theorem detach_eq {policy : Policy} {s : Text}
    (hs : Passable ["INNER".toList, "LEFT".toList, "RIGHT".toList] s) (hbare : Trimmed s)
    (clause : Option JoinClause) :
    (Join.detach policy (s ++ optional JoinClause.text clause)).outcome =
      .ok ⟨clause.map JoinClause.join, s⟩ := by
  rw [Join.outcome_detach]
  cases clause with
  | none =>
    have hnone : Join.find s = none := by
      have hfind : find kwJoins s 0 = none := find_passable regular_joins (by decide) [] hs
      rw [Join.find, Join.locate, findAll_of_none hfind]
      rfl
    rw [optional, Option.elim_none, List.append_nil, hnone]
    rfl
  | some clause =>
    have htake : (s ++ clause.text).take (s ++ clause.before.text).length =
        s ++ clause.before.text := by
      rw [JoinClause.text, ← List.append_assoc, List.take_left]
    have htrim : trim (s ++ clause.before.text) = s :=
      hbare.trim_append_blanks clause.before.blank
    -- Nothing follows the join.
    have hfurther : find kwJoins (s ++ clause.text) (s ++ clause.text).length = none := by
      have := find_passable regular_joins
        (show BeginIn kwJoins ["INNER".toList, "LEFT".toList, "RIGHT".toList] by decide)
        (s ++ clause.text) .nil
      rwa [List.append_nil] at this
    rw [optional, Option.elim_some, clause.find_eq hs]
    simp only [hfurther, htake, htrim]
    cases policy.joins <;> rfl

end JoinClause

/-! ## 3. The limit -/

theorem isBlank_of_isDigit {c : Char} (h : isDigit c = true) : isBlank c = false := by
  rw [Bool.eq_false_iff]
  intro hblank
  obtain ⟨n, hn, rfl⟩ := exists_ofNat_of_inRanges hblank
  revert n
  decide +kernel

namespace LimitClause

theorem startsBare_digits (clause : LimitClause) : StartsBare clause.digits :=
  fun c hc => isBlank_of_isDigit (clause.decimal c (List.mem_of_head? hc))

theorem endsBare_digits (clause : LimitClause) : EndsBare clause.digits :=
  fun c hc => isBlank_of_isDigit (clause.decimal c (List.mem_of_getLast? hc))

theorem endsBare (clause : LimitClause) : EndsBare clause.text :=
  endsBare_clause clause.endsBare_digits clause.ne_nil

/-- The keyword of a clause behind a text. -/
def hit (clause : LimitClause) (pre : Text) : Hit where
  start := (pre ++ clause.before.text).length
  stop := (pre ++ clause.before.text ++ clause.keyword.text).length
  index := 0
  keyword := kwLimit

theorem read_digits (clause : LimitClause) (pre : Text) :
    (Cursor.mk (pre ++ clause.text) (clause.hit pre).stop).skipBlanks.readDigits =
      some (clause.digits, ⟨pre ++ clause.text, (pre ++ clause.text).length⟩) := by
  have hblanks : pre ++ clause.text = (pre ++ clause.before.text ++ clause.keyword.text) ++
      (clause.after.text ++ clause.digits) := by
    simp [LimitClause.text]
  have hdigits : pre ++ clause.text = (pre ++ clause.before.text ++ clause.keyword.text ++
      clause.after.text) ++ (clause.digits ++ []) := by
    simp [LimitClause.text]
  have hend : pre ++ clause.text = pre ++ clause.before.text ++ clause.keyword.text ++
      clause.after.text ++ clause.digits := by
    simp [LimitClause.text]
  have hread := Cursor.readRun_eq hdigits clause.ne_nil clause.decimal (by simp)
  rw [← hend] at hread
  rw [hit, Cursor.skipBlanks_eq hblanks clause.after.blank clause.startsBare_digits]
  exact hread

/-- Where the limit phase comes to the keyword of a clause at the end, it
takes the clause off. -/
theorem outcome_detachFrom_hit (clause : LimitClause) {s : Text} (hends : EndsBare s)
    (hits : List Hit) :
    (Limit.detachFrom (s ++ clause.text) (clause.hit s :: hits)).outcome =
      .ok ⟨some clause.value, s⟩ := by
  have htake : (s ++ clause.text).take (clause.hit s).start = s ++ clause.before.text := by
    rw [hit, LimitClause.text, ← List.append_assoc, List.take_left]
  rw [Limit.outcome_detachFrom_cons, clause.read_digits s]
  simp only [dif_pos clause.fits, cut_length, htake, trimEnd_append_eq hends clause.before.blank]
  rfl

theorem detach_eq {s : Text} (hs : Passable ["LIMIT".toList] s) (hends : EndsBare s)
    (clause : Option LimitClause) :
    (Limit.detach (s ++ optional LimitClause.text clause)).outcome =
      .ok ⟨clause.map LimitClause.value, s⟩ := by
  cases clause with
  | none =>
    rw [optional, Option.elim_none, List.append_nil, Limit.detach,
      findAll_of_none (find_passable_zero regular_limit (by decide) hs)]
    rfl
  | some clause =>
    have hfind : find [kwLimit] (s ++ clause.text) 0 = some (clause.hit s) :=
      find_clause regular_limit.single (by decide) (by simp)
        (show [kwLimit][0]? = some kwLimit from rfl) [] hs clause.before.ne_nil clause.before.blank
        clause.keyword.spells (clause.after.blank_head clause.digits)
    rw [optional, Option.elim_some, Limit.detach, findAll_of_some regular_limit.single hfind]
    exact clause.outcome_detachFrom_hit hends _

end LimitClause

end SelectOutline.Grammar
