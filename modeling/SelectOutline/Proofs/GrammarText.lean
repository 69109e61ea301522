/-
SelectOutline.Proofs.GrammarText — the text of a written query.

Two things are shown for every part of a written query. Its text is a
row of words, marks and literals, and its words are names or the words
of its own keywords, so that a search for any other keyword passes over
it (`passable`). And it begins and ends with a character that is no
blank, so that trimming leaves it alone (`trimmed`, `endsBare`).

The lemmas about rows take any row that follows, so that a text is
built up from its end.
-/
import SelectOutline.Proofs.Grammar
import SelectOutline.Proofs.Passing

namespace SelectOutline.Grammar

open Text Keyword

/-! ## 1. Blanks and keywords -/

theorem Gap.stops (gap : Gap) (t : Text) : Stops (gap.text ++ t) := by
  obtain ⟨b, rest, hgap⟩ := List.exists_cons_of_ne_nil gap.ne_nil
  rw [hgap]
  exact stops_cons (isAlpha_of_isBlank (gap.blank b (by simp [hgap])))

theorem Gap.blank_head (gap : Gap) (t : Text) : (gap.text ++ t).head?.any isBlank = true := by
  obtain ⟨b, rest, hgap⟩ := List.exists_cons_of_ne_nil gap.ne_nil
  rw [hgap]
  exact gap.blank b (by simp [hgap])

theorem Space.stops (space : Space) {t : Text} (ht : Stops t) : Stops (space.text ++ t) :=
  space.blank.stops.append ht

/-- No word of the keywords is among `firsts`. -/
abbrev Foreign (keywords : List Keyword) (firsts : List Text) : Prop :=
  ∀ keyword ∈ keywords, ∀ word ∈ keyword.words, word ∉ firsts

theorem Foreign.head {keyword : Keyword} {keywords : List Keyword} {firsts : List Text}
    (h : Foreign (keyword :: keywords) firsts) : Foreign [keyword] firsts :=
  fun _ hmem => h _ (by simp [List.mem_singleton.mp hmem])

theorem Foreign.tail {keyword : Keyword} {keywords : List Keyword} {firsts : List Text}
    (h : Foreign (keyword :: keywords) firsts) : Foreign keywords firsts :=
  fun _ hmem => h _ (by simp [hmem])

/-! ## 2. Names -/

section

variable {firsts : List Text} {t : Text}

theorem Atom.solid (atom : Atom) : Solid atom.text :=
  fun c hc => ⟨(atom.plain c hc).1, (atom.plain c hc).2.1⟩

theorem Atom.passable (atom : Atom) (hf : firsts ⊆ reserved) (hstops : Stops t)
    (ht : Passable firsts t) : Passable firsts (atom.text ++ t) :=
  .word atom.solid (fun hmem => atom.free (hf hmem)) hstops ht

theorem Item.solid (item : Item) : Solid item.text :=
  fun c hc => ⟨(item.plain c hc).1, (item.plain c hc).2.1⟩

theorem Item.passable (item : Item) (hf : firsts ⊆ reserved) (hstops : Stops t)
    (ht : Passable firsts t) : Passable firsts (item.text ++ t) :=
  .word item.solid (fun hmem => item.free (hf hmem)) hstops ht

theorem Table.stops_others (others : List Atom) (hstops : Stops t) :
    Stops (others.flatMap (fun atom => ' ' :: atom.text) ++ t) := by
  cases others with
  | nil => exact hstops
  | cons atom others => exact stops_cons (by decide)

theorem Table.passable_others (others : List Atom) (hf : firsts ⊆ reserved) (hstops : Stops t)
    (ht : Passable firsts t) :
    Passable firsts (others.flatMap (fun atom => ' ' :: atom.text) ++ t) := by
  induction others with
  | nil => exact ht
  | cons atom others ih =>
    rw [List.flatMap_cons, List.append_assoc, List.cons_append]
    exact .mark (by decide) (by decide) (atom.passable hf (stops_others others hstops) ih)

theorem Table.passable (table : Table) (hf : firsts ⊆ reserved) (hstops : Stops t)
    (ht : Passable firsts t) : Passable firsts (table.text ++ t) := by
  rw [Table.text, List.append_assoc]
  exact table.first.passable hf (stops_others table.others hstops)
    (passable_others table.others hf hstops ht)

/-! ## 3. Lists -/

theorem Listed.stops_tailText {α : Type} {write : α → Text} (others : List (Space × Space × α))
    (hstops : Stops t) : Stops (tailText write others ++ t) := by
  cases others with
  | nil => exact hstops
  | cons entry others =>
    obtain ⟨before, after, a⟩ := entry
    rw [tailText, List.flatMap_cons, List.append_assoc, List.append_assoc]
    exact before.stops (stops_cons (by decide))

theorem Listed.passable_tailText {α : Type} {write : α → Text}
    (hwrite : ∀ a {t}, Stops t → Passable firsts t → Passable firsts (write a ++ t))
    (others : List (Space × Space × α)) (hstops : Stops t) (ht : Passable firsts t) :
    Passable firsts (tailText write others ++ t) := by
  induction others with
  | nil => exact ht
  | cons entry others ih =>
    obtain ⟨before, after, a⟩ := entry
    have hsplit : tailText write ((before, after, a) :: others) ++ t =
        before.text ++ ',' :: (after.text ++ (write a ++ (tailText write others ++ t))) := by
      simp [tailText]
    rw [hsplit]
    refine .blanks before.blank (.mark (by decide) (by decide) (.blanks after.blank ?_))
    exact hwrite a (stops_tailText others hstops) ih

theorem Listed.passable {α : Type} {write : α → Text}
    (hwrite : ∀ a {t}, Stops t → Passable firsts t → Passable firsts (write a ++ t))
    (list : Listed α) (hstops : Stops t) (ht : Passable firsts t) :
    Passable firsts (list.text write ++ t) := by
  rw [Listed.text, List.append_assoc]
  exact hwrite list.first (stops_tailText list.others hstops)
    (passable_tailText hwrite list.others hstops ht)

/-! ## 4. Conditions -/

theorem Value.passable (value : Value) (hf : firsts ⊆ reserved) (hstops : Stops t)
    (ht : Passable firsts t) : Passable firsts (value.text ++ t) := by
  cases value with
  | atom name => exact name.passable hf hstops ht
  | literal body unquoted =>
    have hsplit : (Value.literal body unquoted).text ++ t = '\'' :: body ++ '\'' :: t := by
      simp [Value.text]
    rw [hsplit]
    exact .literal (by decide) unquoted ht

theorem marks_of_mem_symbols : ∀ entry ∈ Comparison.symbols,
    entry.1 ≠ [] ∧ ∀ c ∈ entry.1, isQuote c = false ∧ c.isAlpha = false := by
  decide

theorem passable_marks {marks : Text}
    (hmarks : ∀ c ∈ marks, isQuote c = false ∧ c.isAlpha = false) (ht : Passable firsts t) :
    Passable firsts (marks ++ t) := by
  induction marks with
  | nil => exact ht
  | cons c marks ih =>
    exact .mark (hmarks c (by simp)).1 (hmarks c (by simp)).2
      (ih fun d hd => hmarks d (by simp [hd]))

theorem Test.passable_compare (field : Atom) (before : Space) {symbol : Text}
    {comparison : Comparison} (mem : (symbol, comparison) ∈ Comparison.symbols) (after : Space)
    (value : Value) (hf : firsts ⊆ reserved) (hstops : Stops t) (ht : Passable firsts t) :
    Passable firsts ((compare field before symbol comparison mem after value).text ++ t) := by
  obtain ⟨hne, hmarks⟩ : symbol ≠ [] ∧ ∀ c ∈ symbol, isQuote c = false ∧ c.isAlpha = false :=
    marks_of_mem_symbols _ mem
  simp only [Test.text, List.append_assoc]
  refine field.passable hf (before.stops ?_) (.blanks before.blank (passable_marks hmarks
    (.blanks after.blank (value.passable hf hstops ht))))
  obtain ⟨c, rest, rfl⟩ := List.exists_cons_of_ne_nil hne
  exact stops_cons (hmarks c (by simp)).2

theorem Test.passable (test : Test) (hf : firsts ⊆ reserved) (hk : Foreign [kwLike] firsts)
    (hstops : Stops t) (ht : Passable firsts t) : Passable firsts (test.text ++ t) := by
  cases test with
  | compare field before symbol comparison mem after value =>
    exact passable_compare field before mem after value hf hstops ht
  | like field before keyword after value =>
    simp only [Test.text, List.append_assoc]
    refine field.passable hf (before.stops _) (.blanks before.blank ?_)
    refine .spelled regular_like.lettered keyword.spells (hk kwLike (by simp)) (after.stops _) ?_
    exact .blanks after.blank (value.passable hf hstops ht)

/-! ## 5. Clauses -/

theorem keyword_mem (connective : Connective) : connective.keyword ∈ kwConnectives := by
  cases connective <;> simp [Connective.keyword, kwConnectives]

theorem Link.stops_flatMap (links : List Link) (hstops : Stops t) :
    Stops (links.flatMap Link.text ++ t) := by
  cases links with
  | nil => exact hstops
  | cons link links =>
    rw [List.flatMap_cons, Link.text, List.append_assoc, List.append_assoc]
    exact link.before.stops _

theorem Link.passable_flatMap (links : List Link) (hf : firsts ⊆ reserved)
    (hk : Foreign (kwLike :: kwConnectives) firsts) (hstops : Stops t) (ht : Passable firsts t) :
    Passable firsts (links.flatMap Link.text ++ t) := by
  induction links with
  | nil => exact ht
  | cons link links ih =>
    simp only [List.flatMap_cons, Link.text, List.append_assoc]
    have hmem := keyword_mem link.connective
    refine .blanks link.before.blank (.spelled (regular_connectives _ hmem).lettered
      link.keyword.spells (hk _ (by simp [hmem])) (link.after.stops _) (.blanks link.after.blank ?_))
    exact link.test.passable hf hk.head (stops_flatMap links hstops) ih

theorem WhereClause.passable (clause : WhereClause) (hf : firsts ⊆ reserved)
    (hk : Foreign (kwWhere :: kwLike :: kwConnectives) firsts)
    (hstops : Stops t) (ht : Passable firsts t) : Passable firsts (clause.text ++ t) := by
  simp only [WhereClause.text, WhereClause.body, List.append_assoc]
  refine .blanks clause.before.blank (.spelled regular_where.lettered clause.keyword.spells
    (hk kwWhere (by simp)) (clause.after.stops _) (.blanks clause.after.blank ?_))
  exact clause.first.passable hf hk.tail.head (Link.stops_flatMap clause.others hstops)
    (Link.passable_flatMap clause.others hf hk.tail hstops ht)

theorem JoinClause.passable (clause : JoinClause) (hf : firsts ⊆ reserved)
    (hk : Foreign (kwOn :: kwJoins) firsts)
    (hstops : Stops t) (ht : Passable firsts t) : Passable firsts (clause.text ++ t) := by
  have hregular := regular_joins _ clause.kind.keyword_mem
  simp only [JoinClause.text, List.append_assoc, List.cons_append]
  refine .blanks clause.before.blank (.spelled hregular.lettered clause.keyword.spells
    (hk _ (by simp [clause.kind.keyword_mem])) (clause.after.stops _) (.blanks clause.after.blank ?_))
  refine clause.table.passable hf (clause.onBefore.stops _) (.blanks clause.onBefore.blank ?_)
  refine .spelled regular_on.lettered clause.on.spells (hk kwOn (by simp)) (clause.onAfter.stops _)
    (.blanks clause.onAfter.blank ?_)
  refine clause.left.passable hf (clause.equalsBefore.stops (stops_cons (by decide)))
    (.blanks clause.equalsBefore.blank (.mark (by decide) (by decide) ?_))
  exact .blanks clause.equalsAfter.blank (clause.right.passable hf hstops ht)

theorem GroupClause.passable (clause : GroupClause) (hf : firsts ⊆ reserved)
    (hk : Foreign [kwGroupBy] firsts) (hstops : Stops t) (ht : Passable firsts t) :
    Passable firsts (clause.text ++ t) := by
  simp only [GroupClause.text, List.append_assoc]
  refine .blanks clause.before.blank (.spelled regular_groupBy.lettered clause.keyword.spells
    (hk kwGroupBy (by simp)) (clause.after.stops _) (.blanks clause.after.blank ?_))
  exact Listed.passable (fun item => item.passable hf) clause.list hstops ht

theorem SortEntry.passable (entry : SortEntry) (hf : firsts ⊆ reserved) (hstops : Stops t)
    (ht : Passable firsts t) : Passable firsts (entry.text ++ t) := by
  obtain ⟨item, direction⟩ := entry
  cases direction with
  | none =>
    rw [SortEntry.text, List.append_assoc]
    exact item.passable hf hstops ht
  | some direction =>
    obtain ⟨gap, written⟩ := direction
    simp only [SortEntry.text, directionText, Option.elim_some, List.append_assoc]
    exact item.passable hf (gap.stops _) (.blanks gap.blank (written.word.passable hf hstops ht))

theorem SortClause.passable (clause : SortClause) (hf : firsts ⊆ reserved)
    (hk : Foreign [kwOrderBy] firsts) (hstops : Stops t) (ht : Passable firsts t) :
    Passable firsts (clause.text ++ t) := by
  simp only [SortClause.text, List.append_assoc]
  refine .blanks clause.before.blank (.spelled regular_orderBy.lettered clause.keyword.spells
    (hk kwOrderBy (by simp)) (clause.after.stops _) (.blanks clause.after.blank ?_))
  exact Listed.passable (fun entry => entry.passable hf) clause.list hstops ht

theorem Query.passable_source (query : Query) (hf : firsts ⊆ reserved)
    (hk : Foreign [kwFrom] firsts) (hstops : Stops t) (ht : Passable firsts t) :
    Passable firsts (query.source ++ t) := by
  simp only [Query.source, List.append_assoc]
  refine Listed.passable (fun item => item.passable hf) query.fields (query.fromBefore.stops _)
    (.blanks query.fromBefore.blank ?_)
  refine .spelled regular_from.lettered query.fromWord.spells (hk kwFrom (by simp))
    (query.fromAfter.stops _) (.blanks query.fromAfter.blank ?_)
  exact query.table.passable hf hstops ht

/-! ## 6. Clauses that may be missing -/

/-- A row that may stand right behind a word. -/
structure Follows (firsts : List Text) (t : Text) : Prop where
  stops : Stops t
  passable : Passable firsts t

theorem follows_nil : Follows firsts [] :=
  ⟨stops_nil, .nil⟩

theorem follows_optional {α : Type} {write : α → Text} (clause : Option α)
    (hwrite : ∀ a, Follows firsts (write a ++ t)) (ht : Follows firsts t) :
    Follows firsts (optional write clause ++ t) := by
  cases clause with
  | none => exact ht
  | some a => exact hwrite a

theorem JoinClause.follows (clause : Option JoinClause) (hf : firsts ⊆ reserved)
    (hk : Foreign (kwOn :: kwJoins) firsts)
    (ht : Follows firsts t) : Follows firsts (optional JoinClause.text clause ++ t) := by
  refine follows_optional clause (fun clause => ⟨?_, ?_⟩) ht
  · rw [JoinClause.text, List.append_assoc]
    exact clause.before.stops _
  · exact clause.passable hf hk ht.stops ht.passable

theorem WhereClause.follows (clause : Option WhereClause) (hf : firsts ⊆ reserved)
    (hk : Foreign (kwWhere :: kwLike :: kwConnectives) firsts)
    (ht : Follows firsts t) : Follows firsts (optional WhereClause.text clause ++ t) := by
  refine follows_optional clause (fun clause => ⟨?_, ?_⟩) ht
  · rw [WhereClause.text, List.append_assoc]
    exact clause.before.stops _
  · exact clause.passable hf hk ht.stops ht.passable

theorem GroupClause.follows (clause : Option GroupClause) (hf : firsts ⊆ reserved)
    (hk : Foreign [kwGroupBy] firsts) (ht : Follows firsts t) :
    Follows firsts (optional GroupClause.text clause ++ t) := by
  refine follows_optional clause (fun clause => ⟨?_, ?_⟩) ht
  · rw [GroupClause.text, List.append_assoc]
    exact clause.before.stops _
  · exact clause.passable hf hk ht.stops ht.passable

theorem SortClause.follows (clause : Option SortClause) (hf : firsts ⊆ reserved)
    (hk : Foreign [kwOrderBy] firsts) (ht : Follows firsts t) :
    Follows firsts (optional SortClause.text clause ++ t) := by
  refine follows_optional clause (fun clause => ⟨?_, ?_⟩) ht
  · rw [SortClause.text, List.append_assoc]
    exact clause.before.stops _
  · exact clause.passable hf hk ht.stops ht.passable

end

/-! ## 7. Bare ends -/

theorem trimmed_of_solid {w : Text} (h : Solid w) : Trimmed w :=
  ⟨fun c hc => (h c (List.mem_of_head? hc)).1, fun c hc => (h c (List.mem_of_getLast? hc)).1⟩

theorem Atom.trimmed (atom : Atom) : Trimmed atom.text :=
  trimmed_of_solid atom.solid

theorem Item.trimmed (item : Item) : Trimmed item.text :=
  trimmed_of_solid item.solid

theorem Table.ne_nil (table : Table) : table.text ≠ [] := by
  simp [Table.text, table.first.ne_nil]

theorem Table.trimmed (table : Table) : Trimmed table.text := by
  refine table.first.trimmed.append table.first.ne_nil ?_
  induction table.others with
  | nil => exact endsBare_nil
  | cons atom others ih =>
    have hatom : EndsBare ([' '] ++ atom.text) := atom.trimmed.ends.append atom.ne_nil
    rw [List.flatMap_cons]
    exact endsBare_append hatom ih

theorem Listed.ne_nil {α : Type} {write : α → Text} (hwrite : ∀ a, write a ≠ [])
    (list : Listed α) : list.text write ≠ [] := by
  simp [Listed.text, hwrite]

theorem Listed.trimmed {α : Type} {write : α → Text} (hwrite : ∀ a, Trimmed (write a))
    (hne : ∀ a, write a ≠ []) (list : Listed α) : Trimmed (list.text write) := by
  refine (hwrite list.first).append (hne list.first) ?_
  induction list.others with
  | nil => exact endsBare_nil
  | cons entry others ih =>
    obtain ⟨before, after, a⟩ := entry
    have hentry : EndsBare ((before.text ++ [','] ++ after.text) ++ write a) :=
      (hwrite a).ends.append (hne a)
    rw [tailText, List.flatMap_cons]
    refine endsBare_append ?_ ih
    simpa using hentry

theorem Value.ne_nil (value : Value) : value.text ≠ [] := by
  cases value with
  | atom name => exact name.ne_nil
  | literal body unquoted => simp [Value.text]

theorem Value.trimmed (value : Value) : Trimmed value.text := by
  cases value with
  | atom name => exact name.trimmed
  | literal body unquoted =>
    refine ⟨startsBare_cons (by decide), ?_⟩
    intro c hc
    rw [Value.text, List.getLast?_concat] at hc
    obtain rfl := Option.some.inj hc
    decide

/-- A clause ends bare with its body. -/
theorem endsBare_clause {before keyword after body : Text} (h : EndsBare body) (hne : body ≠ []) :
    EndsBare (before ++ (keyword ++ (after ++ body))) := by
  rw [← List.append_assoc, ← List.append_assoc]
  exact h.append hne

theorem Test.ne_nil (test : Test) : test.text ≠ [] := by
  cases test with
  | compare field => simp [Test.text, field.ne_nil]
  | like field => simp [Test.text, field.ne_nil]

theorem Test.trimmed (test : Test) : Trimmed test.text := by
  cases test with
  | compare field before symbol comparison mem after value =>
    exact field.trimmed.append field.ne_nil (endsBare_clause value.trimmed.ends value.ne_nil)
  | like field before keyword after value =>
    exact field.trimmed.append field.ne_nil (endsBare_clause value.trimmed.ends value.ne_nil)

theorem WhereClause.body_ne_nil (clause : WhereClause) : clause.body ≠ [] := by
  simp [WhereClause.body, clause.first.ne_nil]

theorem WhereClause.trimmed_body (clause : WhereClause) : Trimmed clause.body := by
  refine clause.first.trimmed.append clause.first.ne_nil ?_
  induction clause.others with
  | nil => exact endsBare_nil
  | cons link links ih =>
    rw [List.flatMap_cons]
    exact endsBare_append (endsBare_clause link.test.trimmed.ends link.test.ne_nil) ih

theorem SortEntry.ne_nil (entry : SortEntry) : entry.text ≠ [] := by
  simp [SortEntry.text, entry.item.ne_nil]

theorem SortEntry.trimmed (entry : SortEntry) : Trimmed entry.text := by
  obtain ⟨item, direction⟩ := entry
  refine item.trimmed.append item.ne_nil ?_
  cases direction with
  | none => exact endsBare_nil
  | some direction => exact direction.2.word.trimmed.ends.append direction.2.word.ne_nil

theorem WhereClause.endsBare (clause : WhereClause) : EndsBare clause.text :=
  endsBare_clause clause.trimmed_body.ends clause.body_ne_nil

theorem GroupClause.endsBare (clause : GroupClause) : EndsBare clause.text :=
  endsBare_clause (clause.list.trimmed Item.trimmed Item.ne_nil).ends
    (clause.list.ne_nil Item.ne_nil)

theorem SortClause.endsBare (clause : SortClause) : EndsBare clause.text :=
  endsBare_clause (clause.list.trimmed SortEntry.trimmed SortEntry.ne_nil).ends
    (clause.list.ne_nil SortEntry.ne_nil)

theorem JoinClause.endsBare (clause : JoinClause) : EndsBare clause.text := by
  have : EndsBare ((clause.before.text ++ clause.keyword.text ++ clause.after.text ++
      clause.table.text ++ clause.onBefore.text ++ clause.on.text ++ clause.onAfter.text ++
      clause.left.text ++ clause.equalsBefore.text ++ ['='] ++ clause.equalsAfter.text) ++
      clause.right.text) := clause.right.trimmed.ends.append clause.right.ne_nil
  simpa [JoinClause.text] using this

theorem endsBare_optional {α : Type} {write : α → Text} (hwrite : ∀ a, EndsBare (write a))
    {s : Text} (hs : EndsBare s) (clause : Option α) : EndsBare (s ++ optional write clause) := by
  refine endsBare_append hs ?_
  cases clause with
  | none => exact endsBare_nil
  | some a => exact hwrite a

theorem Query.source_ne_nil (query : Query) : query.source ≠ [] := by
  simp [Query.source, query.fromBefore.ne_nil]

theorem Query.trimmed_source (query : Query) : Trimmed query.source :=
  (query.fields.trimmed Item.trimmed Item.ne_nil).append (query.fields.ne_nil Item.ne_nil)
    (endsBare_clause query.table.trimmed.ends query.table.ne_nil)

end SelectOutline.Grammar
