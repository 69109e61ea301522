/-
SelectOutline.Proofs.Conditions — conditions are read as they were
written.

A condition falls apart at its symbol or at the word `LIKE`: no symbol
and no such word stands in the field before it, and what follows a
symbol does not make it a longer one. Several conditions fall apart at
their connectives, since none of them holds one (`WhereClause.parse_body`).
-/
import SelectOutline.Proofs.Clauses

namespace SelectOutline.Grammar

open Text Keyword

/-! ## 1. Values and symbols -/

theorem Atom.passable_self (atom : Atom) {firsts : List Text} (hf : firsts ⊆ reserved) :
    Passable firsts atom.text := by
  have := atom.passable hf stops_nil .nil
  rwa [List.append_nil] at this

/-- Quotes come off a literal and nothing comes off a name. -/
theorem Value.unquote_text (value : Value) : Condition.unquote value.text = value.pattern := by
  cases value with
  | atom name =>
    obtain ⟨c, rest, htext⟩ := List.exists_cons_of_ne_nil name.ne_nil
    have hc : c ≠ '\'' := by
      rintro rfl
      have := (name.plain '\'' (by simp [htext])).2.1
      revert this
      decide
    simp only [Value.text, Value.pattern, htext, Condition.unquote]
    split
    · next heq => exact absurd (List.cons.inj heq).1 hc
    · rfl
  | literal body unquoted =>
    simp [Value.text, Value.pattern, Condition.unquote]

/-- A character that no operator begins with. -/
abbrev Inert (c : Char) : Prop :=
  isQuote c = false ∧ c ∉ ['=', '<', '>', '!']

theorem inert_of_isBlank {c : Char} (h : isBlank c = true) : Inert c := by
  refine ⟨isQuote_of_isBlank h, fun hmem => ?_⟩
  have hnone : ∀ d ∈ ['=', '<', '>', '!'], isBlank d = false := by decide
  rw [hnone c hmem] at h
  cases h

theorem Atom.inert (atom : Atom) : ∀ c ∈ atom.text, Inert c := by
  intro c hc
  obtain ⟨-, hquote, hmem⟩ := atom.plain c hc
  refine ⟨hquote, fun h => hmem ?_⟩
  simp only [List.mem_cons] at h ⊢
  rcases h with h | h | h | h | h
  · simp [h]
  · simp [h]
  · simp [h]
  · simp [h]
  · cases h

/-- The first symbol is found behind characters that begin none. -/
theorem findFrom_inert {s : Text} (hs : ∀ c ∈ s, Inert c) (position : Nat) (t : Text) :
    Comparison.findFrom .outside position (s ++ t) =
      Comparison.findFrom .outside (position + s.length) t := by
  induction s generalizing position with
  | nil => rfl
  | cons c s ih =>
    obtain ⟨hquote, hmem⟩ := hs c (by simp)
    have hnone : Comparison.symbols.find? (·.1.isPrefixOf (c :: (s ++ t))) = none := by
      simp only [List.mem_cons, not_or] at hmem
      obtain ⟨h1, h2, h3, h4, -⟩ := hmem
      simp [Comparison.symbols, List.isPrefixOf, Ne.symm h1, Ne.symm h2, Ne.symm h3, Ne.symm h4]
    rw [List.cons_append, Comparison.findFrom, Quoting.step_outside hquote, hnone,
      ih fun d hd => hs d (by simp [hd]), List.length_cons]
    simp only [ite_self]
    congr 1
    omega

/-- The longest symbol counts: what follows a symbol does not make it a
longer one. -/
theorem find?_symbols {symbol : Text} {comparison : Comparison}
    (h : (symbol, comparison) ∈ Comparison.symbols) {c : Char} (rest : Text)
    (hc : c ∉ ['=', '<', '>', '!']) :
    Comparison.symbols.find? (·.1.isPrefixOf (symbol ++ c :: rest)) =
      some (symbol, comparison) := by
  have hc' : ('=' == c) = false ∧ ('>' == c) = false := by
    simp only [List.mem_cons, not_or] at hc
    simp [Ne.symm hc.1, Ne.symm hc.2.2.1]
  simp only [Comparison.symbols, List.mem_cons, List.not_mem_nil, or_false, Prod.mk.injEq] at h
  rcases h with ⟨rfl, rfl⟩ | ⟨rfl, rfl⟩ | ⟨rfl, rfl⟩ | ⟨rfl, rfl⟩ | ⟨rfl, rfl⟩ | ⟨rfl, rfl⟩ |
    ⟨rfl, rfl⟩
  all_goals simp [Comparison.symbols, List.isPrefixOf, hc'.1, hc'.2]

/-- Neither a blank nor the start of a value goes on with a symbol. -/
theorem not_mem_of_value {after : Space} {value : Value} {c : Char} {rest : Text}
    (h : after.text ++ value.text = c :: rest) : c ∉ ['=', '<', '>', '!'] := by
  cases hblank : after.text with
  | cons b gap =>
    rw [hblank] at h
    obtain rfl := (List.cons.inj h).1
    exact (inert_of_isBlank (after.blank b (by simp [hblank]))).2
  | nil =>
    rw [hblank, List.nil_append] at h
    cases value with
    | atom name =>
      have hname : name.text = c :: rest := h
      exact (name.inert c (by simp [hname])).2
    | literal body unquoted =>
      obtain rfl := (List.cons.inj h).1
      decide

/-- The symbol of a condition is found where it was written. -/
theorem find_compare (field : Atom) (before : Space) {symbol : Text} {comparison : Comparison}
    (mem : (symbol, comparison) ∈ Comparison.symbols) (after : Space) (value : Value) :
    Comparison.find (field.text ++ (before.text ++ (symbol ++ (after.text ++ value.text)))) =
      some ⟨(field.text ++ before.text).length, (field.text ++ before.text ++ symbol).length,
        comparison⟩ := by
  have hinert : ∀ c ∈ field.text ++ before.text, Inert c := by
    intro c hc
    rcases List.mem_append.mp hc with hc | hc
    · exact field.inert c hc
    · exact inert_of_isBlank (before.blank c hc)
  obtain ⟨c, rest, hrest⟩ := List.exists_cons_of_ne_nil
    (List.append_ne_nil_of_right_ne_nil after.text value.ne_nil)
  obtain ⟨hne, hmarks⟩ := marks_of_mem_symbols _ mem
  obtain ⟨d, tail, rfl⟩ := List.exists_cons_of_ne_nil hne
  have hquote : isQuote d = false := (hmarks d (by simp)).1
  have hfirst := find?_symbols mem rest (not_mem_of_value hrest)
  rw [List.cons_append] at hfirst
  rw [← List.append_assoc, Comparison.find, findFrom_inert hinert, hrest, List.cons_append,
    Comparison.findFrom, if_pos (Quoting.plain_outside hquote), hfirst]
  simp only [Nat.zero_add, List.length_append]

/-! ## 2. Conditions -/

/-- A condition is read as it was written. -/
theorem Test.parse_text (test : Test) (connective : Option Connective) {text : Text}
    (h : trim text = test.text) :
    (Condition.parse text connective).outcome = .ok (test.condition connective) := by
  rw [Condition.outcome_parse, h]
  cases test with
  | like field before keyword after value =>
    obtain ⟨hit, hfind, htake, hdrop⟩ := exists_hit_clause regular_like (by decide)
      (show Passable ["LIKE".toList] field.text from field.passable_self (by decide)) before keyword
      after value.text
    have hfield := field.trimmed.trim_append_blanks before.blank
    have hvalue := value.trimmed.trim_blanks_append after.blank
    simp only [Test.text, hfind, htake, hdrop, hfield, hvalue, Bool.or_eq_true, List.isEmpty_iff,
      field.ne_nil, value.ne_nil, or_self, if_false, value.unquote_text]
    rfl
  | compare field before symbol comparison mem after value =>
    have hpassable : Passable ["LIKE".toList]
        (Test.compare field before symbol comparison mem after value).text := by
      have := passable_compare field before mem after value (by decide) stops_nil
        (show Passable ["LIKE".toList] [] from .nil)
      rwa [List.append_nil] at this
    have htext : field.text ++ (before.text ++ (symbol ++ (after.text ++ value.text))) =
        (field.text ++ before.text ++ symbol) ++ (after.text ++ value.text) := by simp
    have htake : (field.text ++ (before.text ++ (symbol ++ (after.text ++ value.text)))).take
        (field.text ++ before.text).length = field.text ++ before.text := by
      rw [← List.append_assoc, List.take_left]
    have hdrop : (field.text ++ (before.text ++ (symbol ++ (after.text ++ value.text)))).drop
        (field.text ++ before.text ++ symbol).length = after.text ++ value.text := by
      rw [htext, List.drop_left]
    rw [find_passable_zero regular_like (by decide) hpassable]
    have hfield := field.trimmed.trim_append_blanks before.blank
    have hvalue := value.trimmed.trim_blanks_append after.blank
    simp only [Test.text, find_compare field before mem after value, htake, hdrop, hfield, hvalue,
      Bool.or_eq_true, List.isEmpty_iff, field.ne_nil, value.ne_nil, or_self, if_false]
    rfl

/-! ## 3. Connectives -/

theorem connectives_getElem (connective : Connective) :
    ∃ index, kwConnectives[index]? = some connective.keyword ∧
      Connective.ofIndex index = connective := by
  cases connective
  · exact ⟨0, rfl, rfl⟩
  · exact ⟨1, rfl, rfl⟩

/-- A condition holds no connective. -/
theorem Test.passable_connectives (test : Test) {gap : Text} (hgap : AllBlank gap) :
    Passable ["AND".toList, "OR".toList] (gap ++ test.text) := by
  have := Passable.blanks hgap (test.passable (by decide) (by decide) stops_nil
    (show Passable ["AND".toList, "OR".toList] [] from .nil))
  rwa [List.append_nil] at this

/-- The conditions from some place on: `pre` is what was read before, and
blanks may come first. -/
theorem Link.parseFrom_text (links : List Link) (pre : Text) {gap : Text} (hgap : AllBlank gap)
    (test : Test) (connective : Option Connective) :
    (Criteria.parseFrom (pre ++ (gap ++ (test.text ++ links.flatMap Link.text))) pre.length
      connective (findAll kwConnectives (pre ++ (gap ++ (test.text ++ links.flatMap Link.text)))
        pre.length)).outcome =
      .ok (test.condition connective :: links.map Link.condition) := by
  induction links generalizing pre gap test connective with
  | nil =>
    have hnone : find kwConnectives (pre ++ (gap ++ (test.text ++ []))) pre.length = none := by
      rw [List.append_nil]
      exact find_passable regular_connectives (by decide) pre (test.passable_connectives hgap)
    have htrim : trim ((pre ++ (gap ++ (test.text ++ []))).drop pre.length) = test.text := by
      rw [List.drop_left, ← List.append_assoc]
      exact test.trimmed.trim_between hgap allBlank_nil
    rw [List.flatMap_nil, findAll_of_none hnone, Criteria.outcome_parseFrom_nil,
      test.parse_text connective htrim]
    rfl
  | cons link links ih =>
    obtain ⟨index, hindex, hconnective⟩ := connectives_getElem link.connective
    -- The text as the search sees it, and as the rest of the loop sees it.
    have htext : pre ++ (gap ++ (test.text ++ (link :: links).flatMap Link.text)) =
        pre ++ ((gap ++ test.text) ++ (link.before.text ++ (link.keyword.text ++
          (link.after.text ++ (link.test.text ++ links.flatMap Link.text))))) := by
      simp [Link.text]
    have hsplit : pre ++ ((gap ++ test.text) ++ (link.before.text ++ (link.keyword.text ++
          (link.after.text ++ (link.test.text ++ links.flatMap Link.text))))) =
        (pre ++ (gap ++ test.text) ++ link.before.text ++ link.keyword.text) ++
          (link.after.text ++ (link.test.text ++ links.flatMap Link.text)) := by
      simp
    have hfind := find_clause regular_connectives (by decide) (by decide) hindex pre
      (test.passable_connectives hgap) link.before.ne_nil link.before.blank link.keyword.spells
      (link.after.blank_head (link.test.text ++ links.flatMap Link.text))
    have hslice : trim (slice (pre ++ ((gap ++ test.text) ++ (link.before.text ++
        (link.keyword.text ++ (link.after.text ++ (link.test.text ++ links.flatMap Link.text))))))
        pre.length (pre ++ (gap ++ test.text) ++ link.before.text).length) = test.text := by
      have htake : pre ++ ((gap ++ test.text) ++ (link.before.text ++ (link.keyword.text ++
            (link.after.text ++ (link.test.text ++ links.flatMap Link.text))))) =
          (pre ++ (gap ++ test.text) ++ link.before.text) ++ (link.keyword.text ++
            (link.after.text ++ (link.test.text ++ links.flatMap Link.text))) := by
        simp
      rw [slice, htake, List.take_left, List.append_assoc, List.drop_left]
      exact test.trimmed.trim_between hgap link.before.blank
    have hrest := ih (pre ++ (gap ++ test.text) ++ link.before.text ++ link.keyword.text)
      link.after.blank link.test (some link.connective)
    rw [← hsplit] at hrest
    rw [htext, findAll_of_some regular_connectives hfind, Criteria.outcome_parseFrom_cons,
      test.parse_text connective hslice, hconnective, hrest]
    rfl

/-- The conditions of a clause are read as they were written. -/
theorem WhereClause.parse_body (clause : WhereClause) :
    (Criteria.parse clause.body).outcome = .ok clause.conditions :=
  Link.parseFrom_text clause.others [] allBlank_nil clause.first none

end SelectOutline.Grammar
