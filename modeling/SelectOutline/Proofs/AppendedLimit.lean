/-
SelectOutline.Proofs.AppendedLimit — a limit added to the end of a query.

A query without a limit that gets one at its end is read as before, but
for the limit. The words `LIMIT` that it holds already do not matter: none
of them has digits behind it, and none gets any (`readDigits_before`), not
even if it is the last word of the query. What is cut out is what was
added, down to the blanks in front of it, and the phases behind the limit
phase come to the text that they came to before.
-/
import SelectOutline.Proofs.Clauses
import SelectOutline.Proofs.Noninterference
import SelectOutline.Proofs.Pipeline
import SelectOutline.Proofs.Positions
import SelectOutline.Proofs.SingleJoin

namespace SelectOutline

open Text Grammar

/-! ## 1. Numbers -/

theorem Text.isDigit_of_isDigit {c : Char} (h : c.isDigit = true) : isDigit c = true :=
  inRanges_iff.mpr ⟨(0x30, 0x39), List.mem_singleton_self _, isDigit_bounds h⟩

theorem Text.isDigit_of_isAlpha {c : Char} (h : c.isAlpha = true) : isDigit c = false := by
  rw [Bool.eq_false_iff]
  intro hdigit
  obtain ⟨range, hrange, hbounds⟩ := inRanges_iff.mp hdigit
  obtain rfl := List.mem_singleton.mp hrange
  rcases isAlpha_bounds h with halpha | halpha <;> omega

/-- A number in base ten is written with digits. -/
theorem Text.isDigit_of_mem_toDigits {n : Nat} : ∀ c ∈ Nat.toDigits 10 n, isDigit c = true :=
  fun _ hc => isDigit_of_isDigit (Nat.isDigit_of_mem_toDigits (by decide) (by decide) hc)

/-- What is read back is the number. -/
theorem Text.decimalValue_toDigits (n : Nat) : decimalValue (Nat.toDigits 10 n) = n :=
  Nat.ofDigitChars_toDigits (by decide) (by decide)

/-! ## 2. The limit phase -/

/-- No digits are read behind blanks that no digit follows. -/
theorem Cursor.readDigits_eq_none_iff {text : Text} {position : Nat} :
    (Cursor.mk text position).skipBlanks.readDigits = none ↔
      ∀ c ∈ (trimStart (text.drop position)).head?, isDigit c = false := by
  have hrest : (Cursor.mk text position).skipBlanks.rest = trimStart (text.drop position) :=
    rest_skipBlanks _
  rw [readDigits, readRun, hrest]
  cases trimStart (text.drop position) with
  | nil => simp
  | cons c rest =>
    rw [List.takeWhile_cons]
    cases hdigit : isDigit c <;> simp [hdigit]

/-- Keywords without digits behind them are passed over. -/
theorem Limit.outcome_detachFrom_append {text : Text} {earlier later : List Hit}
    (h : ∀ hit ∈ earlier, (Cursor.mk text hit.stop).skipBlanks.readDigits = none) :
    (Limit.detachFrom text (earlier ++ later)).outcome = (Limit.detachFrom text later).outcome := by
  induction earlier with
  | nil => rfl
  | cons hit earlier ih =>
    obtain ⟨hhit, hearlier⟩ := List.forall_mem_cons.mp h
    rw [List.cons_append, Limit.outcome_detachFrom_cons, hhit]
    exact ih hearlier

/-- A text in which no limit is found has no digits behind a keyword. -/
theorem Limit.readDigits_of_detachFrom {text : Text} {hits : List Hit}
    {detached : Detached (Option UInt64)} (h : (Limit.detachFrom text hits).outcome = .ok detached)
    (hnone : detached.clause = none) :
    ∀ hit ∈ hits, (Cursor.mk text hit.stop).skipBlanks.readDigits = none := by
  induction hits with
  | nil => exact List.forall_mem_nil _
  | cons hit hits ih =>
    rw [Limit.outcome_detachFrom_cons] at h
    split at h
    · next hread => exact List.forall_mem_cons.mpr ⟨hread, ih h⟩
    · split at h
      · obtain rfl := Except.ok.inj h
        cases hnone
      · cases h

/-- The keywords that the limit phase looks at. -/
theorem Limit.mem_findAll_iff {text : Text} {hit : Hit} :
    hit ∈ Keyword.findAll [kwLimit] text 0 ↔ hit.index = 0 ∧ hit.keyword = kwLimit ∧
      ∃ before spelled after, hit.Splits text before spelled after ∧ Closed before := by
  rw [Keyword.mem_findAll_iff separate_limit]
  constructor
  · rintro ⟨before, spelled, after, hsplits, -, hclosed, hindex⟩
    rw [List.getElem?_singleton] at hindex
    split at hindex
    · next hzero =>
      exact ⟨hzero, (Option.some.inj hindex).symm, before, spelled, after, hsplits, hclosed⟩
    · cases hindex
  · rintro ⟨hzero, hkeyword, before, spelled, after, hsplits, hclosed⟩
    exact ⟨before, spelled, after, hsplits, Nat.zero_le _, hclosed, by rw [hzero, hkeyword]; rfl⟩

/-- What stands behind a keyword of a text with a bare end begins as before
when something is added to the text. -/
theorem Hit.Splits.readDigits_append {hit : Hit} {text before spelled after : Text}
    (h : hit.Splits text before spelled after) (hends : EndsBare text)
    (hnone : (Cursor.mk text hit.stop).skipBlanks.readDigits = none) (t : Text) :
    (Cursor.mk (text ++ t) hit.stop).skipBlanks.readDigits = none := by
  have hafter : EndsBare after := EndsBare.of_append (s := before ++ spelled) (h.text_eq ▸ hends)
  have hne : after ≠ [] := by
    rintro rfl
    exact absurd h.blank_after (by simp)
  have hnil := trimStart_ne_nil hafter hne
  rw [Cursor.readDigits_eq_none_iff, h.drop_stop] at hnone
  rw [Cursor.readDigits_eq_none_iff, (h.append t).drop_stop, trimStart_append_of_ne_nil hnil,
    List.head?_append_of_ne_nil _ hnil]
  exact hnone

namespace Grammar.LimitClause

theorem splits_hit (clause : LimitClause) (text : Text) :
    (clause.hit text).Splits (text ++ clause.text) (text ++ clause.before.text)
      clause.keyword.text (clause.after.text ++ clause.digits) := by
  refine ⟨by simp [LimitClause.text], rfl, List.length_append, clause.keyword.spells, ?_,
    clause.after.blank_head clause.digits⟩
  rw [getLast?_append_blanks clause.before.blank clause.before.ne_nil]

/-- A clause begins with a word, not with digits. -/
theorem isDigit_head (clause : LimitClause) :
    ∀ c ∈ (trimStart clause.text).head?, isDigit c = false := by
  obtain ⟨letter, tail, hword, -, halpha⟩ :=
    clause.keyword.spells.exists_letter regular_limit.lettered
  rw [LimitClause.text, trimStart_append_of_allBlank clause.before.blank, hword, List.cons_append,
    trimStart_of_startsBare (startsBare_cons (isBlank_of_isAlpha halpha))]
  intro c hc
  obtain rfl := Option.some.inj hc
  exact isDigit_of_isAlpha halpha

/-- A `LIMIT` in front of a clause that is added has no digits behind it. -/
theorem readDigits_before {text : Text} (hends : EndsBare text) (clause : LimitClause)
    (hnone : ∀ hit ∈ Keyword.findAll [kwLimit] text 0,
      (Cursor.mk text hit.stop).skipBlanks.readDigits = none)
    {hit : Hit} (hmem : hit ∈ Keyword.findAll [kwLimit] (text ++ clause.text) 0)
    (hstop : hit.stop ≤ (text ++ clause.before.text).length) :
    (Cursor.mk (text ++ clause.text) hit.stop).skipBlanks.readDigits = none := by
  obtain ⟨hzero, hkeyword, before, spelled, after, hsplits, hclosed⟩ :=
    Limit.mem_findAll_iff.mp hmem
  rcases Nat.lt_or_ge hit.stop text.length with hinside | hbehind
  · -- The keyword stands in the text, and what follows it there is no digit.
    obtain ⟨rest, hrest⟩ := hsplits.of_append hinside
    have hfound : hit ∈ Keyword.findAll [kwLimit] text 0 :=
      Limit.mem_findAll_iff.mpr ⟨hzero, hkeyword, before, spelled, rest, hrest, hclosed⟩
    exact hrest.readDigits_append hends (hnone hit hfound) clause.text
  · -- The keyword ends the text, and what follows it is the clause.
    have hspells := hsplits.spells
    rw [hkeyword] at hspells
    have hbare : EndsBare (before ++ spelled) :=
      (hspells.endsBare regular_limit.lettered.bare).append
        (hspells.ne_nil regular_limit.lettered.bare regular_limit.words_ne_nil)
    have hprefix : before ++ spelled <+: text ++ clause.before.text := by
      refine List.prefix_of_prefix_length_le ⟨after, hsplits.text_eq.symm⟩
        ⟨clause.keyword.text ++ (clause.after.text ++ clause.digits), by simp [LimitClause.text]⟩ ?_
      rw [List.length_append, ← hsplits.stop_eq]
      exact hstop
    have hle := length_le_of_prefix_blanks hbare clause.before.blank hprefix
    have hlength : (before ++ spelled).length = text.length := by
      rw [hsplits.stop_eq] at hbehind
      rw [List.length_append] at hle ⊢
      omega
    have hafter : clause.text = after := (List.append_inj hsplits.text_eq hlength.symm).2
    rw [Cursor.readDigits_eq_none_iff, hsplits.drop_stop, ← hafter]
    exact clause.isDigit_head

/-- **The limit that is added is the one that is read**, and what is left is
the text that it was added to. -/
theorem detach_append {text : Text} (hclosed : Closed text) (hends : EndsBare text)
    {detached : Detached (Option UInt64)} (h : (Limit.detach text).outcome = .ok detached)
    (hnone : detached.clause = none) (clause : LimitClause) :
    (Limit.detach (text ++ clause.text)).outcome = .ok ⟨some clause.value, text⟩ := by
  have hsplits := clause.splits_hit text
  have hmem : clause.hit text ∈ Keyword.findAll [kwLimit] (text ++ clause.text) 0 :=
    Limit.mem_findAll_iff.mpr ⟨rfl, rfl, _, _, _, hsplits,
      hclosed.append clause.before.blank.unquoted.closed⟩
  obtain ⟨earlier, later, hhits⟩ := List.append_of_mem hmem
  have hearlier : ∀ hit ∈ earlier,
      (Cursor.mk (text ++ clause.text) hit.stop).skipBlanks.readDigits = none := by
    intro hit hearlier
    have hhit : hit ∈ Keyword.findAll [kwLimit] (text ++ clause.text) 0 :=
      hhits ▸ List.mem_append_left _ hearlier
    obtain ⟨-, hkeyword, _, _, _, hsplits', -⟩ := Limit.mem_findAll_iff.mp hhit
    have hpairwise := Keyword.findAll_pairwise regular_limit.single (text ++ clause.text) 0
    rw [hhits] at hpairwise
    have hlt := (List.pairwise_append.mp hpairwise).2.2 hit hearlier _ List.mem_cons_self
    have hstop := hsplits'.stop_lt_start separate_limit hsplits
      (List.mem_singleton.mpr hkeyword) (List.mem_singleton_self kwLimit) hlt
    exact clause.readDigits_before hends (Limit.readDigits_of_detachFrom h hnone) hhit hstop.le
  rw [Limit.detach, hhits, Limit.outcome_detachFrom_append hearlier]
  exact clause.outcome_detachFrom_hit hends later

end Grammar.LimitClause

/-! ## 3. The start of the query -/

theorem Distinct.Opens.append {text rest : Text} (h : Opens text rest) (t : Text) :
    Opens (text ++ t) (rest ++ t) := by
  obtain ⟨select, gap, distinct, rfl, hselect, hne, hgap, hdistinct, hrest⟩ := h
  refine ⟨select, gap, distinct, by simp, hselect, hne, hgap, hdistinct, ?_⟩
  cases rest with
  | nil => cases hrest
  | cons b rest => exact hrest

theorem HeadText.ne_nil {fields : List Text} {table head : Text}
    (h : HeadText fields table head) : head ≠ [] := by
  obtain ⟨_, _, _, _, _, _, _, -, hne, -, -, -, -, -, -, rfl, -⟩ := h
  simp [hne]

/-- The head of a query does not lie in `SELECT` and `DISTINCT`: behind
its first field there is a blank, and in `DISTINCT` there is none. -/
theorem HeadText.not_prefix {fields : List Text} {table head : Text}
    (h : HeadText fields table head) {select gap distinct : Text}
    (hselect : select.map Char.toUpper = "SELECT".toList) (hgap : AllBlank gap)
    (hdistinct : distinct.map Char.toUpper = "DISTINCT".toList) :
    ¬ head <+: select ++ gap ++ distinct := by
  obtain ⟨select', gap', list, after, spelled, gap'', name, hselect', -, hgap', hne, hafter, -, -,
    -, rfl, hlist, -⟩ := h
  rintro ⟨w, hw⟩
  have hletters : ∀ c ∈ distinct, c.isAlpha = true := Keyword.isAlpha_of_mem (by decide) hdistinct
  have hlength : select'.length = select.length := by
    have := congrArg List.length (hselect'.trans hselect.symm)
    simpa using this
  have hsplit : gap' ++ (list ++ (after ++ (spelled ++ gap'' ++ name ++ w))) = gap ++ distinct := by
    refine (List.append_inj ?_ hlength).2
    simpa using hw
  have hnil : trimStart list ≠ [] := by
    intro hnil
    exact hlist (trim_eq_nil_iff.mpr (trimStart_eq_nil_iff.mp hnil))
  have hbare : StartsBare distinct :=
    fun c hc => isBlank_of_isAlpha (hletters c (List.mem_of_head? hc))
  -- Without the blanks in front, a blank would stand in the word.
  have htrim := congrArg trimStart hsplit
  rw [trimStart_append_of_allBlank hgap', trimStart_append_of_ne_nil hnil,
    trimStart_append_of_allBlank hgap, trimStart_of_startsBare hbare] at htrim
  obtain ⟨b, after, rfl⟩ := List.exists_cons_of_ne_nil hne
  have hb := isBlank_of_isAlpha (hletters b (by rw [← htrim]; simp))
  rw [hafter b (by simp)] at hb
  cases hb

/-- A query does not come to open with `DISTINCT` by what is added to its
end. -/
theorem Distinct.Opens.of_append {fields : List Text} {table head text t rest : Text}
    (hhead : HeadText fields table head) (hbegins : head <+: text) (h : Opens (text ++ t) rest) :
    ∃ rest', Opens text rest' := by
  obtain ⟨select, gap, distinct, heq, hselect, hne, hgap, hdistinct, hrest⟩ := h
  have hopening : select ++ gap ++ distinct <+: text ++ t := ⟨rest, heq.symm⟩
  rcases Nat.lt_or_ge (select ++ gap ++ distinct).length text.length with hlt | hle
  · obtain ⟨rest', rfl⟩ :=
      List.prefix_of_prefix_length_le hopening (List.prefix_append text t) hlt.le
    refine ⟨rest', select, gap, distinct, rfl, hselect, hne, hgap, hdistinct, ?_⟩
    have htail : rest' ++ t = rest := by simpa using heq
    rw [← htail] at hrest
    cases rest' with
    | nil => simp at hlt
    | cons b rest' => exact hrest
  · have htext := List.prefix_of_prefix_length_le (List.prefix_append text t) hopening hle
    exact absurd (hbegins.trans htext) (hhead.not_prefix hselect hgap hdistinct)

/-- What is added to the end of a query stays there when `DISTINCT` is
taken out. -/
theorem Distinct.detach_append {fields : List Text} {table head text : Text}
    (hends : EndsBare text) (hhead : HeadText fields table head)
    (hbegins : head <+: (Distinct.detach text).rest) (t : Text) :
    Distinct.detach (text ++ t) =
      ⟨(Distinct.detach text).clause, (Distinct.detach text).rest ++ t⟩ := by
  by_cases hopens : ∃ rest, Opens text rest
  · obtain ⟨rest, hopens⟩ := hopens
    rw [detach_of_opens (hopens.append t), detach_of_opens hopens]
    obtain ⟨select, gap, distinct, rfl, -, -, -, -, hblank⟩ := hopens
    have hne : rest ≠ [] := by
      rintro rfl
      cases hblank
    rw [trimStart_append_of_ne_nil (trimStart_ne_nil hends.of_append hne), List.append_assoc]
  · rw [detach_of_not_opens hopens] at hbegins ⊢
    exact detach_of_not_opens fun ⟨rest, hopens'⟩ => hopens (hopens'.of_append hhead hbegins)

/-! ## 4. The query -/

/-- A limit behind the trimmed text of a query. -/
theorem Outline.Stages.outcome_parse_append {policy : Policy} {text text' : Text}
    (stages : Stages policy text) (hclosed : Closed text) (hnone : stages.limit.clause = none)
    (clause : LimitClause) (htext' : trim text' = trim text ++ clause.text) :
    (parse policy text').outcome = .ok { stages.outline with limit := some clause.value } := by
  obtain ⟨fragment, join, tail, hrest, -, -, hfragment, hhead⟩ := stages.exists_fragment
  have hkept : stages.limit.rest = (Distinct.detach (trim text)).rest :=
    (Limit.length_detach stages.limit_eq).1 hnone
  have hprefix : stages.join.rest <+: (Distinct.detach (trim text)).rest :=
    ⟨join ++ tail, by rw [← hkept, hrest, hfragment, List.append_assoc]⟩
  have hdistinct : Distinct.detach (trim text') =
      ⟨(Distinct.detach (trim text)).clause, (Distinct.detach (trim text)).rest ++ clause.text⟩ := by
    rw [htext']
    exact Distinct.detach_append (endsBare_trim text) hhead hprefix clause.text
  have hlimit : (Limit.detach (Distinct.detach (trim text')).rest).outcome =
      .ok ⟨some clause.value, stages.limit.rest⟩ := by
    rw [hdistinct, hkept]
    exact LimitClause.detach_append (Distinct.agree (SameShape.refl hclosed).trim).rest.closed
      (Distinct.trimmed_detach (trimmed_trim text)).ends stages.limit_eq hnone clause
  refine outcome_parse_eq_ok_iff.mpr
    ⟨{ stages with limit := ⟨some clause.value, stages.limit.rest⟩, limit_eq := hlimit }, ?_⟩
  rw [Stages.outline, Stages.outline, hdistinct]

/-- The blanks at the end of a query go to the limit that is added. -/
theorem Grammar.LimitClause.exists_trim_append (clause : LimitClause) {text : Text}
    (hne : trim text ≠ []) :
    ∃ added : LimitClause, added.value = clause.value ∧
      trim (text ++ clause.text) = trim text ++ added.text := by
  obtain ⟨g, h, hg, hh, heq⟩ := exists_eq_append_trim text
  have hblank : AllBlank (h ++ clause.before.text) := by
    intro c hc
    rcases List.mem_append.mp hc with hc | hc
    · exact hh c hc
    · exact clause.before.blank c hc
  have hgap : h ++ clause.before.text ≠ [] := by simp [clause.before.ne_nil]
  let added : LimitClause := { clause with before := ⟨⟨_, hblank⟩, hgap⟩ }
  have htext : added.text = h ++ clause.text := by simp [added, LimitClause.text]
  refine ⟨added, rfl, ?_⟩
  calc trim (text ++ clause.text)
      = trim (g ++ (trim text ++ added.text)) := by
        conv_lhs => rw [heq]
        rw [htext, List.append_assoc, List.append_assoc]
    _ = trim text ++ added.text :=
        ((trimmed_trim text).append hne added.endsBare).trim_blanks_append hg

/-- A query that is read is not blank. -/
theorem Outline.Stages.trim_ne_nil {policy : Policy} {text : Text} (stages : Stages policy text) :
    trim text ≠ [] := by
  intro hnil
  obtain ⟨fragment, join, tail, hrest, -, -, hfragment, hhead⟩ := stages.exists_fragment
  have hempty : (Distinct.detach (trim text)).rest = [] := by
    rw [hnil]
    rfl
  obtain ⟨hkept, hshorter⟩ := Limit.length_detach stages.limit_eq
  have hlimit : stages.limit.rest = [] := by
    by_cases hclause : stages.limit.clause = none
    · rw [hkept hclause, hempty]
    · have hlt := hshorter hclause
      rw [hempty] at hlt
      cases hlt
  rw [hlimit, hfragment] at hrest
  exact hhead.ne_nil (List.append_eq_nil_iff.mp (List.append_eq_nil_iff.mp hrest.symm).1).1

/-- **A limit can be added to any query.** Where a text without a limit is
read and all its literals are closed, the text with a limit behind it is
read as the same outline with that limit. -/
theorem Outline.outcome_parse_append_limit {policy : Policy} {text : Text} {outline : Outline}
    (hclosed : Closed text) (h : (parse policy text).outcome = .ok outline)
    (hnone : outline.limit = none) {gap word gap' : Text} (hne : gap ≠ []) (hgap : AllBlank gap)
    (hword : word.map Char.toUpper = "LIMIT".toList) (hne' : gap' ≠ []) (hgap' : AllBlank gap')
    (limit : UInt64) :
    (parse policy (text ++ gap ++ word ++ gap' ++ Nat.toDigits 10 limit.toNat)).outcome =
      .ok { outline with limit := some limit } := by
  obtain ⟨stages, rfl⟩ := outcome_parse_eq_ok_iff.mp h
  have hvalue := decimalValue_toDigits limit.toNat
  let clause : LimitClause := {
    before := ⟨⟨gap, hgap⟩, hne⟩
    keyword := ⟨word, .single hword⟩
    after := ⟨⟨gap', hgap'⟩, hne'⟩
    digits := Nat.toDigits 10 limit.toNat
    ne_nil := Nat.toDigits_ne_nil
    decimal := isDigit_of_mem_toDigits
    fits := by rw [hvalue]; exact limit.toNat_lt_size }
  have hlimit : clause.value = limit := by
    apply UInt64.toNat_inj.mp
    rw [LimitClause.value, UInt64.toNat_ofNatLT]
    exact hvalue
  obtain ⟨added, hadded, htrim⟩ := clause.exists_trim_append stages.trim_ne_nil
  have htext : text ++ gap ++ word ++ gap' ++ Nat.toDigits 10 limit.toNat = text ++ clause.text := by
    simp [clause, LimitClause.text]
  rw [htext, stages.outcome_parse_append hclosed hnone added htrim, hadded, hlimit]

/-- A query that ends with the word that the limit begins with, and that
says `LIMIT 7` in a literal. -/
theorem Outline.outcome_parse_append_limit_last_word :
    ∃ outline, outline.limit = none ∧
      (parse .strict
        "SELECT DISTINCT a FROM t WHERE b = ' LIMIT 7 ' ORDER BY limit ".toList).outcome =
          .ok outline ∧
      (parse .strict ("SELECT DISTINCT a FROM t WHERE b = ' LIMIT 7 ' ORDER BY limit " ++
        " \tLimit  18446744073709551615").toList).outcome =
          .ok { outline with limit := some 18446744073709551615 } := by
  have hparse : (parse .strict
      "SELECT DISTINCT a FROM t WHERE b = ' LIMIT 7 ' ORDER BY limit ".toList).outcome = .ok
        { fields := ["a".toList]
          table := "t".toList
          conditions := [⟨"b".toList, .equal, "' LIMIT 7 '".toList, none⟩]
          join := none
          groups := none
          ungroupedAggregate := false
          sortKeys := some [⟨"limit".toList, .ascending⟩]
          limit := none
          distinct := true } := by
    decide +kernel
  have hgap : AllBlank " \t".toList := by decide
  have hword : "Limit".toList.map Char.toUpper = "LIMIT".toList := by decide
  have hgap' : AllBlank "  ".toList := by decide
  refine ⟨_, rfl, hparse, ?_⟩
  exact Outline.outcome_parse_append_limit (by decide +kernel) hparse rfl (by decide) hgap hword
    (by decide) hgap' 18446744073709551615

end SelectOutline
