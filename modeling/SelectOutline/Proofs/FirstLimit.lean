/-
SelectOutline.Proofs.FirstLimit — which `LIMIT` counts.

The limit phase goes from one keyword `LIMIT` to the next until digits
follow one. What it comes to is said here without a search: the word
stands between blanks and outside literals, a number stands behind it
(`NumberAt`), and it is the first place of this kind (`First`). The number
alone decides what happens there. If it fits into 64 bits the clause is
taken out and the text on its two sides moves together; if not, the query
is refused, and no later `LIMIT` is looked at. `Limit.detach_reads` shows
that the phase does this and nothing else.

Two words `LIMIT` may share the blank between them. Neither hides the other,
as a word ends in front of the blank behind it.
-/
import Mathlib.Data.Nat.Digits.Defs
import SelectOutline.Proofs.AppendedLimit
import SelectOutline.Proofs.Phrases

namespace SelectOutline.Limit

open Text

/-! ## 1. Numbers -/

/-- The number that digits write in base ten, the last one for the units. -/
def number (digits : Text) : Nat :=
  Nat.ofDigits 10 (digits.reverse.map fun digit => digit.toNat - '0'.toNat)

theorem decimalValue_eq_number (digits : Text) : decimalValue digits = number digits := by
  induction digits using List.reverseRecOn with
  | nil => rfl
  | append_singleton digits digit ih =>
    rw [decimalValue, List.foldl_append, ← decimalValue, ih, number, number, List.reverse_append,
      List.reverse_singleton, List.singleton_append, List.map_cons, Nat.ofDigits_cons,
      List.foldl_cons, List.foldl_nil, Nat.add_comm]
    rfl

/-! ## 2. Places of limits -/

/-- The word `LIMIT`. -/
abbrev limitWord : Text := "LIMIT".toList

theorem words_limit : kwLimit.words = [limitWord] := rfl

/-- The word `LIMIT` stands at a position outside literals, and behind the
blanks that follow it stand `digits`, all that there are, and then `rest`. -/
structure NumberAt (text : Text) (position : Nat) (digits rest : Text) : Prop where
  word : wordAt limitWord text position = true
  closed : Closed (text.take position)
  behind : ∃ gap, AllBlank gap ∧ text.drop (position + limitWord.length) = gap ++ digits ++ rest
  ne_nil : digits ≠ []
  decimal : ∀ c ∈ digits, isDigit c = true
  whole : ∀ c ∈ rest.head?, isDigit c = false

/-- The first `LIMIT` that a number follows. -/
structure First (text : Text) (position : Nat) (digits rest : Text) : Prop
    extends NumberAt text position digits rest where
  first : ∀ earlier < position, ∀ digits rest, ¬ NumberAt text earlier digits rest

/-- A number stands where the cursor reads one. -/
theorem numberAt_iff {text digits rest : Text} {position : Nat} :
    NumberAt text position digits rest ↔
      wordAt limitWord text position = true ∧ Closed (text.take position) ∧
        ∃ after, (Cursor.mk text (position + limitWord.length)).skipBlanks.readDigits =
          some (digits, after) ∧ text.drop after.position = rest := by
  constructor
  · rintro ⟨hword, hclosed, ⟨gap, hgap, hbehind⟩, hne, hdecimal, hwhole⟩
    refine ⟨hword, hclosed, ?_⟩
    have hinside := ((wordAt_iff.mp hword).bounds regular_limit.lettered (by simp)).2
    obtain ⟨front, hfront, hlength⟩ : ∃ front, text = front ++ (gap ++ (digits ++ rest)) ∧
        front.length = position + limitWord.length := by
      refine ⟨text.take (position + limitWord.length), ?_, List.length_take_of_le hinside.le⟩
      rw [← List.append_assoc gap, ← hbehind, List.take_append_drop]
    have hbare : StartsBare (digits ++ rest) := by
      refine StartsBare.append (fun c hc => ?_) hne
      exact Grammar.isBlank_of_isDigit (hdecimal c (List.mem_of_head? hc))
    have hdigits : text = (front ++ gap) ++ (digits ++ rest) := by
      rw [hfront, List.append_assoc]
    have hskip := Cursor.skipBlanks_eq hfront hgap hbare
    have hread := Cursor.readRun_eq hdigits hne hdecimal hwhole
    refine ⟨⟨text, (front ++ gap ++ digits).length⟩, ?_, ?_⟩
    · rw [← hlength, hskip]
      exact hread
    · rw [← List.append_assoc] at hdigits
      exact Cursor.rest_eq hdigits
  · rintro ⟨hword, hclosed, after, hread, hrest⟩
    obtain ⟨gap, hgap, hskip⟩ := Cursor.passes_skipBlanks ⟨text, position + limitWord.length⟩
    obtain ⟨hne, hdecimal, hpasses, hwhole⟩ := Cursor.passes_of_readRun hread
    have htext := (hskip.trans hpasses).text_eq
    have hafter : after.rest = rest := by
      rw [← hrest, Cursor.rest, htext]
    rw [hafter] at hwhole
    refine ⟨hword, hclosed, ⟨gap, hgap, ?_⟩, hne, hdecimal, hwhole⟩
    rw [← hafter]
    exact (hskip.trans hpasses).rest_eq

/-- The hit of a `LIMIT` at a position. -/
def wordHit (position : Nat) : Hit :=
  ⟨position, position + limitWord.length, 0, kwLimit⟩

/-- The limit phase looks at the words `LIMIT` that stand between blanks and
outside literals. -/
theorem mem_findAll_iff_wordAt {text : Text} {hit : Hit} :
    hit ∈ Keyword.findAll [kwLimit] text 0 ↔
      wordAt limitWord text hit.start = true ∧ Closed (text.take hit.start) ∧
        hit = wordHit hit.start := by
  rw [mem_findAll_iff]
  constructor
  · rintro ⟨hzero, hkeyword, before, spelled, after, hsplits, hclosed⟩
    have hword : hit.keyword.words = [limitWord] := by rw [hkeyword, words_limit]
    refine ⟨hsplits.wordAt hword, ?_, ?_⟩
    · rw [hsplits.take_start]
      exact hclosed
    · rw [wordHit, ← hsplits.stop_eq_of_word hword, ← hkeyword, ← hzero]
  · rintro ⟨hword, hclosed, heq⟩
    have hsplits := splits_of_wordAt regular_limit words_limit hword 0
    rw [heq]
    exact ⟨rfl, rfl, _, _, _, hsplits, hclosed⟩

/-- A keyword that the phase looks at has no number behind it if there is
none at its place. -/
theorem readDigits_of_not_numberAt {text : Text} {hit : Hit}
    (hmem : hit ∈ Keyword.findAll [kwLimit] text 0)
    (h : ∀ digits rest, ¬ NumberAt text hit.start digits rest) :
    (Cursor.mk text hit.stop).skipBlanks.readDigits = none := by
  obtain ⟨hword, hclosed, heq⟩ := mem_findAll_iff_wordAt.mp hmem
  rw [Option.eq_none_iff_forall_ne_some]
  rintro ⟨digits, after⟩ hread
  rw [heq, wordHit] at hread
  exact h digits _ (numberAt_iff.mpr ⟨hword, hclosed, after, hread, rfl⟩)

/-- A text with a number behind some `LIMIT` has a first one. -/
theorem NumberAt.exists_first {text digits rest : Text} {position : Nat}
    (h : NumberAt text position digits rest) :
    ∃ position digits rest, First text position digits rest := by
  classical
  have hexists : ∃ position digits rest, NumberAt text position digits rest :=
    ⟨position, digits, rest, h⟩
  obtain ⟨digits', rest', hfirst⟩ := Nat.find_spec hexists
  refine ⟨Nat.find hexists, digits', rest', hfirst, ?_⟩
  intro earlier hlt digits rest hearlier
  exact Nat.find_min hexists hlt ⟨digits, rest, hearlier⟩

/-! ## 3. What the phase does -/

/-- The text that is left when a span is taken out between two others. -/
def joined (before after : Text) : Text :=
  if trimEnd before = [] ∨ trimStart after = [] then trimEnd before ++ trimStart after
  else trimEnd before ++ ' ' :: trimStart after

theorem cut_eq_joined (text : Text) (start stop : Nat) :
    cut text start stop = joined (text.take start) (text.drop stop) := by
  simp only [cut, joined, Bool.or_eq_true, List.isEmpty_iff]

/-- What the limit phase makes of a text, by the places of limits in it. -/
inductive Reads (text : Text) : Except Fault (Detached (Option UInt64)) → Prop
  /-- Without a limit the text stays as it is. -/
  | absent (nowhere : ∀ position digits rest, ¬ NumberAt text position digits rest) :
    Reads text (.ok ⟨none, text⟩)
  /-- The first limit is taken out of the text if its number fits into 64
  bits, and only its digits go with the word. -/
  | taken {position : Nat} {digits rest : Text} {value : UInt64}
    (first : First text position digits rest) (exact : value.toNat = number digits) :
    Reads text (.ok ⟨some value, joined (text.take position) rest⟩)
  /-- Else the query is refused for this number, whatever stands behind
  it. -/
  | refused {position : Nat} {digits rest : Text} {fault : Fault}
    (first : First text position digits rest) (large : 2 ^ 64 ≤ number digits)
    (kind : fault.kind = .limit) (message : fault.message = "Invalid LIMIT value")
    (whole : fault.text = digits) :
    Reads text (.error fault)

theorem outcome_detach_of_absent {text : Text}
    (h : ∀ position digits rest, ¬ NumberAt text position digits rest) :
    (detach text).outcome = .ok ⟨none, text⟩ := by
  have hnone : ∀ hit ∈ Keyword.findAll [kwLimit] text 0,
      (Cursor.mk text hit.stop).skipBlanks.readDigits = none :=
    fun hit hmem => readDigits_of_not_numberAt hmem (h hit.start)
  rw [detach, ← List.append_nil (Keyword.findAll [kwLimit] text 0),
    outcome_detachFrom_append hnone]
  rfl

/-- The phase comes to the first limit, as it passes over every `LIMIT`
before it, and its number decides. -/
theorem outcome_detach_of_first {text digits rest : Text} {position : Nat}
    (h : First text position digits rest) :
    (detach text).outcome =
      if fits : decimalValue digits < UInt64.size then
        .ok ⟨some (UInt64.ofNatLT (decimalValue digits) fits), joined (text.take position) rest⟩
      else .error (.limitTooLarge digits) := by
  obtain ⟨hword, hclosed, after, hread, hrest⟩ := numberAt_iff.mp h.toNumberAt
  have hmem : wordHit position ∈ Keyword.findAll [kwLimit] text 0 :=
    mem_findAll_iff_wordAt.mpr ⟨hword, hclosed, rfl⟩
  obtain ⟨earlier, later, hhits⟩ := List.append_of_mem hmem
  have hearlier : ∀ hit ∈ earlier, (Cursor.mk text hit.stop).skipBlanks.readDigits = none := by
    intro hit hearlier
    have hpairwise := Keyword.findAll_pairwise regular_limit.single text 0
    rw [hhits] at hpairwise
    have hlt : hit.start < position :=
      (List.pairwise_append.mp hpairwise).2.2 hit hearlier _ List.mem_cons_self
    exact readDigits_of_not_numberAt (hhits ▸ List.mem_append_left _ hearlier) (h.first _ hlt)
  rw [detach, hhits, outcome_detachFrom_append hearlier, outcome_detachFrom_cons, wordHit, hread]
  simp only [cut_eq_joined, hrest]

theorem outcome_detach_of_reads {text : Text} {result : Except Fault (Detached (Option UInt64))}
    (h : Reads text result) : (detach text).outcome = result := by
  cases h with
  | absent nowhere => exact outcome_detach_of_absent nowhere
  | taken first exact =>
    rename_i position digits rest value
    have fits : decimalValue digits < UInt64.size := by
      rw [decimalValue_eq_number, ← exact]
      exact value.toNat_lt_size
    have hvalue : UInt64.ofNatLT (decimalValue digits) fits = value := by
      rw [← UInt64.toNat_inj, UInt64.toNat_ofNatLT, decimalValue_eq_number, exact]
    rw [outcome_detach_of_first first, dif_pos fits, hvalue]
  | refused first large kind message whole =>
    rename_i position digits rest fault
    have hlarge : ¬ decimalValue digits < UInt64.size := by
      rw [decimalValue_eq_number]
      exact Nat.not_lt.mpr large
    rw [outcome_detach_of_first first, dif_neg hlarge]
    cases fault with
    | limitTooLarge text' =>
      rw [← whole]
      rfl
    | _ => cases kind

/-- Every text has a meaning for the phase. -/
theorem exists_reads (text : Text) : ∃ result, Reads text result := by
  by_cases hsome : ∃ position digits rest, NumberAt text position digits rest
  · obtain ⟨_, _, _, hnumber⟩ := hsome
    obtain ⟨position, digits, rest, hfirst⟩ := hnumber.exists_first
    rcases Nat.lt_or_ge (number digits) (2 ^ 64) with hfits | hlarge
    · have hexact : (UInt64.ofNat (number digits)).toNat = number digits :=
        UInt64.toNat_ofNat_of_lt' hfits
      exact ⟨_, .taken hfirst hexact⟩
    · exact ⟨.error (.limitTooLarge digits), .refused hfirst hlarge rfl rfl rfl⟩
  · refine ⟨_, .absent fun position digits rest hnumber => ?_⟩
    exact hsome ⟨position, digits, rest, hnumber⟩

/-- **The limit phase does what the first limit says.** -/
theorem detach_reads (text : Text) (result : Except Fault (Detached (Option UInt64))) :
    (detach text).outcome = result ↔ Reads text result := by
  constructor
  · rintro rfl
    obtain ⟨result, hreads⟩ := exists_reads text
    rwa [outcome_detach_of_reads hreads]
  · exact outcome_detach_of_reads

/-- Of two words that share a blank the second one has the number. -/
example :
    (detach "t limit LIMIT 007x LIMIT 5".toList).outcome.map (fun left => (left.clause, left.rest)) =
      .ok (some 7, "t limit x LIMIT 5".toList) := by
  decide +kernel

end SelectOutline.Limit
