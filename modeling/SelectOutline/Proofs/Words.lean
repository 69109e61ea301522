/-
SelectOutline.Proofs.Words — the words of a text, and cuts between them.

The words of a text are the pieces between its blanks, less the empty ones
(`words_eq_splitOnP`). A text therefore falls apart at any of its blanks
(`words_append_blank`), and the blanks at its ends belong to no word.

A cut takes the blanks around its span along. Where text is left on both
sides it puts one blank between them, so that the last word in front of the
span and the first word behind it stay apart; where a side is blank there
is nothing to keep apart. The words that are left are those of the two
sides in either case (`words_cut`), wherever the span begins and ends. Only
the bound on the length needs the span to lie in the text: a span that runs
backwards would leave some of it twice.
-/
import SelectOutline.Proofs.Blanks

namespace SelectOutline.Text

/-! ## 1. Words as pieces -/

/-- The words are the pieces between the blanks, less the empty ones. -/
theorem words_eq_splitOnP (text : Text) :
    words text = (text.splitOnP isBlank).filter fun piece => !piece.isEmpty := by
  induction text with
  | nil => simp [words]
  | cons c rest ih =>
    rw [List.splitOnP_cons_eq_if_modifyHead, words]
    by_cases hc : isBlank c = true
    · simp [hc, ih]
    · rw [if_neg hc, if_neg hc]
      cases rest with
      | nil => simp [words]
      | cons d rest =>
        rw [List.splitOnP_cons_eq_if_modifyHead] at ih ⊢
        by_cases hd : isBlank d = true
        · -- The word ends here: the piece of `c` has no further character.
          simp [hd] at ih ⊢
          exact ih
        · obtain ⟨piece, pieces, hpieces⟩ :=
            List.exists_cons_of_ne_nil (List.splitOnP_ne_nil isBlank rest)
          simp [hd, hpieces] at ih ⊢
          simp [ih]

/-- A text falls apart at a blank. -/
theorem words_append_blank {b : Char} (hb : isBlank b = true) (s t : Text) :
    words (s ++ b :: t) = words s ++ words t := by
  simp only [words_eq_splitOnP]
  rw [List.splitOnP_append_cons s t hb, List.filter_append]

theorem words_blanks_append {gap : Text} (h : AllBlank gap) (t : Text) :
    words (gap ++ t) = words t := by
  induction gap with
  | nil => rfl
  | cons b gap ih =>
    rw [List.cons_append, words, if_pos (h b (by simp))]
    exact ih fun c hc => h c (by simp [hc])

theorem words_append_blanks {gap : Text} (h : AllBlank gap) (s : Text) :
    words (s ++ gap) = words s := by
  cases gap with
  | nil => rw [List.append_nil]
  | cons b gap =>
    have hgap : words (gap ++ []) = words [] :=
      words_blanks_append (fun c hc => h c (by simp [hc])) []
    rw [List.append_nil] at hgap
    rw [words_append_blank (h b (by simp)), hgap]
    simp [words]

@[simp] theorem words_trimStart (text : Text) : words (trimStart text) = words text := by
  obtain ⟨gap, hgap, heq⟩ := exists_eq_append_trimStart text
  conv_rhs => rw [heq, words_blanks_append hgap]

@[simp] theorem words_trimEnd (text : Text) : words (trimEnd text) = words text := by
  obtain ⟨gap, hgap, heq⟩ := exists_eq_trimEnd_append text
  conv_rhs => rw [heq, words_append_blanks hgap]

/-- The words of a text are blank-free, and none is empty. -/
theorem words_unblank (text : Text) :
    ∀ word ∈ words text, word ≠ [] ∧ ∀ c ∈ word, isBlank c = false := by
  induction text with
  | nil => exact List.forall_mem_nil _
  | cons c rest ih =>
    rw [words]
    by_cases hc : isBlank c = true
    · rw [if_pos hc]
      exact ih
    · rw [if_neg hc]
      have hbare : isBlank c = false := by simpa using hc
      split
      · exact List.forall_mem_cons.mpr ⟨by simp [hbare], ih⟩
      · cases hwords : words rest with
        | nil => exact List.forall_mem_nil _
        | cons word others =>
          rw [hwords] at ih
          obtain ⟨hfirst, hothers⟩ := List.forall_mem_cons.mp ih
          rw [List.modifyHead_cons]
          refine List.forall_mem_cons.mpr ⟨⟨List.cons_ne_nil c word, ?_⟩, hothers⟩
          exact List.forall_mem_cons.mpr ⟨hbare, hfirst.2⟩

/-- Only a blank text has no words. -/
theorem words_eq_nil_iff {text : Text} : words text = [] ↔ AllBlank text := by
  induction text with
  | nil => exact ⟨fun _ => allBlank_nil, fun _ => rfl⟩
  | cons c rest ih =>
    rw [words]
    cases hblank : isBlank c with
    | true =>
      rw [if_pos rfl, ih]
      simp [AllBlank, hblank]
    | false =>
      have hbare : ¬ AllBlank (c :: rest) := by
        intro h
        rw [h c (by simp)] at hblank
        cases hblank
      rw [if_neg (by simp)]
      refine ⟨fun h => ?_, fun h => absurd h hbare⟩
      split at h
      · cases h
      · next hhead =>
        -- The next character is no blank, so that there is a word to go on with.
        rw [List.modifyHead_eq_nil_iff, ih] at h
        cases rest with
        | nil => simp at hhead
        | cons d rest =>
          simp [h d (by simp)] at hhead

/-! ## 2. Cuts -/

/-- The words that a cut leaves are those of its two sides. -/
theorem words_cut (text : Text) (start stop : Nat) :
    words (cut text start stop) = words (text.take start) ++ words (text.drop stop) := by
  rw [← words_trimEnd (text.take start), ← words_trimStart (text.drop stop), cut]
  cases hbefore : trimEnd (text.take start) with
  | nil => simp [words]
  | cons c before =>
    cases hafter : trimStart (text.drop stop) with
    | nil => simp [words]
    | cons d after =>
      -- Text on both sides: the space that is put in separates the words.
      simp only [List.isEmpty_cons, Bool.or_self, Bool.false_eq_true, if_false]
      exact words_append_blank (by decide) (c :: before) (d :: after)

/-- **A cut neither joins nor splits words.** It leaves the words in front
of the span and those behind it, as they were; it leaves no blank at an end
of a text that had none there; and it gives back at most one character for
those of the span. -/
theorem cut_keeps_words {text : Text} {start stop : Nat} (hspan : start ≤ stop)
    (hstop : stop ≤ text.length) :
    words (cut text start stop) = words (text.take start) ++ words (text.drop stop) ∧
    (Trimmed text → Trimmed (cut text start stop)) ∧
    (cut text start stop).length ≤ text.length - (stop - start) + 1 := by
  refine ⟨words_cut text start stop, fun htrimmed => htrimmed.cut start stop, ?_⟩
  have hlength := length_cut_le text start stop
  rw [List.length_take, List.length_drop] at hlength
  omega

/-- A span with a word against either end of it. -/
theorem cut_keeps_words_flush :
    1 ≤ 8 ∧ 8 ≤ "tLIMIT 5OFFSET".toList.length ∧ Trimmed "tLIMIT 5OFFSET".toList ∧
    words (cut "tLIMIT 5OFFSET".toList 1 8) = ["t".toList, "OFFSET".toList] ∧
    Trimmed (cut "tLIMIT 5OFFSET".toList 1 8) ∧
    (cut "tLIMIT 5OFFSET".toList 1 8).length ≤ 8 := by
  have htrimmed : Trimmed "tLIMIT 5OFFSET".toList := by
    rw [← show trim "tLIMIT 5OFFSET".toList = "tLIMIT 5OFFSET".toList by decide]
    exact trimmed_trim _
  obtain ⟨hwords, htrim, hlength⟩ :=
    cut_keeps_words (show 1 ≤ 8 by decide) (show 8 ≤ "tLIMIT 5OFFSET".toList.length by decide)
  refine ⟨by decide, by decide, htrimmed, ?_, htrim htrimmed, hlength⟩
  rw [hwords]
  decide

end SelectOutline.Text
