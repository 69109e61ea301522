/-
SelectOutline.Proofs.Lists — lists are read as they were written.

An entry of a written list has no comma outside its parentheses, and
these match, so that a list falls apart at the commas between its
entries and nowhere else. An entry of a sort list falls apart into a
field and a direction at its blanks.
-/
import SelectOutline.Proofs.Entries
import SelectOutline.Proofs.GrammarText
import SelectOutline.Proofs.Words

namespace SelectOutline.Grammar

open Text Keyword

/-! ## 1. Lists -/

/-- One character of an entry: it does not separate, and what follows is
balanced at the depth behind it. -/
theorem exists_depth_of_balanced {c : Char} {e : Text} {depth : Nat} (hc : isQuote c = false)
    (h : balanced depth (c :: e) = true) :
    (Nesting.mk .outside depth).separates c = false ∧
      ∃ depth', (Nesting.mk .outside depth).step c = ⟨.outside, depth'⟩ ∧
        balanced depth' e = true := by
  have hstep : Quoting.outside.step c = .outside := Quoting.step_outside hc
  have hplain : Quoting.outside.plain c = true := Quoting.plain_outside hc
  rw [balanced] at h
  by_cases hopen : c = '('
  · subst hopen
    exact ⟨rfl, depth + 1, rfl, h⟩
  by_cases hclose : c = ')'
  · subst hclose
    rw [if_neg hopen, if_pos rfl, Bool.and_eq_true] at h
    exact ⟨rfl, depth - 1, rfl, h.2⟩
  rw [if_neg hopen, if_neg hclose] at h
  have hdepth : (Nesting.mk .outside depth).step c = ⟨.outside, depth⟩ := by
    simp [Nesting.step, hstep, hopen, hclose]
  by_cases hcomma : c = ','
  · rw [if_pos hcomma, Bool.and_eq_true, bne_iff_ne] at h
    exact ⟨by simp [Nesting.separates, h.1], depth, hdepth, h.2⟩
  · rw [if_neg hcomma] at h
    exact ⟨by simp [Nesting.separates, hcomma], depth, hdepth, h⟩

/-- A text with matching parentheses is undivided, and closes all that it
opens. -/
theorem undivided_of_balanced {e : Text} (hquote : Unquoted e) {depth : Nat}
    (h : balanced depth e = true) :
    Undivided ⟨.outside, depth⟩ e ∧ Nesting.scan ⟨.outside, depth⟩ e = {} := by
  induction e generalizing depth with
  | nil =>
    obtain rfl : depth = 0 := by simpa [balanced] using h
    exact ⟨undivided_nil {}, rfl⟩
  | cons c e ih =>
    obtain ⟨hseparates, depth', hstep, hrest⟩ := exists_depth_of_balanced (hquote c (by simp)) h
    obtain ⟨hundivided, hscan⟩ := ih (fun d hd => hquote d (by simp [hd])) hrest
    refine ⟨undivided_cons_iff.mpr ⟨hseparates, ?_⟩, ?_⟩
    · rw [hstep]
      exact hundivided
    · rw [Nesting.scan_cons, hstep, hscan]

theorem balanced_append {s t : Text} {depth : Nat} (hs : balanced depth s = true)
    (ht : balanced 0 t = true) : balanced depth (s ++ t) = true := by
  induction s generalizing depth with
  | nil =>
    obtain rfl : depth = 0 := by simpa [balanced] using hs
    exact ht
  | cons c s ih =>
    rw [List.cons_append]
    simp only [balanced] at hs ⊢
    split at hs
    · rw [if_pos ‹_›]
      exact ih hs
    · rw [if_neg ‹_›]
      split at hs
      · rw [if_pos ‹_›, Bool.and_eq_true]
        rw [Bool.and_eq_true] at hs
        exact ⟨hs.1, ih hs.2⟩
      · rw [if_neg ‹_›]
        split at hs
        · rw [if_pos ‹_›, Bool.and_eq_true]
          rw [Bool.and_eq_true] at hs
          exact ⟨hs.1, ih hs.2⟩
        · rw [if_neg ‹_›]
          exact ih hs

/-- Without parentheses and commas there is nothing to match. -/
theorem balanced_of_plain {t : Text} (h : ∀ c ∈ t, c ≠ '(' ∧ c ≠ ')' ∧ c ≠ ',') :
    balanced 0 t = true := by
  induction t with
  | nil => rfl
  | cons c t ih =>
    obtain ⟨hopen, hclose, hcomma⟩ := h c (by simp)
    rw [balanced, if_neg hopen, if_neg hclose, if_neg hcomma]
    exact ih fun d hd => h d (by simp [hd])

theorem balanced_blanks {gap : Text} (h : AllBlank gap) : balanced 0 gap = true := by
  refine balanced_of_plain fun c hc => ⟨?_, ?_, ?_⟩
  · rintro rfl; exact absurd (h _ hc) (by decide)
  · rintro rfl; exact absurd (h _ hc) (by decide)
  · rintro rfl; exact absurd (h _ hc) (by decide)

/-- The text of an entry is one entry, whatever stands around it. -/
structure Entry (text : Text) : Prop where
  trimmed : Trimmed text
  unquoted : Unquoted text
  closes : balanced 0 text = true

theorem Entry.isEntry {text : Text} (h : Entry text) : IsEntry text := by
  obtain ⟨hundivided, hscan⟩ := undivided_of_balanced h.unquoted h.closes
  exact ⟨h.trimmed, hundivided, hscan⟩

/-- A list falls apart into what was written into it. -/
theorem Listed.entries_text {α : Type} {write : α → Text} (hwrite : ∀ a, Entry (write a))
    (list : Listed α) : entries (list.text write) = list.toList.map write :=
  entries_of_isEntry fun a _ => (hwrite a).isEntry

theorem Item.entry (item : Item) : Entry item.text :=
  ⟨item.trimmed, item.solid.unquoted, item.closes⟩

theorem Atom.balanced (atom : Atom) : balanced 0 atom.text = true := by
  refine balanced_of_plain fun c hc => ?_
  have := (atom.plain c hc).2.2
  simp only [List.mem_cons, not_or] at this
  exact ⟨this.2.1, this.2.2.1, this.1⟩

/-- A name is an entry. -/
def Atom.toItem (atom : Atom) : Item where
  text := atom.text
  ne_nil := atom.ne_nil
  plain c hc := by
    obtain ⟨hblank, hquote, hmem⟩ := atom.plain c hc
    simp only [List.mem_cons, not_or] at hmem ⊢
    exact ⟨hblank, hquote, hmem.2.2.2⟩
  free := atom.free
  closes := atom.balanced

theorem SortEntry.entry (entry : SortEntry) : Entry entry.text := by
  refine ⟨entry.trimmed, ?_, ?_⟩
  · refine entry.item.solid.unquoted.append ?_
    cases entry.direction with
    | none => exact List.forall_mem_nil _
    | some direction =>
      exact direction.1.blank.unquoted.append direction.2.word.solid.unquoted
  · refine balanced_append entry.item.closes ?_
    cases entry.direction with
    | none => rfl
    | some direction =>
      exact balanced_append (balanced_blanks direction.1.blank) direction.2.word.balanced

/-! ## 2. Sort keys -/

/-- A text without blanks is one word, if a blank or nothing follows. -/
theorem words_solid {w : Text} (hw : Solid w) (hne : w ≠ []) {t : Text}
    (ht : t.head?.all isBlank = true) : words (w ++ t) = w :: words t := by
  induction w with
  | nil => exact absurd rfl hne
  | cons c w ih =>
    have hc := (hw c (by simp)).1
    cases w with
    | nil => simp [Text.words, hc, ht]
    | cons d w =>
      have hd := (hw d (by simp)).1
      have hrest := ih (fun e he => hw e (by simp [he])) (List.cons_ne_nil d w)
      rw [List.cons_append, Text.words, if_neg (by simp [hc]), if_neg (by simp [hd]), hrest]
      rfl

/-- The word for a direction is read as what it stands for. -/
theorem DirectionWord.ofText_text (written : DirectionWord) :
    Direction.ofText written.word.text = written.direction := by
  cases written with
  | ascending word means => exact if_pos means
  | descending word means =>
    have notAsc : upper word.text ≠ "ASC".toList := by
      rw [means]
      decide
    exact (if_neg notAsc).trans (if_pos means)
  | other word notAsc notDesc => exact (if_neg notAsc).trans (if_neg notDesc)

theorem SortEntry.parse_text {policy : Policy} {entry : SortEntry} (h : entry.Admitted policy) :
    SortKey.parse policy entry.text = .ok entry.key := by
  obtain ⟨item, direction⟩ := entry
  cases direction with
  | none =>
    have hwords : words (item.text ++ []) = [item.text] := words_solid item.solid item.ne_nil rfl
    simp only [SortEntry.text, directionText, Option.elim_none, SortKey.parse, hwords]
    rfl
  | some direction =>
    obtain ⟨gap, written⟩ := direction
    have hgap : (gap.text ++ written.word.text).head?.all isBlank = true := by
      obtain ⟨b, rest, hb⟩ := List.exists_cons_of_ne_nil gap.ne_nil
      rw [hb]
      exact gap.blank b (by simp [hb])
    have hwords : words (item.text ++ (gap.text ++ written.word.text)) =
        [item.text, written.word.text] := by
      have hlast := words_solid written.word.solid written.word.ne_nil (t := []) rfl
      rw [List.append_nil] at hlast
      rw [words_solid item.solid item.ne_nil hgap, words_blanks_append gap.blank, hlast]
      rfl
    simp only [SortEntry.text, directionText, Option.elim_some, SortKey.parse, hwords,
      written.ofText_text]
    split
    · next other hdirection hstrict =>
      rcases h with h | h
      · rw [h] at hstrict
        cases hstrict
      · exact absurd hdirection (h other)
    · rfl

theorem mapM_eq_ok {α β γ ε : Type} {f : α → Except ε β} {write : γ → α} {key : γ → β} {l : List γ}
    (h : ∀ a ∈ l, f (write a) = .ok (key a)) : (l.map write).mapM f = .ok (l.map key) := by
  induction l with
  | nil => rfl
  | cons a l ih =>
    rw [List.map_cons, List.mapM_cons, h a (by simp), ih fun b hb => h b (by simp [hb])]
    rfl

theorem SortClause.parse_list {policy : Policy} {clause : SortClause}
    (h : ∀ entry ∈ clause.list.toList, entry.Admitted policy) :
    Sorting.parse policy (clause.list.text SortEntry.text) = .ok clause.keys := by
  rw [Sorting.parse, Listed.entries_text SortEntry.entry]
  exact mapM_eq_ok fun entry hmem => SortEntry.parse_text (h entry hmem)

end SelectOutline.Grammar
