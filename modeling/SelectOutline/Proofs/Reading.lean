/-
SelectOutline.Proofs.Reading — what a cursor reads.

A text is given as what lies before the cursor and what lies ahead of
it, and each lemma says how much of the latter is taken: blanks up to a
bare character, a run up to a character of another class. The pair of
identifiers behind `ON` is read by these steps (`JoinKeys.read_eq`).
-/
import SelectOutline.Join
import SelectOutline.Proofs.Blanks
import SelectOutline.Proofs.Literals

namespace SelectOutline

open Text

/-! ## 1. Character classes -/

/-- The codes in the ranges of a class, one by one. -/
def Text.codes (ranges : List (Nat × Nat)) : List Nat :=
  ranges.flatMap fun range => List.range' range.1 (range.2 + 1 - range.1)

theorem Text.exists_ofNat_of_inRanges {ranges : List (Nat × Nat)} {c : Char}
    (h : inRanges ranges c = true) : ∃ n ∈ codes ranges, c = Char.ofNat n := by
  obtain ⟨range, hmem, hlow, hhigh⟩ := inRanges_iff.mp h
  refine ⟨c.toNat, ?_, (Char.ofNat_toNat c).symm⟩
  rw [codes, List.mem_flatMap]
  exact ⟨range, hmem, by rw [List.mem_range'_1]; omega⟩

/-- Classes whose ranges are apart have no character in common. -/
theorem Text.inRanges_eq_false_of_apart {ranges others : List (Nat × Nat)} {c : Char}
    (h : (others.all fun other => ranges.all fun range =>
      Nat.ble (range.2 + 1) other.1 || Nat.ble (other.2 + 1) range.1) = true)
    (hc : inRanges ranges c = true) : inRanges others c = false := by
  obtain ⟨range, hrange, hfirst, hlast⟩ := inRanges_iff.mp hc
  rw [← Bool.not_eq_true, inRanges_iff]
  rintro ⟨other, hother, hlow, hhigh⟩
  have hapart := List.all_eq_true.mp (List.all_eq_true.mp h other hother) range hrange
  rw [Bool.or_eq_true, Nat.ble_eq, Nat.ble_eq] at hapart
  omega

theorem Text.isIdentifierChar_of_isBlank {c : Char} (h : isBlank c = true) :
    isIdentifierChar c = false := by
  have halphabetic : isAlphabetic c = false := inRanges_eq_false_of_apart (by decide +kernel) h
  have hdigit : isDecimalDigit c = false := inRanges_eq_false_of_apart (by decide +kernel) h
  have hnumber : isOtherNumber c = false := inRanges_eq_false_of_apart (by decide +kernel) h
  have hmark : ∀ d, isBlank d = false → (c == d) = false := by
    intro d hd
    rw [beq_eq_false_iff_ne]
    rintro rfl
    rw [h] at hd
    cases hd
  rw [isIdentifierChar, isAlphanumeric, halphabetic, hdigit, hnumber, hmark '_' (by decide),
    hmark '.' (by decide)]
  rfl

theorem Text.isIdentifierChar_of_isQuote {c : Char} (h : isQuote c = true) :
    isIdentifierChar c = false := by
  rw [isQuote, Bool.or_eq_true, beq_iff_eq, beq_iff_eq] at h
  rcases h with rfl | rfl
  · decide +kernel
  · decide +kernel

/-- A non-empty text of identifier characters. -/
abbrev Text.IsIdentifier (text : Text) : Prop :=
  text ≠ [] ∧ ∀ c ∈ text, isIdentifierChar c = true

theorem Text.IsIdentifier.bare {text : Text} (h : IsIdentifier text) :
    ∀ c ∈ text, isBlank c = false := by
  intro c hc
  rw [Bool.eq_false_iff]
  intro hblank
  have := h.2 c hc
  rw [isIdentifierChar_of_isBlank hblank] at this
  cases this

theorem Text.IsIdentifier.startsBare {text : Text} (h : IsIdentifier text) :
    StartsBare text :=
  fun c hc => h.bare c (List.mem_of_head? hc)

theorem Text.IsIdentifier.unquoted {text : Text} (h : IsIdentifier text) : Unquoted text := by
  intro c hc
  rw [Bool.eq_false_iff]
  intro hquote
  have := h.2 c hc
  rw [isIdentifierChar_of_isQuote hquote] at this
  cases this

/-! ## 2. Steps of a cursor -/

namespace Cursor

theorem rest_eq {text pre post : Text} (h : text = pre ++ post) :
    (Cursor.mk text pre.length).rest = post := by
  rw [h]
  exact List.drop_left

theorem rest_skipBlanks (cursor : Cursor) : cursor.skipBlanks.rest = trimStart cursor.rest := by
  have hsplit : cursor.rest = cursor.rest.takeWhile isBlank ++ trimStart cursor.rest :=
    List.takeWhile_append_dropWhile.symm
  calc cursor.skipBlanks.rest
      = cursor.rest.drop (cursor.rest.takeWhile isBlank).length := by
        rw [rest, skipBlanks, ← List.drop_drop, ← rest]
    _ = (cursor.rest.takeWhile isBlank ++ trimStart cursor.rest).drop
          (cursor.rest.takeWhile isBlank).length := congrArg (List.drop _) hsplit
    _ = trimStart cursor.rest := List.drop_left

theorem rest_jump (cursor : Cursor) (count : Nat) :
    (cursor.jump count).rest = cursor.rest.drop count := by
  rw [rest, jump, rest, List.drop_drop]
  rcases Nat.le_total (cursor.position + count) cursor.text.length with h | h
  · rw [Nat.min_eq_left h]
  · rw [Nat.min_eq_right h, List.drop_length, List.drop_eq_nil_of_le h]

theorem skipBlanks_eq {text pre gap post : Text} (h : text = pre ++ (gap ++ post))
    (hgap : AllBlank gap) (hpost : StartsBare post) :
    (Cursor.mk text pre.length).skipBlanks = ⟨text, (pre ++ gap).length⟩ := by
  have hstop : post.takeWhile isBlank = [] := by
    cases post with
    | nil => rfl
    | cons c post => exact List.takeWhile_cons_of_neg (by simpa using hpost c rfl)
  rw [skipBlanks, rest_eq h, List.takeWhile_append_of_pos hgap, hstop, List.append_nil,
    List.length_append]

theorem readRun_eq {inClass : Char → Bool} {text pre run post : Text}
    (h : text = pre ++ (run ++ post)) (hne : run ≠ []) (hrun : ∀ c ∈ run, inClass c = true)
    (hpost : ∀ c ∈ post.head?, inClass c = false) :
    (Cursor.mk text pre.length).readRun inClass = some (run, ⟨text, (pre ++ run).length⟩) := by
  have hstop : post.takeWhile inClass = [] := by
    cases post with
    | nil => rfl
    | cons c post => exact List.takeWhile_cons_of_neg (by simp [hpost c rfl])
  rw [readRun, rest_eq h, List.takeWhile_append_of_pos hrun, hstop, List.append_nil,
    List.length_append]
  cases run with
  | nil => exact absurd rfl hne
  | cons c run => rfl

theorem current_eq {text pre post : Text} {c : Char} (h : text = pre ++ c :: post) :
    (Cursor.mk text pre.length).current = c := by
  rw [current, charAt, h]
  simp

theorem next_eq {text pre post : Text} {c : Char} (h : text = pre ++ c :: post) :
    (Cursor.mk text pre.length).next = ⟨text, (pre ++ [c]).length⟩ := by
  have hlt : ¬ text.length ≤ pre.length := by
    rw [h, List.length_append, List.length_cons]
    omega
  simp [next, atEnd, hlt]

/-- Between two places of a cursor it has passed over `run`. -/
structure Passes (cursor after : Cursor) (run : Text) : Prop where
  text_eq : after.text = cursor.text
  rest_eq : cursor.rest = run ++ after.rest
  position_eq : after.position = cursor.position + run.length

theorem Passes.trans {a b c : Cursor} {s t : Text} (h : Passes a b s) (h' : Passes b c t) :
    Passes a c (s ++ t) := by
  refine ⟨h'.text_eq.trans h.text_eq, ?_, ?_⟩
  · rw [h.rest_eq, h'.rest_eq, List.append_assoc]
  · rw [h'.position_eq, h.position_eq, List.length_append, Nat.add_assoc]

theorem passes_of_append {cursor : Cursor} {run rest : Text} (h : cursor.rest = run ++ rest) :
    Passes cursor { cursor with position := cursor.position + run.length } run := by
  refine ⟨rfl, ?_, rfl⟩
  have hrest : Cursor.rest { cursor with position := cursor.position + run.length } = rest := by
    change cursor.text.drop (cursor.position + run.length) = rest
    rw [← List.drop_drop]
    change cursor.rest.drop run.length = rest
    rw [h, List.drop_left]
  rw [hrest]
  exact h

theorem passes_skipBlanks (cursor : Cursor) :
    ∃ gap, AllBlank gap ∧ Passes cursor cursor.skipBlanks gap := by
  refine ⟨cursor.rest.takeWhile isBlank, fun c hc => List.mem_takeWhile_imp hc, ?_⟩
  exact passes_of_append (List.takeWhile_append_dropWhile).symm

/-- What is read is the whole run: a character of another class, or
nothing, follows it. -/
theorem passes_of_readRun {inClass : Char → Bool} {cursor after : Cursor} {run : Text}
    (h : cursor.readRun inClass = some (run, after)) :
    run ≠ [] ∧ (∀ c ∈ run, inClass c = true) ∧ Passes cursor after run ∧
      ∀ c ∈ after.rest.head?, inClass c = false := by
  have hsplit : cursor.rest = cursor.rest.takeWhile inClass ++ cursor.rest.dropWhile inClass :=
    List.takeWhile_append_dropWhile.symm
  have hpasses := passes_of_append hsplit
  have hclass : ∀ c ∈ cursor.rest.takeWhile inClass, inClass c = true :=
    fun c hc => List.mem_takeWhile_imp hc
  have hstop : ∀ c ∈ (cursor.rest.dropWhile inClass).head?, inClass c = false := by
    intro c hc
    have := List.head?_dropWhile_not inClass cursor.rest
    rw [hc] at this
    simpa using this
  rw [readRun] at h
  cases hrun : cursor.rest.takeWhile inClass with
  | nil =>
    rw [hrun] at h
    cases h
  | cons d tail =>
    rw [hrun] at h hpasses hclass hsplit
    obtain ⟨rfl, rfl⟩ := Prod.mk.inj (Option.some.inj h)
    refine ⟨List.cons_ne_nil d tail, hclass, hpasses, ?_⟩
    rw [← List.append_cancel_left (hsplit.symm.trans hpasses.rest_eq)]
    exact hstop

/-- A character at the cursor, other than the sign for the end, is
passed by moving on. -/
theorem passes_next {cursor : Cursor} {c : Char} (h : cursor.current = c) (hc : c ≠ '\x00') :
    Passes cursor cursor.next [c] := by
  have hlt : cursor.position < cursor.text.length := by
    by_contra hge
    rw [current, charAt, List.getD_eq_getElem?_getD, List.getElem?_eq_none (by omega)] at h
    exact hc h.symm
  have hrest : cursor.rest = [c] ++ cursor.text.drop (cursor.position + 1) := by
    rw [← h, rest, List.drop_eq_getElem_cons hlt, current, charAt, List.getD_eq_getElem?_getD,
      List.getElem?_eq_getElem hlt]
    rfl
  have hnext : cursor.next = { cursor with position := cursor.position + 1 } := by
    rw [next, atEnd, if_neg (by simpa using hlt)]
  rw [hnext]
  exact passes_of_append hrest

end Cursor

/-! ## 3. The pair of identifiers -/

/-- Two identifiers with an equals sign between them are read, up to a
character that is part of neither. -/
theorem JoinKeys.read_eq {text pre gap left gap' gap'' right post : Text}
    (h : text = pre ++ gap ++ left ++ gap' ++ ['='] ++ gap'' ++ right ++ post)
    (hgap : AllBlank gap) (hleft : IsIdentifier left) (hgap' : AllBlank gap')
    (hgap'' : AllBlank gap'') (hright : IsIdentifier right)
    (hpost : ∀ c ∈ post.head?, isIdentifierChar c = false) :
    JoinKeys.read ⟨text, pre.length⟩ =
      some (⟨left, right⟩,
        ⟨text, (pre ++ gap ++ left ++ gap' ++ ['='] ++ gap'' ++ right).length⟩) := by
  -- The text from each place that the cursor comes to.
  have h1 : text = pre ++ (gap ++ (left ++ (gap' ++ '=' :: (gap'' ++ (right ++ post))))) := by
    rw [h]
    simp
  have h2 : text = (pre ++ gap) ++ (left ++ (gap' ++ '=' :: (gap'' ++ (right ++ post)))) := by
    rw [h1]
    simp
  have h3 : text = (pre ++ gap ++ left) ++ (gap' ++ '=' :: (gap'' ++ (right ++ post))) := by
    rw [h1]
    simp
  have h4 : text = (pre ++ gap ++ left ++ gap') ++ '=' :: (gap'' ++ (right ++ post)) := by
    rw [h1]
    simp
  have h5 : text = (pre ++ gap ++ left ++ gap' ++ ['=']) ++ (gap'' ++ (right ++ post)) := by
    rw [h1]
    simp
  have h6 : text = (pre ++ gap ++ left ++ gap' ++ ['='] ++ gap'') ++ (right ++ post) := by
    rw [h1]
    simp
  have hstop : ∀ c ∈ (gap' ++ '=' :: (gap'' ++ (right ++ post))).head?,
      isIdentifierChar c = false := by
    intro c hc
    cases gap' with
    | nil => obtain rfl := Option.some.inj hc; decide +kernel
    | cons b gap' =>
      obtain rfl := Option.some.inj hc
      exact isIdentifierChar_of_isBlank (hgap' b (by simp))
  have hread : (Cursor.mk text (pre ++ gap).length).readIdentifier =
      some (left, ⟨text, (pre ++ gap ++ left).length⟩) :=
    Cursor.readRun_eq h2 hleft.1 hleft.2 hstop
  have hread' : (Cursor.mk text (pre ++ gap ++ left ++ gap' ++ ['='] ++ gap'').length).readIdentifier
      = some (right, ⟨text, (pre ++ gap ++ left ++ gap' ++ ['='] ++ gap'' ++ right).length⟩) :=
    Cursor.readRun_eq h6 hright.1 hright.2 hpost
  have hskip := Cursor.skipBlanks_eq h1 hgap (hleft.startsBare.append hleft.1)
  have hskip' := Cursor.skipBlanks_eq h3 hgap' (startsBare_cons (by decide))
  have hskip'' := Cursor.skipBlanks_eq h5 hgap'' (hright.startsBare.append hright.1)
  simp only [JoinKeys.read, hskip, hread, hskip', Cursor.current_eq h4, Cursor.next_eq h4,
    hskip'', hread', if_true, Option.bind_eq_bind, Option.bind_some, Option.pure_def]

/-- A pair of identifiers as it is written: both of them, an equals sign
between them, and blanks. -/
def JoinKeys.Written (keys : JoinKeys) (text : Text) : Prop :=
  ∃ gap gap' gap'', AllBlank gap ∧ AllBlank gap' ∧ AllBlank gap'' ∧
    text = gap ++ keys.left ++ gap' ++ ['='] ++ gap'' ++ keys.right

/-- Only such a pair is read, and all of its right identifier. -/
theorem JoinKeys.read_eq_some {cursor after : Cursor} {keys : JoinKeys}
    (h : JoinKeys.read cursor = some (keys, after)) :
    IsIdentifier keys.left ∧ IsIdentifier keys.right ∧
      (∀ c ∈ after.rest.head?, isIdentifierChar c = false) ∧
      ∃ pair, keys.Written pair ∧ Cursor.Passes cursor after pair := by
  rw [JoinKeys.read, Option.bind_eq_bind, Option.bind_eq_some_iff] at h
  obtain ⟨⟨left, afterLeft⟩, hleft, h⟩ := h
  simp only at h
  split at h
  swap
  · cases h
  next hequals =>
  rw [Option.bind_eq_some_iff] at h
  obtain ⟨⟨right, afterRight⟩, hright, h⟩ := h
  obtain ⟨rfl, rfl⟩ := Prod.mk.inj (Option.some.inj h)
  obtain ⟨gap, hgap, hskip⟩ := Cursor.passes_skipBlanks cursor
  obtain ⟨gap', hgap', hskip'⟩ := Cursor.passes_skipBlanks afterLeft
  obtain ⟨gap'', hgap'', hskip''⟩ := Cursor.passes_skipBlanks afterLeft.skipBlanks.next
  obtain ⟨hne, hclass, hpasses, -⟩ := Cursor.passes_of_readRun hleft
  obtain ⟨hne', hclass', hpasses', hstop⟩ := Cursor.passes_of_readRun hright
  have hnext := Cursor.passes_next hequals (by decide)
  exact ⟨⟨hne, hclass⟩, ⟨hne', hclass'⟩, hstop, _, ⟨gap, gap', gap'', hgap, hgap', hgap'', rfl⟩,
    ((((hskip.trans hpasses).trans hskip').trans hnext).trans hskip'').trans hpasses'⟩

end SelectOutline
