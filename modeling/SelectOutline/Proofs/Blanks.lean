/-
SelectOutline.Proofs.Blanks — blanks at the ends of a text.

Every phase trims what it leaves, so that the text a phase starts from
begins and ends with a character that is no blank. `StartsBare` and
`EndsBare` are the two halves of that invariant. The main statements
put a trimmed text back together: a text is blanks, its trimmed form
and blanks again (`exists_eq_append_trim`), and what is bare at an end
is left alone there.
-/
import Mathlib.Data.List.DropRight
import Mathlib.Data.List.TakeWhile
import SelectOutline.Text.Basic

namespace SelectOutline.Text

/-! ## 1. Blank texts and bare ends -/

/-- A text of blanks only. -/
abbrev AllBlank (text : Text) : Prop :=
  ∀ c ∈ text, isBlank c = true

/-- The first character, if there is one, is no blank. -/
abbrev StartsBare (text : Text) : Prop :=
  ∀ c ∈ text.head?, isBlank c = false

/-- The last character, if there is one, is no blank. -/
abbrev EndsBare (text : Text) : Prop :=
  ∀ c ∈ text.getLast?, isBlank c = false

/-- The first character, if there is one, is a blank. -/
abbrev StartsBlank (text : Text) : Prop :=
  ∀ c ∈ text.head?, isBlank c = true

/-- What holds of all characters of a text is decided along the text, not
along all the characters there are. -/
instance (priority := 2000) decidableForallMem (text : Text) (p : Char → Prop) [DecidablePred p] :
    Decidable (∀ c ∈ text, p c) :=
  List.decidableBAll p text

theorem allBlank_nil : AllBlank [] := by
  intro c hc
  cases hc

theorem startsBare_nil : StartsBare [] := by
  intro c hc
  cases hc

theorem endsBare_nil : EndsBare [] := by
  intro c hc
  cases hc

theorem startsBare_cons {c : Char} {rest : Text} (h : isBlank c = false) :
    StartsBare (c :: rest) := by
  intro d hd
  obtain rfl := Option.some.inj hd
  exact h

theorem startsBlank_nil : StartsBlank [] := by
  intro c hc
  cases hc

theorem AllBlank.startsBlank {gap : Text} (h : AllBlank gap) : StartsBlank gap :=
  fun c hc => h c (List.mem_of_head? hc)

theorem StartsBlank.append {s t : Text} (hs : StartsBlank s) (ht : StartsBlank t) :
    StartsBlank (s ++ t) := by
  cases s with
  | nil => exact ht
  | cons c s => exact hs

theorem AllBlank.reverse {s : Text} (h : AllBlank s) : AllBlank s.reverse := by
  intro c hc
  exact h c (List.mem_reverse.mp hc)

theorem StartsBare.append {s t : Text} (h : StartsBare s) (hne : s ≠ []) :
    StartsBare (s ++ t) := by
  cases s with
  | nil => exact absurd rfl hne
  | cons c rest => exact h

theorem EndsBare.append {s t : Text} (h : EndsBare t) (hne : t ≠ []) :
    EndsBare (s ++ t) := by
  intro c hc
  rw [List.getLast?_append_of_ne_nil s hne] at hc
  exact h c hc

theorem endsBare_append {s t : Text} (hs : EndsBare s) (ht : EndsBare t) : EndsBare (s ++ t) := by
  cases t with
  | nil => rw [List.append_nil]; exact hs
  | cons c t => exact ht.append (List.cons_ne_nil c t)

/-- What is left of a text that begins bare begins bare. -/
theorem StartsBare.of_append {s t : Text} (h : StartsBare (s ++ t)) : StartsBare s := by
  cases s with
  | nil => exact startsBare_nil
  | cons c rest => exact h

theorem EndsBare.of_append {s t : Text} (h : EndsBare (s ++ t)) : EndsBare t := by
  cases t with
  | nil => exact endsBare_nil
  | cons c rest =>
    intro d hd
    apply h d
    rw [List.getLast?_append_of_ne_nil s (List.cons_ne_nil c rest)]
    exact hd

/-- A blank text with bare ends is empty. -/
theorem AllBlank.eq_nil_of_startsBare {text : Text} (h : AllBlank text)
    (hbare : StartsBare text) : text = [] := by
  cases text with
  | nil => rfl
  | cons c rest =>
    have hc : isBlank c = true := h c (by simp)
    have hc' : isBlank c = false := hbare c rfl
    rw [hc] at hc'
    cases hc'

/-! ## 2. Trimming the start -/

@[simp] theorem trimStart_nil : trimStart [] = [] := rfl

theorem trimStart_append_of_allBlank {g : Text} (h : AllBlank g) (text : Text) :
    trimStart (g ++ text) = trimStart text :=
  List.dropWhile_append_of_pos h

theorem trimStart_of_startsBare {text : Text} (h : StartsBare text) : trimStart text = text := by
  cases text with
  | nil => rfl
  | cons c rest => exact List.dropWhile_cons_of_neg (by simpa using h c rfl)

theorem trimStart_eq_nil_iff {text : Text} : trimStart text = [] ↔ AllBlank text :=
  List.dropWhile_eq_nil_iff

/-- What stands behind a text that is not blank is not trimmed. -/
theorem trimStart_append_of_ne_nil {s : Text} (h : trimStart s ≠ []) (t : Text) :
    trimStart (s ++ t) = trimStart s ++ t := by
  induction s with
  | nil => exact absurd rfl h
  | cons c s ih =>
    rw [trimStart, List.dropWhile_cons] at h
    rw [trimStart, List.cons_append, List.dropWhile_cons, trimStart, List.dropWhile_cons]
    split
    · next hc =>
      rw [if_pos hc] at h
      exact ih h
    · rfl

/-- A text begins with the blanks that trimming drops. -/
theorem exists_eq_append_trimStart (text : Text) :
    ∃ g, AllBlank g ∧ text = g ++ trimStart text := by
  refine ⟨text.takeWhile isBlank, ?_, List.takeWhile_append_dropWhile.symm⟩
  intro c hc
  exact List.mem_takeWhile_imp hc

theorem startsBare_trimStart (text : Text) : StartsBare (trimStart text) := by
  induction text with
  | nil => exact startsBare_nil
  | cons c rest ih =>
    rw [trimStart, List.dropWhile_cons]
    split
    · exact ih
    · next hc => exact startsBare_cons (by simpa using hc)

/-- A text with a bare end is not blank. -/
theorem trimStart_ne_nil {text : Text} (h : EndsBare text) (hne : text ≠ []) :
    trimStart text ≠ [] := by
  intro hnil
  have hblank := trimStart_eq_nil_iff.mp hnil _ (List.getLast_mem hne)
  rw [h _ (List.getLast?_eq_some_getLast hne)] at hblank
  cases hblank

theorem endsBare_trimStart {text : Text} (h : EndsBare text) : EndsBare (trimStart text) := by
  obtain ⟨g, _, heq⟩ := exists_eq_append_trimStart text
  rw [heq] at h
  exact h.of_append

/-! ## 3. Trimming the end -/

/-- The end is trimmed the way the library drops a run at the end. -/
theorem trimEnd_eq_rdropWhile (text : Text) : trimEnd text = text.rdropWhile isBlank := rfl

theorem trimEnd_append_of_allBlank {g : Text} (h : AllBlank g) (text : Text) :
    trimEnd (text ++ g) = trimEnd text := by
  rw [trimEnd, List.reverse_append, List.dropWhile_append_of_pos h.reverse, trimEnd]

theorem trimEnd_of_endsBare {text : Text} (h : EndsBare text) : trimEnd text = text := by
  rw [trimEnd_eq_rdropWhile, List.rdropWhile_eq_self_iff]
  intro hne
  have := h (text.getLast hne) (List.getLast?_eq_some_getLast hne)
  simp [this]

theorem trimEnd_eq_nil_iff {text : Text} : trimEnd text = [] ↔ AllBlank text := by
  rw [trimEnd_eq_rdropWhile, List.rdropWhile_eq_nil_iff]

/-- A text ends with the blanks that trimming drops. -/
theorem exists_eq_trimEnd_append (text : Text) :
    ∃ g, AllBlank g ∧ text = trimEnd text ++ g := by
  obtain ⟨g, hg, heq⟩ := exists_eq_append_trimStart text.reverse
  refine ⟨g.reverse, hg.reverse, ?_⟩
  have hrev := congrArg List.reverse heq
  rw [List.reverse_reverse, List.reverse_append] at hrev
  exact hrev

theorem endsBare_trimEnd (text : Text) : EndsBare (trimEnd text) := by
  intro c hc
  rw [trimEnd, List.getLast?_reverse] at hc
  exact startsBare_trimStart text.reverse c hc

theorem startsBare_trimEnd {text : Text} (h : StartsBare text) : StartsBare (trimEnd text) := by
  obtain ⟨g, _, heq⟩ := exists_eq_trimEnd_append text
  rw [heq] at h
  exact h.of_append

/-- Blanks at the end are all that trimming the end of a longer text
drops, if what stands before them is bare there. -/
theorem trimEnd_append_eq {s g : Text} (hs : EndsBare s) (hg : AllBlank g) :
    trimEnd (s ++ g) = s := by
  rw [trimEnd_append_of_allBlank hg, trimEnd_of_endsBare hs]

/-! ## 4. Trimming both ends -/

theorem startsBare_trim (text : Text) : StartsBare (trim text) :=
  startsBare_trimEnd (startsBare_trimStart text)

theorem endsBare_trim (text : Text) : EndsBare (trim text) :=
  endsBare_trimEnd (trimStart text)

theorem trim_eq_self {text : Text} (hs : StartsBare text) (he : EndsBare text) :
    trim text = text := by
  rw [trim, trimStart_of_startsBare hs, trimEnd_of_endsBare he]

theorem trim_eq_trimEnd {text : Text} (h : StartsBare text) : trim text = trimEnd text := by
  rw [trim, trimStart_of_startsBare h]

theorem trim_trim (text : Text) : trim (trim text) = trim text :=
  trim_eq_self (startsBare_trim text) (endsBare_trim text)

/-- Blanks around a text with bare ends are what trimming drops. -/
theorem trim_surrounded {g text h : Text} (hg : AllBlank g) (hs : StartsBare text)
    (he : EndsBare text) (hh : AllBlank h) : trim (g ++ text ++ h) = text := by
  rw [trim, List.append_assoc, trimStart_append_of_allBlank hg]
  cases text with
  | nil => rw [List.nil_append, trimStart_eq_nil_iff.mpr hh]; rfl
  | cons c rest =>
    rw [trimStart_of_startsBare (hs.append (by simp)), trimEnd_append_eq he hh]

theorem trim_eq_nil_iff {text : Text} : trim text = [] ↔ AllBlank text := by
  rw [trim, trimEnd_eq_nil_iff]
  constructor
  · intro h
    exact trimStart_eq_nil_iff.mp (h.eq_nil_of_startsBare (startsBare_trimStart text))
  · intro h
    rw [trimStart_eq_nil_iff.mpr h]
    exact allBlank_nil

/-- A text is its trimmed form between blanks. -/
theorem exists_eq_append_trim (text : Text) :
    ∃ g h, AllBlank g ∧ AllBlank h ∧ text = g ++ trim text ++ h := by
  obtain ⟨g, hg, hstart⟩ := exists_eq_append_trimStart text
  obtain ⟨h, hh, hend⟩ := exists_eq_trimEnd_append (trimStart text)
  refine ⟨g, h, hg, hh, ?_⟩
  rw [List.append_assoc, trim, ← hend]
  exact hstart

/-- The blanks before a text that begins with one. -/
theorem exists_eq_gap_append {text : Text} (h : text.head?.any isBlank = true) :
    ∃ gap, gap ≠ [] ∧ AllBlank gap ∧ text = gap ++ trimStart text := by
  obtain ⟨gap, hgap, heq⟩ := exists_eq_append_trimStart text
  refine ⟨gap, ?_, hgap, heq⟩
  rintro rfl
  rw [List.nil_append] at heq
  rw [heq] at h
  obtain ⟨c, hc, hblank⟩ := (Option.any_eq_true _ _).mp h
  rw [startsBare_trimStart text c hc] at hblank
  cases hblank

/-- The blanks after a text that ends with one. -/
theorem exists_eq_append_gap {text : Text} (h : text.getLast?.any isBlank = true) :
    ∃ gap, gap ≠ [] ∧ AllBlank gap ∧ text = trimEnd text ++ gap := by
  obtain ⟨gap, hgap, heq⟩ := exists_eq_trimEnd_append text
  refine ⟨gap, ?_, hgap, heq⟩
  rintro rfl
  rw [List.append_nil] at heq
  rw [heq] at h
  obtain ⟨c, hc, hblank⟩ := (Option.any_eq_true _ _).mp h
  rw [endsBare_trimEnd text c hc] at hblank
  cases hblank

/-- A text that begins and ends with blanks and does not consist of
them. -/
theorem exists_eq_gap_trim_gap {text : Text} (hs : text.head?.any isBlank = true)
    (he : text.getLast?.any isBlank = true) (hne : trim text ≠ []) :
    ∃ gap gap', gap ≠ [] ∧ AllBlank gap ∧ gap' ≠ [] ∧ AllBlank gap' ∧
      text = gap ++ trim text ++ gap' := by
  obtain ⟨gap, hgap, hblank, hstart⟩ := exists_eq_gap_append hs
  have hne' : trimStart text ≠ [] := by
    intro h
    rw [trim, h] at hne
    exact hne rfl
  have hlast : (trimStart text).getLast?.any isBlank = true := by
    rw [hstart, List.getLast?_append_of_ne_nil gap hne'] at he
    exact he
  obtain ⟨gap', hgap', hblank', hend⟩ := exists_eq_append_gap hlast
  refine ⟨gap, gap', hgap, hblank, hgap', hblank', ?_⟩
  rw [List.append_assoc, trim, ← hend]
  exact hstart

theorem length_trim_le (text : Text) : (trim text).length ≤ text.length := by
  obtain ⟨g, h, _, _, heq⟩ := exists_eq_append_trim text
  have := congrArg List.length heq
  simp only [List.length_append] at this
  omega

/-! ## 5. Cutting to the end -/

/-- A span that reaches the end of the text goes with the blanks before
it, and nothing takes its place. -/
theorem cut_length (text : Text) (start : Nat) :
    cut text start text.length = trimEnd (text.take start) := by
  simp [cut]

theorem length_trimStart_le (text : Text) : (trimStart text).length ≤ text.length :=
  List.length_dropWhile_le isBlank text

theorem length_trimEnd_le (text : Text) : (trimEnd text).length ≤ text.length := by
  obtain ⟨g, -, heq⟩ := exists_eq_trimEnd_append text
  have := congrArg List.length heq
  rw [List.length_append] at this
  omega

/-- Cutting a span out adds at most one space to what is around it. -/
theorem length_cut_le (text : Text) (start stop : Nat) :
    (cut text start stop).length ≤ (text.take start).length + 1 + (text.drop stop).length := by
  have hbefore := length_trimEnd_le (text.take start)
  have hafter := length_trimStart_le (text.drop stop)
  simp only [cut]
  split
  · rw [List.length_append]
    omega
  · rw [List.length_append, List.length_cons]
    omega

/-! ## 6. Texts with bare ends -/

/-- A text that trimming leaves as it is. -/
structure Trimmed (text : Text) : Prop where
  starts : StartsBare text
  ends : EndsBare text

theorem trimmed_trim (text : Text) : Trimmed (trim text) :=
  ⟨startsBare_trim text, endsBare_trim text⟩

theorem Trimmed.trim_eq {text : Text} (h : Trimmed text) : trim text = text :=
  trim_eq_self h.starts h.ends

theorem Trimmed.append {s t : Text} (hs : Trimmed s) (hne : s ≠ []) (ht : EndsBare t) :
    Trimmed (s ++ t) :=
  ⟨hs.starts.append hne, endsBare_append hs.ends ht⟩

/-- Blanks around a trimmed text come off. -/
theorem Trimmed.trim_between {g text h : Text} (ht : Trimmed text) (hg : AllBlank g)
    (hh : AllBlank h) : trim (g ++ text ++ h) = text :=
  trim_surrounded hg ht.starts ht.ends hh

theorem Trimmed.trim_blanks_append {g text : Text} (ht : Trimmed text) (hg : AllBlank g) :
    trim (g ++ text) = text := by
  have := ht.trim_between hg allBlank_nil
  rwa [List.append_nil] at this

theorem Trimmed.trim_append_blanks {text h : Text} (ht : Trimmed text) (hh : AllBlank h) :
    trim (text ++ h) = text :=
  ht.trim_between allBlank_nil hh

theorem Trimmed.trim_take {text : Text} (h : Trimmed text) (n : Nat) :
    trim (text.take n) = trimEnd (text.take n) := by
  refine trim_eq_trimEnd (StartsBare.of_append (t := text.drop n) ?_)
  rw [List.take_append_drop]
  exact h.starts

theorem Trimmed.trimEnd_take {text : Text} (h : Trimmed text) (n : Nat) :
    Trimmed (trimEnd (text.take n)) := by
  rw [← h.trim_take]
  exact trimmed_trim _

/-- What follows a blank, up to a bare end, is not all blank. -/
theorem exists_eq_gap_append_trim {text : Text} (h : text.head?.any isBlank = true)
    (hends : EndsBare text) :
    ∃ gap, gap ≠ [] ∧ AllBlank gap ∧ text = gap ++ trim text ∧ trim text ≠ [] := by
  obtain ⟨gap, hne, hgap, heq⟩ := exists_eq_gap_append h
  have htrim : trim text = trimStart text := trimEnd_of_endsBare (endsBare_trimStart hends)
  refine ⟨gap, hne, hgap, by rw [htrim]; exact heq, ?_⟩
  rw [htrim]
  refine trimStart_ne_nil hends ?_
  rintro rfl
  cases h

theorem Trimmed.cut {text : Text} (h : Trimmed text) (start stop : Nat) :
    Trimmed (cut text start stop) := by
  have hbefore := h.trimEnd_take start
  have hafter : Trimmed (trimStart (text.drop stop)) := by
    refine ⟨startsBare_trimStart _, endsBare_trimStart ?_⟩
    apply EndsBare.of_append (s := text.take stop)
    rw [List.take_append_drop]
    exact h.ends
  simp only [Text.cut]
  cases hb : trimEnd (text.take start) with
  | nil => simpa using hafter
  | cons c before =>
    rw [hb] at hbefore
    cases ha : trimStart (text.drop stop) with
    | nil => simpa using hbefore
    | cons d after =>
      rw [ha] at hafter
      have hends : EndsBare ((c :: before ++ [' ']) ++ d :: after) :=
        hafter.ends.append (List.cons_ne_nil d after)
      refine ⟨hbefore.starts, ?_⟩
      simpa using hends

end SelectOutline.Text
