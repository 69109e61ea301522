/-
SelectOutline.Proofs.Literals — the state of a scan along a text.

`Quoting.scan` runs a scan over a whole text, and a text is `Closed`
when a scan that enters it outside literals leaves it outside. A search
that begins at a position behind a closed text sees the literals that
are really there.

A scan that begins inside a literal does not recover: one character
moves different states to different states (`scan_ne`), so that the two
scans never agree again, however many quotes follow.
-/
import SelectOutline.Text.Quoting

namespace SelectOutline.Text

/-! ## 1. Scanning a text -/

/-- The state after a text. -/
def Quoting.scan (state : Quoting) (text : Text) : Quoting :=
  text.foldl Quoting.step state

/-- Every literal that is opened in the text is closed in it. -/
abbrev Closed (text : Text) : Prop :=
  Quoting.outside.scan text = .outside

/-- A text without quotes. -/
abbrev Unquoted (text : Text) : Prop :=
  ∀ c ∈ text, isQuote c = false

/-- The states a scan can reach: only quotes delimit literals. -/
def Quoting.Proper : Quoting → Prop
  | .outside => True
  | .inside delimiter => isQuote delimiter = true

namespace Quoting

@[simp] theorem scan_nil (state : Quoting) : state.scan [] = state := rfl

@[simp] theorem scan_cons (state : Quoting) (c : Char) (rest : Text) :
    state.scan (c :: rest) = (state.step c).scan rest := rfl

theorem proper_outside : Quoting.outside.Proper := trivial

theorem scan_append (state : Quoting) (s t : Text) :
    state.scan (s ++ t) = (state.scan s).scan t :=
  List.foldl_append

theorem plain_iff {state : Quoting} {c : Char} :
    state.plain c = true ↔ state = .outside ∧ isQuote c = false := by
  simp [plain]

theorem plain_outside {c : Char} (h : isQuote c = false) : Quoting.outside.plain c = true :=
  plain_iff.mpr ⟨rfl, h⟩

theorem step_outside {c : Char} (h : isQuote c = false) : Quoting.outside.step c = .outside := by
  simp [step, h]

theorem step_open {c : Char} (h : isQuote c = true) : Quoting.outside.step c = .inside c :=
  if_pos h

theorem step_close (delimiter : Char) : (Quoting.inside delimiter).step delimiter = .outside :=
  if_pos rfl

theorem step_inside {c delimiter : Char} (h : c ≠ delimiter) :
    (Quoting.inside delimiter).step c = .inside delimiter :=
  if_neg h

theorem step_proper {state : Quoting} (h : state.Proper) (c : Char) : (state.step c).Proper := by
  cases state with
  | outside =>
    by_cases hc : isQuote c = true
    · rw [step_open hc]; exact hc
    · rw [step_outside (by simpa using hc)]; trivial
  | inside delimiter =>
    by_cases hc : c = delimiter
    · rw [hc, step_close]; trivial
    · rw [step_inside hc]; exact h

theorem scan_proper {state : Quoting} (h : state.Proper) (text : Text) :
    (state.scan text).Proper := by
  induction text generalizing state with
  | nil => exact h
  | cons c rest ih => exact ih (step_proper h c)

/-- A character that is no quote changes no state. -/
theorem step_eq_self {state : Quoting} (h : state.Proper) {c : Char} (hc : isQuote c = false) :
    state.step c = state := by
  cases state with
  | outside => exact step_outside hc
  | inside delimiter =>
    have hne : c ≠ delimiter := by
      rintro rfl
      rw [Proper, hc] at h
      cases h
    exact step_inside hne

theorem scan_unquoted {state : Quoting} (h : state.Proper) {text : Text} (ht : Unquoted text) :
    state.scan text = state := by
  induction text with
  | nil => rfl
  | cons c rest ih =>
    rw [scan_cons, step_eq_self h (ht c (by simp))]
    exact ih (fun d hd => ht d (by simp [hd]))

/-! ## 2. Scans that differ stay apart -/

/-- One character moves different states to different states: a quote
exchanges being outside with being inside a literal of its kind, and
leaves the other kind alone. -/
theorem step_ne {a b : Quoting} (ha : a.Proper) (hb : b.Proper) (hne : a ≠ b) (c : Char) :
    a.step c ≠ b.step c := by
  by_cases hc : isQuote c = true
  · cases a with
    | outside =>
      cases b with
      | outside => exact absurd rfl hne
      | inside e =>
        rw [step_open hc]
        by_cases he : c = e
        · rw [he, step_close]; exact Quoting.noConfusion
        · rw [step_inside he]; exact fun h => he (Quoting.inside.inj h)
    | inside d =>
      cases b with
      | outside =>
        rw [step_open hc]
        by_cases hd : c = d
        · rw [hd, step_close]; exact Quoting.noConfusion
        · rw [step_inside hd]; exact fun h => hd (Quoting.inside.inj h).symm
      | inside e =>
        have hde : d ≠ e := fun h => hne (by rw [h])
        by_cases hd : c = d
        · rw [hd, step_close, step_inside hde]; exact Quoting.noConfusion
        · by_cases he : c = e
          · rw [he, step_close, step_inside (Ne.symm hde)]; exact Quoting.noConfusion
          · rw [step_inside hd, step_inside he]; exact hne
  · have hc' : isQuote c = false := by simpa using hc
    rw [step_eq_self ha hc', step_eq_self hb hc']
    exact hne

theorem scan_ne {a b : Quoting} (ha : a.Proper) (hb : b.Proper) (hne : a ≠ b) (text : Text) :
    a.scan text ≠ b.scan text := by
  induction text generalizing a b with
  | nil => exact hne
  | cons c rest ih => exact ih (step_proper ha c) (step_proper hb c) (step_ne ha hb hne c)

/-! ## 3. Literals -/

theorem scan_inside {delimiter : Char} {body : Text} (h : delimiter ∉ body) :
    (Quoting.inside delimiter).scan body = .inside delimiter := by
  induction body with
  | nil => rfl
  | cons c rest ih =>
    have hc : c ≠ delimiter := fun heq => h (by simp [heq])
    rw [scan_cons, step_inside hc]
    exact ih (fun hmem => h (by simp [hmem]))

/-- A scan passes over a whole literal. -/
theorem scan_literal {delimiter : Char} (hd : isQuote delimiter = true) {body : Text}
    (h : delimiter ∉ body) (rest : Text) :
    Quoting.outside.scan (delimiter :: (body ++ delimiter :: rest)) =
      Quoting.outside.scan rest := by
  rw [scan_cons, step_open hd, scan_append, scan_inside h, scan_cons, step_close]

end Quoting

/-! ## 4. Closed texts -/

theorem isQuote_of_isBlank {c : Char} (h : isBlank c = true) : isQuote c = false := by
  have h1 : c ≠ '\'' := by rintro rfl; revert h; decide
  have h2 : c ≠ '"' := by rintro rfl; revert h; decide
  simp [isQuote, h1, h2]

theorem Unquoted.closed {text : Text} (h : Unquoted text) : Closed text :=
  Quoting.scan_unquoted Quoting.proper_outside h

theorem closed_take_zero (text : Text) : Closed (text.take 0) := rfl

theorem Unquoted.append {s t : Text} (hs : Unquoted s) (ht : Unquoted t) : Unquoted (s ++ t) := by
  intro c hc
  rcases List.mem_append.mp hc with hc | hc
  · exact hs c hc
  · exact ht c hc

theorem Closed.scan_append {s : Text} (hs : Closed s) (t : Text) :
    Quoting.outside.scan (s ++ t) = Quoting.outside.scan t := by
  rw [Quoting.scan_append, hs]

theorem Closed.append {s t : Text} (hs : Closed s) (ht : Closed t) : Closed (s ++ t) := by
  rw [Closed, hs.scan_append]
  exact ht

end SelectOutline.Text
