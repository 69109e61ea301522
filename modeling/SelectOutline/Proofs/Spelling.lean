/-
SelectOutline.Proofs.Spelling — how a keyword is written.

`Spells words s` says that `s` is a way to write the words of a keyword:
each letter in either ASCII case, and any non-empty run of blanks
between two words. `matchHere_eq_some_iff` ties the matcher to it: the
keyword is seen exactly where such a text stands between what the
keyword asks for on its two sides. It asks of the words only that none is
empty and none holds a blank (`Bare`); letters matter where a keyword is
compared with literals and with other keywords (`Lettered`).

A match needs to see one blank after the keyword and nothing further.
`matchHere_append_blank` says when text behind a blank can be left out
of the comparison: it must not go on with a later word of the keyword.
-/
import SelectOutline.Keyword.Vocabulary
import SelectOutline.Proofs.Blanks
import SelectOutline.Proofs.Literals

namespace SelectOutline

open Text

/-! ## 1. Letters -/

theorem isLower_bounds {c : Char} (h : c.isLower = true) : 97 ≤ c.toNat ∧ c.toNat ≤ 122 := by
  unfold Char.isLower at h
  simpa [UInt32.le_iff_toNat_le] using h

theorem isUpper_bounds {c : Char} (h : c.isUpper = true) : 65 ≤ c.toNat ∧ c.toNat ≤ 90 := by
  unfold Char.isUpper at h
  simpa [UInt32.le_iff_toNat_le] using h

theorem isDigit_bounds {c : Char} (h : c.isDigit = true) : 48 ≤ c.toNat ∧ c.toNat ≤ 57 := by
  unfold Char.isDigit at h
  simpa [UInt32.le_iff_toNat_le] using h

theorem toUpper_of_not_isLower {c : Char} (h : ¬ c.isLower = true) : c.toUpper = c := by
  unfold Char.isLower at h
  unfold Char.toUpper
  simp only [Bool.and_eq_true, decide_eq_true_eq] at h
  exact dif_neg h

theorem isAlpha_of_toUpper {c letter : Char} (h : c.toUpper = letter)
    (hletter : letter.isUpper = true) : c.isAlpha = true := by
  subst h
  unfold Char.isAlpha
  rw [Bool.or_eq_true]
  by_cases hc : c.isLower = true
  · exact Or.inr hc
  · rw [toUpper_of_not_isLower hc] at hletter
    exact Or.inl hletter

theorem isAlpha_bounds {c : Char} (h : c.isAlpha = true) :
    65 ≤ c.toNat ∧ c.toNat ≤ 90 ∨ 97 ≤ c.toNat ∧ c.toNat ≤ 122 := by
  unfold Char.isAlpha at h
  rw [Bool.or_eq_true] at h
  exact h.imp isUpper_bounds isLower_bounds

theorem isBlank_of_isAlpha {c : Char} (h : c.isAlpha = true) : isBlank c = false := by
  have hc := isAlpha_bounds h
  rw [Bool.eq_false_iff]
  intro hblank
  obtain ⟨range, hmem, hlow, hhigh⟩ := inRanges_iff.mp hblank
  simp only [blankRanges, List.mem_cons, List.not_mem_nil, or_false] at hmem
  rcases hmem with rfl | rfl | rfl | rfl | rfl | rfl | rfl | rfl | rfl | rfl <;>
    simp only at hlow hhigh <;> omega

/-- Capital letters are the only characters that ASCII upper case brings
in, so that it makes no blank of anything else. -/
theorem isBlank_of_toUpper {c : Char} (h : isBlank c.toUpper = false) : isBlank c = false := by
  by_cases hc : c.isLower = true
  · apply isBlank_of_isAlpha
    unfold Char.isAlpha
    rw [hc, Bool.or_true]
  · rwa [toUpper_of_not_isLower hc] at h

theorem isQuote_of_isAlpha {c : Char} (h : c.isAlpha = true) : isQuote c = false := by
  have hc := isAlpha_bounds h
  have h1 : c ≠ '\'' := by rintro rfl; revert hc; decide
  have h2 : c ≠ '"' := by rintro rfl; revert hc; decide
  simp [isQuote, h1, h2]

theorem Text.AllBlank.unquoted {gap : Text} (h : AllBlank gap) : Unquoted gap :=
  fun c hc => isQuote_of_isBlank (h c hc)

namespace Keyword

/-! ## 2. Words -/

/-- Words without blanks, none of them empty. -/
abbrev Bare (words : List Text) : Prop :=
  ∀ word ∈ words, word ≠ [] ∧ ∀ c ∈ word, isBlank c = false

/-- Words of capital letters, none of them empty. -/
abbrev Lettered (words : List Text) : Prop :=
  ∀ word ∈ words, word ≠ [] ∧ ∀ c ∈ word, c.isUpper = true

theorem Lettered.bare {words : List Text} (h : Lettered words) : Bare words := by
  intro word hmem
  refine ⟨(h word hmem).1, fun c hc => isBlank_of_isAlpha ?_⟩
  unfold Char.isAlpha
  rw [(h word hmem).2 c hc, Bool.true_or]

theorem stripWord_eq_some_iff {word text rest : Text} :
    stripWord word text = some rest ↔
      ∃ s, text = s ++ rest ∧ s.map Char.toUpper = word := by
  induction word generalizing text with
  | nil => simp [stripWord, eq_comm]
  | cons letter word ih =>
    cases text with
    | nil => simp [stripWord]
    | cons c text =>
      rw [stripWord]
      split
      · next hc =>
        rw [ih]
        constructor
        · rintro ⟨s, rfl, rfl⟩
          exact ⟨c :: s, rfl, by simp [hc]⟩
        · rintro ⟨s, heq, hs⟩
          cases s with
          | nil => cases hs
          | cons d s =>
            exact ⟨s, (List.cons.inj heq).2, (List.cons.inj hs).2⟩
      · next hc =>
        constructor
        · intro h
          cases h
        · rintro ⟨s, heq, hs⟩
          cases s with
          | nil => cases hs
          | cons d s =>
            obtain ⟨rfl, -⟩ := List.cons.inj heq
            exact absurd (List.cons.inj hs).1 hc

theorem isAlpha_of_mem {word s : Text} (hword : ∀ c ∈ word, c.isUpper = true)
    (hs : s.map Char.toUpper = word) : ∀ c ∈ s, c.isAlpha = true := by
  intro c hc
  apply isAlpha_of_toUpper rfl
  apply hword
  rw [← hs]
  exact List.mem_map_of_mem hc

theorem isBlank_of_mem {word s : Text} (hword : ∀ c ∈ word, isBlank c = false)
    (hs : s.map Char.toUpper = word) : ∀ c ∈ s, isBlank c = false := by
  intro c hc
  apply isBlank_of_toUpper
  apply hword
  rw [← hs]
  exact List.mem_map_of_mem hc

/-- A word holds no blank. -/
theorem getLast?_not_blank {word u v : Text} (hword : ∀ c ∈ word, c.isUpper = true)
    (h : (u ++ v).map Char.toUpper = word) : u.getLast?.any isBlank = false := by
  cases hu : u.getLast? with
  | none => rfl
  | some c =>
    have hmem : c ∈ u ++ v := List.mem_append_left v (List.mem_of_getLast? hu)
    exact isBlank_of_isAlpha (isAlpha_of_mem hword h c hmem)

/-- The texts that write a list of words. -/
inductive Spells : (words : List Text) → (s : Text) → Prop
  | nil : Spells [] []
  | single {word s : Text} (h : s.map Char.toUpper = word) : Spells [word] s
  | cons {word next : Text} {words : List Text} {s gap t : Text}
      (h : s.map Char.toUpper = word) (hne : gap ≠ []) (hgap : AllBlank gap)
      (ht : Spells (next :: words) t) : Spells (word :: next :: words) (s ++ gap ++ t)

namespace Spells

/-- A spelling holds letters and blanks, hence no quotes. -/
theorem unquoted {words : List Text} {s : Text} (h : Spells words s) (hw : Lettered words) :
    Unquoted s := by
  induction h with
  | nil => intro c hc; cases hc
  | @single word s h =>
    intro c hc
    exact isQuote_of_isAlpha (isAlpha_of_mem (hw word (by simp)).2 h c hc)
  | @cons word next words s gap t h hne hgap ht ih =>
    intro c hc
    rcases List.mem_append.mp hc with hc | hc
    · rcases List.mem_append.mp hc with hc | hc
      · exact isQuote_of_isAlpha (isAlpha_of_mem (hw word (by simp)).2 h c hc)
      · exact hgap.unquoted c hc
    · exact ih (fun w hmem => hw w (by simp [hmem])) c hc

/-- A spelling begins with a letter. -/
theorem exists_letter {word : Text} {words : List Text} {s : Text} (h : Spells (word :: words) s)
    (hw : Lettered (word :: words)) :
    ∃ c rest, s = c :: rest ∧ some c.toUpper = word.head? ∧ c.isAlpha = true := by
  have key : ∀ {u : Text}, u.map Char.toUpper = word →
      ∃ c rest, u = c :: rest ∧ some c.toUpper = word.head? ∧ c.isAlpha = true := by
    intro u hu
    cases u with
    | nil => exact absurd hu.symm (hw word (by simp)).1
    | cons c rest =>
      refine ⟨c, rest, rfl, by rw [← hu]; rfl, ?_⟩
      exact isAlpha_of_mem (hw word (by simp)).2 hu c (by simp)
  cases h with
  | single h => exact key h
  | @cons _ next words u gap t h hne hgap ht =>
    obtain ⟨c, rest, rfl, hc⟩ := key h
    exact ⟨c, rest ++ gap ++ t, by simp, hc⟩

theorem ne_nil {words : List Text} {s : Text} (h : Spells words s) (hw : Bare words)
    (hne : words ≠ []) : s ≠ [] := by
  have key : ∀ {word u : Text}, word ∈ words → u.map Char.toUpper = word → u ≠ [] := by
    rintro word u hmem rfl rfl
    exact (hw _ hmem).1 rfl
  cases h with
  | nil => exact absurd rfl hne
  | single h => exact key (by simp) h
  | cons h hgap hblank ht => simp [key (by simp) h]

theorem startsBare {words : List Text} {s : Text} (h : Spells words s) (hw : Bare words) :
    StartsBare s := by
  have key : ∀ {word u : Text}, word ∈ words → u.map Char.toUpper = word → StartsBare u :=
    fun hmem hu c hc => isBlank_of_mem (hw _ hmem).2 hu c (List.mem_of_head? hc)
  cases h with
  | nil => exact startsBare_nil
  | single h => exact key (by simp) h
  | @cons word next words u gap t h hgap hblank ht =>
    have hne : u ≠ [] := by
      rintro rfl
      exact (hw word (by simp)).1 h.symm
    rw [List.append_assoc]
    exact (key (by simp) h).append hne

/-- A spelling ends with a word. -/
theorem endsBare {words : List Text} {s : Text} (h : Spells words s) (hw : Bare words) :
    EndsBare s := by
  induction h with
  | nil => exact endsBare_nil
  | @single word s h =>
    exact fun c hc => isBlank_of_mem (hw word (by simp)).2 h c (List.mem_of_getLast? hc)
  | @cons word next words s gap t h hne hgap ht ih =>
    have hw' : Bare (next :: words) := fun w hmem => hw w (by simp [hmem])
    exact (ih hw').append (ht.ne_nil hw' (by simp))

/-- What follows a blank in a spelling is a blank or the beginning of a
later word. -/
theorem exists_later_word {words : List Text} {s u v : Text} {c : Char} (h : Spells words s)
    (hw : Lettered words) (heq : s = u ++ c :: v) (hu : u.getLast?.any isBlank = true)
    (hc : isBlank c = false) : ∃ word ∈ words.tail, some c.toUpper = word.head? := by
  induction h generalizing u with
  | nil => simp at heq
  | single h =>
    rw [getLast?_not_blank (hw _ (by simp)).2 (heq ▸ h)] at hu
    cases hu
  | @cons word next words s gap t h hne hgap ht ih =>
    have hw' : Lettered (next :: words) := fun w hmem => hw w (by simp [hmem])
    have hnext : ∀ {rest : Text}, c :: rest = t →
        ∃ later ∈ (word :: next :: words).tail, some c.toUpper = later.head? := by
      rintro rest rfl
      obtain ⟨d, tail, hd, hletter, -⟩ := ht.exists_letter hw'
      obtain rfl := (List.cons.inj hd).1
      exact ⟨next, by simp, hletter⟩
    rw [List.append_assoc] at heq
    rcases List.append_eq_append_iff.mp heq with ⟨w, rfl, hrest⟩ | ⟨w, rfl, -⟩
    · rcases List.append_eq_append_iff.mp hrest with ⟨x, rfl, htx⟩ | ⟨x, rfl, htx⟩
      · -- The place lies in the words behind the gap.
        cases x with
        | nil => exact hnext htx.symm
        | cons b x =>
          rw [← List.append_assoc, List.getLast?_append_of_ne_nil _ (List.cons_ne_nil b x)] at hu
          obtain ⟨later, hmem, hlater⟩ := ih hw' htx hu
          exact ⟨later, by simpa using Or.inr hmem, hlater⟩
      · -- The place lies in the gap, or right behind it.
        cases x with
        | nil => exact hnext htx
        | cons b x =>
          obtain rfl := (List.cons.inj htx).1
          rw [hgap c (by simp)] at hc
          cases hc
    · rw [getLast?_not_blank (hw word (by simp)).2 h] at hu
      cases hu

end Spells

/-! ## 3. Stripping words -/

theorem stripWords_sound {words : List Text} {text rest : Text}
    (h : stripWords words text = some rest) : ∃ s, text = s ++ rest ∧ Spells words s := by
  induction words generalizing text with
  | nil =>
    obtain rfl := Option.some.inj h
    exact ⟨[], rfl, .nil⟩
  | cons word words ih =>
    cases words with
    | nil =>
      obtain ⟨s, heq, hs⟩ := stripWord_eq_some_iff.mp h
      exact ⟨s, heq, .single hs⟩
    | cons next words =>
      rw [stripWords] at h
      split at h
      · cases h
      · next after hafter =>
        obtain ⟨s, rfl, hs⟩ := stripWord_eq_some_iff.mp hafter
        split at h
        · next hblank =>
          obtain ⟨t, ht, hspells⟩ := ih h
          obtain ⟨gap, hgap, heq⟩ := exists_eq_append_trimStart after
          have hne : gap ≠ [] := by
            rintro rfl
            rw [List.nil_append] at heq
            rw [heq] at hblank
            obtain ⟨c, hc, hc'⟩ := Option.any_eq_true _ _ |>.mp hblank
            rw [startsBare_trimStart after c hc] at hc'
            cases hc'
          refine ⟨s ++ gap ++ t, ?_, .cons hs hne hgap hspells⟩
          rw [List.append_assoc, List.append_assoc, ← ht, ← heq]
        · cases h

theorem stripWords_complete {words : List Text} (hw : Bare words) {s : Text}
    (h : Spells words s) (rest : Text) : stripWords words (s ++ rest) = some rest := by
  induction h with
  | nil => rfl
  | single h => exact stripWord_eq_some_iff.mpr ⟨_, rfl, h⟩
  | @cons word next words s gap t h hne hgap ht ih =>
    have hw' : Bare (next :: words) := fun w hmem => hw w (by simp [hmem])
    have hstrip : stripWord word (s ++ gap ++ t ++ rest) = some (gap ++ (t ++ rest)) :=
      stripWord_eq_some_iff.mpr ⟨s, by simp, h⟩
    have hhead : (gap ++ (t ++ rest)).head?.any isBlank = true := by
      cases gap with
      | nil => exact absurd rfl hne
      | cons c gap => exact hgap c (by simp)
    have htrim : trimStart (gap ++ (t ++ rest)) = t ++ rest := by
      rw [trimStart_append_of_allBlank hgap]
      exact trimStart_of_startsBare ((ht.startsBare hw').append (ht.ne_nil hw' (by simp)))
    rw [stripWords, hstrip]
    simp only [hhead, if_true, htrim]
    exact ih hw'

/-! ## 4. Recognising a keyword -/

/-- The letter a keyword begins with. -/
def initial (keyword : Keyword) : Option Char :=
  keyword.words.head?.bind List.head?

theorem Spells.exists_initial {keyword : Keyword} {s : Text} (h : Spells keyword.words s)
    (hw : Lettered keyword.words) (hne : keyword.words ≠ []) :
    ∃ c rest, s = c :: rest ∧ some c.toUpper = keyword.initial := by
  obtain ⟨word, words, hwords⟩ := List.exists_cons_of_ne_nil hne
  rw [hwords] at h hw
  obtain ⟨c, rest, heq, hc, -⟩ := h.exists_letter hw
  exact ⟨c, rest, heq, by rw [hc, initial, hwords]; rfl⟩

/-- What may follow the keyword. -/
def Admits (keyword : Keyword) : (rest : Text) → Prop
  | [] => keyword.mayEnd = true
  | c :: _ => keyword.blankAfter = true → isBlank c = true

/-- A keyword is seen exactly where it is written and what surrounds it
is as the keyword asks. -/
theorem matchHere_eq_some_iff {keyword : Keyword} (hw : Bare keyword.words)
    {before : Option Char} {text : Text} {length : Nat} :
    keyword.matchHere before text = some length ↔
      (keyword.blankBefore = true → before.any isBlank = true) ∧
      ∃ s rest, text = s ++ rest ∧ Spells keyword.words s ∧ s.length = length ∧
        keyword.Admits rest := by
  constructor
  · intro h
    rw [matchHere] at h
    split at h
    · cases h
    · next hbefore =>
      refine ⟨fun hb => by simpa [hb] using hbefore, ?_⟩
      split at h
      · cases h
      · next hstrip =>
        obtain ⟨s, heq, hs⟩ := stripWords_sound hstrip
        split at h
        · next hend =>
          refine ⟨s, [], heq, hs, ?_, hend⟩
          rw [heq, List.append_nil] at h
          exact Option.some.inj h
        · cases h
      · next c rest hstrip =>
        obtain ⟨s, heq, hs⟩ := stripWords_sound hstrip
        split at h
        · cases h
        · next hafter =>
          refine ⟨s, c :: rest, heq, hs, ?_, fun ha => by simpa [ha] using hafter⟩
          rw [← Option.some.inj h, heq, List.length_append]
          omega
  · rintro ⟨hbefore, s, rest, rfl, hs, rfl, hrest⟩
    rw [matchHere, if_neg (by
      intro h
      rw [Bool.and_eq_true] at h
      rw [hbefore h.1] at h
      exact absurd h.2 (by simp)), stripWords_complete hw hs rest]
    cases rest with
    | nil =>
      rw [Admits] at hrest
      simp [hrest]
    | cons c rest =>
      have hc : ¬ (keyword.blankAfter && !isBlank c) = true := by
        intro h
        rw [Bool.and_eq_true] at h
        rw [hrest h.1] at h
        exact absurd h.2 (by simp)
      simp [hc]

/-- A keyword is not seen where another letter stands. -/
theorem matchHere_of_initial_ne {keyword : Keyword} (hw : Lettered keyword.words)
    (hne : keyword.words ≠ []) {c : Char} (h : keyword.initial ≠ some c.toUpper)
    (before : Option Char) (rest : Text) : keyword.matchHere before (c :: rest) = none := by
  rw [Option.eq_none_iff_forall_ne_some]
  intro length hmatch
  obtain ⟨-, s, after, heq, hs, -⟩ := (matchHere_eq_some_iff hw.bare).mp hmatch
  obtain ⟨d, s, rfl, hd⟩ := hs.exists_initial hw hne
  obtain ⟨rfl, -⟩ := List.cons.inj heq
  exact h hd.symm

/-! ## 5. How far a match looks -/

/-- A word ends before the next blank. -/
theorem stripWord_append_blank {word : Text} (hword : ∀ c ∈ word, c.isUpper = true)
    {b : Char} (hb : isBlank b = true) (u rest : Text) :
    stripWord word (u ++ b :: rest) = (stripWord word u).map (· ++ b :: rest) := by
  induction word generalizing u with
  | nil => rfl
  | cons letter word ih =>
    cases u with
    | nil =>
      have hne : b.toUpper ≠ letter := by
        intro h
        have := isBlank_of_isAlpha (isAlpha_of_toUpper h (hword letter (by simp)))
        rw [hb] at this
        cases this
      simp [stripWord, hne]
    | cons c u =>
      have ih := ih (fun d hd => hword d (by simp [hd])) u
      by_cases hc : c.toUpper = letter
      · simpa [stripWord, hc] using ih
      · simp [stripWord, hc]

/-- What stands behind a blank matters to the words before it only when
it begins with one of the later words. -/
theorem stripWords_append_blank {words : List Text} (hw : Lettered words) {b : Char}
    (hb : isBlank b = true) {rest : Text}
    (hrest : ∀ word ∈ words.tail, stripWord word (trimStart rest) = none) (u : Text) :
    stripWords words (u ++ b :: rest) = (stripWords words (u ++ [b])).map (· ++ rest) := by
  induction words generalizing u with
  | nil => simp [stripWords]
  | cons word words ih =>
    have hword := (hw word (by simp)).2
    cases words with
    | nil =>
      rw [stripWords, stripWords, stripWord_append_blank hword hb u rest,
        stripWord_append_blank hword hb u []]
      cases stripWord word u <;> simp
    | cons next words =>
      rw [stripWords, stripWords, stripWord_append_blank hword hb u rest,
        stripWord_append_blank hword hb u []]
      cases stripWord word u with
      | none => rfl
      | some v =>
        have hhead : (v ++ b :: rest).head?.any isBlank = (v ++ [b]).head?.any isBlank := by
          cases v <;> rfl
        simp only [Option.map_some, hhead]
        split
        · have hw' : Lettered (next :: words) := fun w hmem => hw w (by simp [hmem])
          by_cases hv : AllBlank v
          · -- Only blanks are left before `rest`, where no later word stands.
            have hnone : ∀ {t : Text}, stripWord next t = none →
                stripWords (next :: words) t = none := by
              intro t ht
              cases words with
              | nil => exact ht
              | cons third words => rw [stripWords, ht]
            have hlong : trimStart (v ++ b :: rest) = trimStart rest := by
              rw [trimStart_append_of_allBlank hv]
              exact List.dropWhile_cons_of_pos hb
            have hshort : trimStart (v ++ [b]) = [] := by
              rw [trimStart_append_of_allBlank hv]
              exact List.dropWhile_cons_of_pos hb
            have hnext : stripWord next [] = none := by
              cases next with
              | nil => exact absurd rfl (hw' [] (by simp)).1
              | cons letter next => rfl
            rw [hlong, hshort, hnone (hrest next (by simp)), hnone hnext]
            rfl
          · have htrim := trimStart_append_of_ne_nil fun hnil => hv (trimStart_eq_nil_iff.mp hnil)
            rw [htrim, htrim]
            exact ih hw' (fun w hmem => hrest w (List.mem_of_mem_tail hmem)) (trimStart v)
        · rfl

/-- A match of a keyword that needs a blank after it does not look
behind a blank, unless one of its later words could stand there. -/
theorem matchHere_append_blank {keyword : Keyword} (hw : Lettered keyword.words)
    {b : Char} (hb : isBlank b = true) {rest : Text}
    (hrest : ∀ word ∈ keyword.words.tail, stripWord word (trimStart rest) = none)
    (before : Option Char) (u : Text) :
    keyword.matchHere before (u ++ b :: rest) = keyword.matchHere before (u ++ [b]) := by
  rw [matchHere, matchHere, stripWords_append_blank hw hb hrest]
  split
  · rfl
  · cases hstrip : stripWords keyword.words (u ++ [b]) with
    | none => rfl
    | some after =>
      obtain ⟨s, heq, hs⟩ := stripWords_sound hstrip
      cases after with
      | nil =>
        -- The words cannot take the blank itself.
        have hbare := hs.endsBare hw.bare b (by rw [← List.append_nil s, ← heq]; simp)
        rw [hb] at hbare
        cases hbare
      | cons c after =>
        have hlen := congrArg List.length heq
        simp only [List.length_append, List.length_cons, List.length_nil] at hlen
        simp only [Option.map_some, List.cons_append, List.length_cons, List.length_append]
        split
        · rfl
        · rw [Option.some.injEq]
          simp only [List.length_nil]
          omega

end Keyword

end SelectOutline
