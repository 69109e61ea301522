/-
SelectOutline.Proofs.Passing — text that a search passes over.

A text is taken as a row of words, marks and literals. A search for
keywords finds none in it if no word is the first word of a keyword
(`Passable.findFrom_eq`): a keyword has to be followed by a blank, so
that its first word is the whole of a word of the text, and it holds no
quote, so that what a literal says does not matter.

`find_passable` and `find_clause` say what follows for a search that
begins in front of such a text: it finds nothing, or the keyword that
stands behind the text.
-/
import SelectOutline.Proofs.Search

namespace SelectOutline

open Text

/-! ## 1. Words -/

/-- A text in front of which a word ends: there is nothing, or a
character that is no letter. -/
abbrev Text.Stops (text : Text) : Prop :=
  ∀ c ∈ text.head?, c.isAlpha = false

/-- A text without blanks and quotes. -/
abbrev Text.Solid (text : Text) : Prop :=
  ∀ c ∈ text, isBlank c = false ∧ isQuote c = false

namespace Text

theorem stops_nil : Stops [] := by
  intro c hc
  cases hc

theorem stops_cons {c : Char} {rest : Text} (h : c.isAlpha = false) : Stops (c :: rest) := by
  intro d hd
  obtain rfl := Option.some.inj hd
  exact h

theorem isAlpha_of_isBlank {c : Char} (h : isBlank c = true) : c.isAlpha = false := by
  rw [Bool.eq_false_iff]
  intro halpha
  rw [isBlank_of_isAlpha halpha] at h
  cases h

theorem Stops.append {s t : Text} (hs : Stops s) (ht : Stops t) : Stops (s ++ t) := by
  cases s with
  | nil => exact ht
  | cons c s => exact hs

theorem AllBlank.stops {gap : Text} (h : AllBlank gap) : Stops gap := by
  intro c hc
  exact isAlpha_of_isBlank (h c (List.mem_of_head? hc))

theorem AllBlank.stops_append {gap : Text} (h : AllBlank gap) (hne : gap ≠ []) (t : Text) :
    Stops (gap ++ t) := by
  obtain ⟨b, gap, rfl⟩ := List.exists_cons_of_ne_nil hne
  exact stops_cons (isAlpha_of_isBlank (h b (by simp)))

theorem Solid.unquoted {w : Text} (h : Solid w) : Unquoted w :=
  fun c hc => (h c hc).2

/-- A word that a blank follows is all of a word without blanks that
begins at the same place. -/
theorem eq_of_append_eq {w rest letters tail : Text} {b : Char} (hw : Solid w)
    (hrest : Stops rest) (hletters : ∀ c ∈ letters, c.isAlpha = true) (hb : isBlank b = true)
    (h : w ++ rest = letters ++ b :: tail) : w = letters := by
  rcases List.append_eq_append_iff.mp h with ⟨u, hu, hrest'⟩ | ⟨u, hu, htail⟩
  · -- The letters go on behind the word.
    cases u with
    | nil => rw [hu, List.append_nil]
    | cons c u =>
      have hc : c.isAlpha = true := hletters c (by simp [hu])
      rw [hrest c (by simp [hrest'])] at hc
      cases hc
  · -- The word goes on behind the letters, where a blank stands.
    cases u with
    | nil => rw [hu, List.append_nil]
    | cons c u =>
      obtain rfl := (List.cons.inj htail).1
      rw [(hw b (by simp [hu])).1] at hb
      cases hb

end Text

namespace Keyword

/-- The first word of a keyword and the blank behind it. -/
theorem Spells.exists_first {word : Text} {words : List Text} {s after : Text}
    (h : Spells (word :: words) s) (hafter : after.head?.any isBlank = true) :
    ∃ first b tail, s ++ after = first ++ b :: tail ∧ isBlank b = true ∧
      first.map Char.toUpper = word := by
  cases h with
  | single h =>
    cases after with
    | nil => cases hafter
    | cons b tail => exact ⟨s, b, tail, rfl, hafter, h⟩
  | @cons _ next _ first gap t h hne hgap ht =>
    obtain ⟨b, gap, rfl⟩ := List.exists_cons_of_ne_nil hne
    exact ⟨first, b, gap ++ t ++ after, by simp, hgap b (by simp), h⟩

/-- A word that is not the first word of a keyword is not taken for one. -/
theorem matchHere_word {keyword : Keyword} (hk : keyword.Regular) {w : Text} (hw : Solid w)
    (hfree : ∀ word ∈ keyword.words.head?, w.map Char.toUpper ≠ word) {rest : Text}
    (hrest : Stops rest) (before : Option Char) : keyword.matchHere before (w ++ rest) = none := by
  rw [Option.eq_none_iff_forall_ne_some]
  intro length hmatch
  obtain ⟨-, s, after, heq, hs, -, hadmits⟩ := (matchHere_eq_some_iff hk.lettered.bare).mp hmatch
  have hafter : after.head?.any isBlank = true := by
    cases after with
    | nil =>
      rw [Admits, hk.mayEnd] at hadmits
      cases hadmits
    | cons b after => exact hadmits hk.blankAfter
  obtain ⟨word, words, hwords⟩ := List.exists_cons_of_ne_nil hk.words_ne_nil
  rw [hwords] at hs
  obtain ⟨first, b, tail, hfirst, hb, hupper⟩ := hs.exists_first hafter
  have hlettered := hk.lettered word (by simp [hwords])
  have hw' : w = first := eq_of_append_eq hw hrest (isAlpha_of_mem hlettered.2 hupper) hb
    (heq.trans hfirst)
  exact hfree word (by simp [hwords]) (hw' ▸ hupper)

/-- An opening keyword is not seen where another word stands. -/
theorem Opening.matchHere_word {keyword : Keyword} {word : Text} (hk : keyword.Opening word)
    {w : Text} (hw : Solid w) (hfree : w.map Char.toUpper ≠ word) {rest : Text}
    (hrest : Stops rest) (before : Option Char) : keyword.matchHere before (w ++ rest) = none := by
  rw [Option.eq_none_iff_forall_ne_some]
  intro length hmatch
  obtain ⟨s, after, heq, hupper, -, hblank⟩ := hk.matchHere_eq_some_iff.mp hmatch
  cases after with
  | nil => cases hblank
  | cons b after =>
    have hlettered := hk.lettered word (by simp [hk.words_eq])
    have hw' : w = s := eq_of_append_eq hw hrest (isAlpha_of_mem hlettered.2 hupper) hblank heq
    exact hfree (hw' ▸ hupper)

theorem matchHere_mark {keyword : Keyword} (hk : keyword.Regular) {c : Char}
    (hc : c.isAlpha = false) (before : Option Char) (rest : Text) :
    keyword.matchHere before (c :: rest) = none := by
  refine matchHere_of_initial_ne hk.lettered hk.words_ne_nil ?_ before rest
  intro hinitial
  obtain ⟨word, words, hwords⟩ := List.exists_cons_of_ne_nil hk.words_ne_nil
  obtain ⟨letter, tail, hword⟩ := List.exists_cons_of_ne_nil (hk.lettered word (by simp [hwords])).1
  rw [initial, hwords, List.head?_cons, Option.bind_some, hword, List.head?_cons] at hinitial
  have hupper := (hk.lettered word (by simp [hwords])).2 letter (by simp [hword])
  rw [isAlpha_of_toUpper (Option.some.inj hinitial).symm hupper] at hc
  cases hc

/-! ## 2. Rows of words, marks and literals -/

/-- A row of words, marks and literals, in which no word is one of
`firsts`. A word is followed by something that ends it. -/
inductive Passable (firsts : List Text) : Text → Prop
  | nil : Passable firsts []
  | mark {c : Char} {t : Text} (hquote : isQuote c = false) (hletter : c.isAlpha = false)
      (ht : Passable firsts t) : Passable firsts (c :: t)
  | literal {delimiter : Char} {body t : Text} (hdelimiter : isQuote delimiter = true)
      (hbody : delimiter ∉ body) (ht : Passable firsts t) :
      Passable firsts (delimiter :: body ++ delimiter :: t)
  | word {w t : Text} (hw : Solid w) (hfree : w.map Char.toUpper ∉ firsts) (hstops : Stops t)
      (ht : Passable firsts t) : Passable firsts (w ++ t)

/-- The first words of the keywords are among `firsts`. -/
abbrev BeginIn (keywords : List Keyword) (firsts : List Text) : Prop :=
  ∀ keyword ∈ keywords, ∀ word ∈ keyword.words.head?, word ∈ firsts

theorem Passable.blanks {firsts : List Text} {gap t : Text} (hgap : AllBlank gap)
    (ht : Passable firsts t) : Passable firsts (gap ++ t) := by
  induction gap with
  | nil => exact ht
  | cons b gap ih =>
    have hb := hgap b (by simp)
    exact .mark (isQuote_of_isBlank hb) (isAlpha_of_isBlank hb) (ih fun c hc => hgap c (by simp [hc]))

/-- A keyword in any spelling is a row of its words. -/
theorem Passable.spelled {firsts : List Text} {words : List Text} (hw : Lettered words) {s t : Text}
    (hs : Spells words s) (hfree : ∀ word ∈ words, word ∉ firsts) (hstops : Stops t)
    (ht : Passable firsts t) : Passable firsts (s ++ t) := by
  have hsolid : ∀ {word s : Text}, word ∈ words → s.map Char.toUpper = word → Solid s := by
    intro word s hmem hs c hc
    have halpha := isAlpha_of_mem (hw word hmem).2 hs c hc
    exact ⟨isBlank_of_isAlpha halpha, isQuote_of_isAlpha halpha⟩
  induction hs with
  | nil => exact ht
  | @single word s h => exact .word (hsolid (by simp) h) (h ▸ hfree word (by simp)) hstops ht
  | @cons word next words s gap u h hne hgap hu ih =>
    have hrest : Passable firsts (u ++ t) :=
      ih (fun w hmem => hw w (by simp [hmem])) (fun w hmem => hfree w (by simp [hmem]))
        (fun hmem hs => hsolid (by simp [hmem]) hs)
    rw [List.append_assoc, List.append_assoc]
    exact .word (hsolid (by simp) h) (h ▸ hfree word (by simp)) (hgap.stops_append hne _)
      (.blanks hgap hrest)

/-! ## 3. Searches -/

/-- What a literal says is never looked at. -/
theorem findFrom_literal {keywords : List Keyword} {delimiter : Char}
    (hdelimiter : isQuote delimiter = true) {body : Text} (hbody : delimiter ∉ body)
    (before : Option Char) (position : Nat) (t : Text) :
    findFrom keywords .outside before position (delimiter :: body ++ delimiter :: t) =
      findFrom keywords .outside (some delimiter) (position + (body.length + 2)) t := by
  have hsplit : delimiter :: body ++ delimiter :: t = (delimiter :: body ++ [delimiter]) ++ t := by
    simp
  have hscan := Quoting.scan_literal hdelimiter hbody []
  rw [hsplit, findFrom_append]
  · have hlast : (delimiter :: body ++ [delimiter]).getLast? = some delimiter :=
      List.getLast?_concat
    rw [hlast, show Quoting.outside.scan (delimiter :: body ++ [delimiter]) = .outside from hscan]
    simp
  · intro u c v heq hplain
    obtain ⟨hout, hquote⟩ := Quoting.plain_iff.mp hplain
    cases u with
    | nil =>
      obtain rfl := (List.cons.inj heq).1
      rw [hdelimiter] at hquote
      cases hquote
    | cons d u =>
      obtain ⟨rfl, htail⟩ : delimiter = d ∧ body ++ [delimiter] = u ++ c :: v := List.cons.inj heq
      -- Up to the closing quote the scan is inside.
      have hinit : u <+: body := by
        have hlength := congrArg List.length htail
        simp only [List.length_append, List.length_cons, List.length_nil] at hlength
        exact List.prefix_of_prefix_length_le ⟨c :: v, htail.symm⟩ (List.prefix_append _ _)
          (by omega)
      rw [Quoting.scan_cons, Quoting.step_open hdelimiter,
        Quoting.scan_inside fun hmem => hbody (hinit.subset hmem)] at hout
      cases hout

section

variable {keywords : List Keyword} (hk : ∀ keyword ∈ keywords, keyword.Regular)
  {firsts : List Text} (hfirsts : BeginIn keywords firsts)
include hk

theorem findFrom_mark {c : Char} (hc : c.isAlpha = false) (hquote : isQuote c = false)
    (before : Option Char) (position : Nat) (t : Text) :
    findFrom keywords .outside before position (c :: t) =
      findFrom keywords .outside (some c) (position + 1) t := by
  rw [findFrom_cons, Quoting.step_outside hquote]
  intro _
  rw [firstHere_eq_none_iff]
  intro keyword hmem
  exact matchHere_mark (hk keyword hmem) hc before t

theorem findFrom_blanks {gap : Text} (hgap : AllBlank gap) (before : Option Char) (position : Nat)
    (t : Text) :
    findFrom keywords .outside before position (gap ++ t) =
      findFrom keywords .outside (gap.getLast?.or before) (position + gap.length) t := by
  induction gap generalizing before position with
  | nil => rfl
  | cons b gap ih =>
    have hb := hgap b (by simp)
    rw [List.cons_append, findFrom_mark hk (isAlpha_of_isBlank hb) (isQuote_of_isBlank hb),
      ih (fun c hc => hgap c (by simp [hc])), List.getLast?_cons, List.length_cons]
    congr 1
    · cases gap.getLast? <;> rfl
    · omega

/-- A word whose first character is no first character, because no blank
stands before it, is passed over whatever it is. -/
theorem findFrom_solid {w : Text} (hw : Solid w) {before : Option Char}
    (hbefore : before.any isBlank = false) (position : Nat) (t : Text) :
    findFrom keywords .outside before position (w ++ t) =
      findFrom keywords .outside (w.getLast?.or before) (position + w.length) t := by
  rw [findFrom_append, Quoting.scan_unquoted Quoting.proper_outside hw.unquoted]
  intro u c v heq _
  rw [firstHere_eq_none_iff]
  intro keyword hmem
  have hblank : (u.getLast?.or before).any isBlank = false := by
    cases hu : u.getLast? with
    | none => exact hbefore
    | some d => exact (hw d (by rw [heq]; simp [List.mem_of_getLast? hu])).1
  rw [matchHere, (hk keyword hmem).blankBefore, hblank]
  rfl

/-- A keyword is found behind a text that the search passes over. -/
theorem find_of_passes (hinitials : (keywords.map initial).Nodup) {index : Nat} {keyword : Keyword}
    (hindex : keywords[index]? = some keyword) (pre : Text) {s gap spelled rest : Text}
    (hs : ∀ {t : Text}, Stops t →
      findFrom keywords .outside pre.getLast? pre.length (s ++ t) =
        findFrom keywords .outside (s.getLast?.or pre.getLast?) (pre.length + s.length) t)
    (hne : gap ≠ []) (hgap : AllBlank gap) (hspells : Spells keyword.words spelled)
    (hrest : rest.head?.any isBlank = true) :
    find keywords (pre ++ (s ++ (gap ++ (spelled ++ rest)))) pre.length =
      some ⟨(pre ++ s ++ gap).length, (pre ++ s ++ gap ++ spelled).length, index, keyword⟩ := by
  have hregular := hk keyword (List.mem_of_getElem? hindex)
  have hstops : Stops (gap ++ (spelled ++ rest)) := hgap.stops_append hne _
  have hlast : (gap.getLast?.or (s.getLast?.or pre.getLast?)).any isBlank = true := by
    rw [List.getLast?_eq_some_getLast hne, Option.some_or]
    exact hgap _ (List.getLast_mem hne)
  obtain ⟨c, tail, rfl, hc⟩ :=
    hspells.exists_initial hregular.lettered hregular.words_ne_nil
  have hquote : isQuote c = false := hspells.unquoted hregular.lettered c (by simp)
  have hhit := firstHere_spelled hk hinitials hindex hlast hspells hrest
    (pre.length + s.length + gap.length)
  rw [List.cons_append] at hhit hstops ⊢
  rw [find_append, hs hstops, findFrom_blanks hk hgap, findFrom_of_firstHere hquote hhit]
  simp only [List.length_append]

include hfirsts

theorem findFrom_word {w : Text} (hw : Solid w) (hfree : w.map Char.toUpper ∉ firsts)
    (before : Option Char) (position : Nat) {t : Text} (ht : Stops t) :
    findFrom keywords .outside before position (w ++ t) =
      findFrom keywords .outside (w.getLast?.or before) (position + w.length) t := by
  cases w with
  | nil => rfl
  | cons c w =>
    have hfirst : firstHere keywords before position (c :: (w ++ t)) = none := by
      rw [← List.cons_append, firstHere_eq_none_iff]
      intro keyword hmem
      refine matchHere_word (hk keyword hmem) hw ?_ ht before
      rintro word hword rfl
      exact hfree (hfirsts keyword hmem _ hword)
    have hc := hw c (by simp)
    -- Behind its first character the word has no blank before it any more.
    rw [List.cons_append, findFrom_cons (fun _ => hfirst), Quoting.step_outside hc.2,
      findFrom_solid hk (fun d hd => hw d (by simp [hd])) (by simpa using hc.1),
      List.getLast?_cons, List.length_cons]
    congr 1
    · cases w.getLast? <;> rfl
    · omega

/-- **A search passes over a row of other words.** -/
theorem Passable.findFrom_eq {s t : Text} (h : Passable firsts s) (ht : Stops t)
    (before : Option Char) (position : Nat) :
    findFrom keywords .outside before position (s ++ t) =
      findFrom keywords .outside (s.getLast?.or before) (position + s.length) t := by
  induction h generalizing before position with
  | nil => rfl
  | @mark c s hquote hletter _ ih =>
    rw [List.cons_append, findFrom_mark hk hletter hquote, ih, List.getLast?_cons,
      List.length_cons]
    congr 1
    · cases s.getLast? <;> rfl
    · omega
  | @literal delimiter body s hdelimiter hbody _ ih =>
    have hlast : (delimiter :: body ++ delimiter :: s).getLast? = s.getLast?.or (some delimiter) := by
      rw [List.getLast?_append, List.getLast?_cons]
      cases s.getLast? <;> rfl
    have hlength : position + (delimiter :: body ++ delimiter :: s).length =
        position + (body.length + 2) + s.length := by
      simp only [List.length_append, List.length_cons]
      omega
    have hassoc : delimiter :: body ++ delimiter :: s ++ t =
        delimiter :: body ++ delimiter :: (s ++ t) := by simp
    rw [hassoc, findFrom_literal hdelimiter hbody, ih, hlast, hlength, Option.or_assoc,
      Option.some_or]
  | @word w s hw hfree hstops _ ih =>
    rw [List.append_assoc, findFrom_word hk hfirsts hw hfree before position (hstops.append ht), ih,
      List.getLast?_append, List.length_append, Option.or_assoc, Nat.add_assoc]

/-- A row of other words holds no keyword. -/
theorem find_passable (pre : Text) {s : Text} (hs : Passable firsts s) :
    find keywords (pre ++ s) pre.length = none := by
  rw [find_append, ← List.append_nil s, hs.findFrom_eq hk hfirsts stops_nil]
  rfl

/-- The keyword behind a row of other words is found. -/
theorem find_clause (hinitials : (keywords.map initial).Nodup) {index : Nat} {keyword : Keyword}
    (hindex : keywords[index]? = some keyword) (pre : Text) {s gap spelled rest : Text}
    (hs : Passable firsts s) (hne : gap ≠ []) (hgap : AllBlank gap)
    (hspells : Spells keyword.words spelled) (hrest : rest.head?.any isBlank = true) :
    find keywords (pre ++ (s ++ (gap ++ (spelled ++ rest)))) pre.length =
      some ⟨(pre ++ s ++ gap).length, (pre ++ s ++ gap ++ spelled).length, index, keyword⟩ :=
  find_of_passes hk hinitials hindex pre (fun ht => hs.findFrom_eq hk hfirsts ht _ _) hne hgap hspells
    hrest

end

end Keyword

end SelectOutline
