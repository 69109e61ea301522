/-
SelectOutline.Proofs.Standard — texts in standard form.

The standard form of a text has capital ASCII letters only and a space
for every blank. A keyword may be written in either case and with any
blanks in it, so a search finds the same in a text and in its standard
form; and no character that has another meaning for a reader, such as a
quote, a comma or a digit, is changed or comes in.

Only the ranges of `movedRanges` are changed at all, which makes a fact
about all characters a fact about these few (`standardChar_invariant`).
The lemmas of this module say of one function after the other that it
commutes with `standard`.
-/
import Mathlib.Data.List.Find
import SelectOutline.Aggregate
import SelectOutline.Comparison
import SelectOutline.Condition
import SelectOutline.Proofs.Reading
import SelectOutline.Proofs.Search

namespace SelectOutline

open Text

namespace Text

/-! ## 1. Characters -/

/-- A capital letter for a letter of ASCII, a space for a blank. -/
def standardChar (c : Char) : Char :=
  if isBlank c then ' ' else c.toUpper

/-- The standard form of a text. -/
def standard (text : Text) : Text :=
  text.map standardChar

/-- The code range of the small letters of ASCII. -/
def smallLetters : List (Nat × Nat) :=
  [(0x61, 0x7A)]

/-- The code ranges of the characters with another standard form. -/
def movedRanges : List (Nat × Nat) :=
  smallLetters ++ blankRanges

theorem toUpper_of_not_moved {c : Char} (h : inRanges movedRanges c = false) :
    c.toUpper = c := by
  apply toUpper_of_not_isLower
  intro hlower
  have hmoved : inRanges movedRanges c = true :=
    inRanges_iff.mpr ⟨(0x61, 0x7A), List.mem_cons_self, isLower_bounds hlower⟩
  rw [h] at hmoved
  cases hmoved

theorem standardChar_of_not_moved {c : Char} (h : inRanges movedRanges c = false) :
    standardChar c = c := by
  have hblank : isBlank c = false := by
    rw [movedRanges, inRanges, List.any_append, Bool.or_eq_false_iff] at h
    exact h.2
  rw [standardChar, hblank, if_neg Bool.noConfusion, toUpper_of_not_moved h]

/-- The characters with another standard form, one by one. -/
theorem forall_moved {P : Char → Prop}
    (hmoved : ∀ n ∈ codes movedRanges, P (Char.ofNat n))
    (hother : ∀ c, inRanges movedRanges c = false → P c) (c : Char) : P c := by
  by_cases h : inRanges movedRanges c = true
  · obtain ⟨n, hn, rfl⟩ := exists_ofNat_of_inRanges h
    exact hmoved n hn
  · exact hother c (by simpa using h)

/-- What the standard form does not change of the characters it changes,
it does not change of any. -/
theorem standardChar_invariant {α : Type} {f : Char → α}
    (h : ∀ n ∈ codes movedRanges, f (standardChar (Char.ofNat n)) = f (Char.ofNat n)) (c : Char) :
    f (standardChar c) = f c :=
  forall_moved (P := fun c => f (standardChar c) = f c) h
    (fun c hc => by rw [standardChar_of_not_moved hc]) c

@[simp] theorem isBlank_standardChar (c : Char) : isBlank (standardChar c) = isBlank c :=
  standardChar_invariant (by decide) c

@[simp] theorem isQuote_standardChar (c : Char) : isQuote (standardChar c) = isQuote c :=
  standardChar_invariant (by decide) c

@[simp] theorem isDigit_standardChar (c : Char) : isDigit (standardChar c) = isDigit c :=
  standardChar_invariant (by decide) c

/-- Of a character that is no blank only the letters are left to look
at. -/
theorem standardChar_bare {α : Type} {f : Char → α}
    (hletter : ∀ n ∈ codes smallLetters, f (standardChar (Char.ofNat n)) = f (Char.ofNat n))
    {c : Char} (hc : isBlank c = false) : f (standardChar c) = f c := by
  by_cases hmoved : inRanges movedRanges c = true
  · rw [movedRanges, inRanges, List.any_append, Bool.or_eq_true] at hmoved
    obtain hsmall | hblank := hmoved
    · obtain ⟨n, hn, rfl⟩ := exists_ofNat_of_inRanges hsmall
      exact hletter n hn
    · rw [← inRanges, ← isBlank, hc] at hblank
      cases hblank
  · rw [standardChar_of_not_moved (by simpa using hmoved)]

/-- The same for a class that has no blanks. -/
theorem standardChar_class {inClass : Char → Bool}
    (hblank : ∀ c, isBlank c = true → inClass c = false)
    (hletter : ∀ n ∈ codes smallLetters,
      inClass (standardChar (Char.ofNat n)) = inClass (Char.ofNat n)) (c : Char) :
    inClass (standardChar c) = inClass c := by
  by_cases hc : isBlank c = true
  · rw [hblank c hc, hblank _ (by rw [isBlank_standardChar, hc])]
  · exact standardChar_bare hletter (by simpa using hc)

@[simp] theorem isIdentifierChar_standardChar (c : Char) :
    isIdentifierChar (standardChar c) = isIdentifierChar c :=
  standardChar_class (fun _ => isIdentifierChar_of_isBlank) (by decide) c

theorem isWordChar_of_isBlank {c : Char} (h : isBlank c = true) : isWordChar c = false := by
  have hidentifier := isIdentifierChar_of_isBlank h
  simp only [isIdentifierChar, isAlphanumeric, Bool.or_eq_false_iff] at hidentifier
  obtain ⟨⟨⟨⟨halphabetic, hdigit⟩, -⟩, -⟩, -⟩ := hidentifier
  have hmark : isMark c = false := inRanges_eq_false_of_apart (by decide +kernel) h
  have hconnector : inRanges connectorRanges c = false := inRanges_eq_false_of_apart (by decide) h
  have hjoin : inRanges joinControlRanges c = false := inRanges_eq_false_of_apart (by decide) h
  rw [isWordChar, halphabetic, hdigit, hmark, hconnector, hjoin]
  rfl

@[simp] theorem isWordChar_standardChar (c : Char) : isWordChar (standardChar c) = isWordChar c :=
  standardChar_class (fun _ => isWordChar_of_isBlank) (by decide) c

/-- A character that is no blank and no letter of ASCII. It is its own
standard form and that of no other character. -/
abbrev Inert (d : Char) : Prop :=
  isBlank d = false ∧ d.isLower = false ∧ d.isUpper = false

theorem not_inert_of_moved :
    ∀ n ∈ codes movedRanges, ¬ Inert (Char.ofNat n) ∧ ¬ Inert (standardChar (Char.ofNat n)) := by
  decide

theorem Inert.eq_iff {d : Char} (h : Inert d) {c : Char} : standardChar c = d ↔ c = d := by
  refine forall_moved (P := fun c => standardChar c = d ↔ c = d) (fun n hn => ?_)
    (fun c hc => by rw [standardChar_of_not_moved hc]) c
  obtain ⟨hmoved, hstandard⟩ := not_inert_of_moved n hn
  constructor
  · rintro rfl
    exact absurd h hstandard
  · rintro rfl
    exact absurd h hmoved

theorem Inert.beq_eq {d : Char} (h : Inert d) (c : Char) : (standardChar c == d) = (c == d) := by
  rw [Bool.eq_iff_iff, beq_iff_eq, beq_iff_eq, h.eq_iff]

theorem inert_of_isQuote {d : Char} (h : isQuote d = true) : Inert d := by
  rw [isQuote, Bool.or_eq_true, beq_iff_eq, beq_iff_eq] at h
  rcases h with rfl | rfl
  · decide
  · decide

/-- A function that takes the same capital letters from a character and
from its standard form. -/
theorem eq_iff_of_isUpper {f : Char → Char}
    (hf : ∀ n ∈ codes movedRanges,
      (if (f (standardChar (Char.ofNat n))).isUpper then some (f (standardChar (Char.ofNat n)))
        else none) =
      if (f (Char.ofNat n)).isUpper then some (f (Char.ofNat n)) else none)
    {c letter : Char} (h : letter.isUpper = true) : f (standardChar c) = letter ↔ f c = letter := by
  have hletter := standardChar_invariant
    (f := fun c => if (f c).isUpper then some (f c) else none) hf c
  constructor
  · rintro rfl
    rw [if_pos h] at hletter
    split at hletter
    · exact (Option.some.inj hletter).symm
    · cases hletter
  · rintro rfl
    rw [if_pos h] at hletter
    split at hletter
    · exact Option.some.inj hletter
    · cases hletter

theorem toUpper_standardChar_eq_iff {c letter : Char} (h : letter.isUpper = true) :
    (standardChar c).toUpper = letter ↔ c.toUpper = letter :=
  eq_iff_of_isUpper (by decide) h

/-! ## 2. Texts -/

@[simp] theorem standard_nil : standard [] = [] := rfl

@[simp] theorem standard_cons (c : Char) (text : Text) :
    standard (c :: text) = standardChar c :: standard text := rfl

@[simp] theorem length_standard (text : Text) : (standard text).length = text.length :=
  List.length_map _

@[simp] theorem standard_append (s t : Text) : standard (s ++ t) = standard s ++ standard t :=
  List.map_append

@[simp] theorem isEmpty_standard (text : Text) : (standard text).isEmpty = text.isEmpty := by
  cases text <;> rfl

theorem head?_standard (text : Text) : (standard text).head? = text.head?.map standardChar :=
  List.head?_map

theorem getLast?_standard (text : Text) :
    (standard text).getLast? = text.getLast?.map standardChar :=
  List.getLast?_map

theorem standard_take (text : Text) (n : Nat) : (standard text).take n = standard (text.take n) :=
  List.map_take.symm

theorem standard_drop (text : Text) (n : Nat) : (standard text).drop n = standard (text.drop n) :=
  List.map_drop.symm

theorem standard_slice (text : Text) (start stop : Nat) :
    slice (standard text) start stop = standard (slice text start stop) := by
  rw [slice, slice, standard_take, standard_drop]

theorem charBefore_standard (text : Text) (position : Nat) :
    charBefore (standard text) position = (charBefore text position).map standardChar := by
  cases position with
  | zero => rfl
  | succ position => exact List.getElem?_map

theorem standard_takeWhile {inClass : Char → Bool}
    (h : ∀ c, inClass (standardChar c) = inClass c) (text : Text) :
    (standard text).takeWhile inClass = standard (text.takeWhile inClass) := by
  rw [standard, List.takeWhile_map, standard, show inClass ∘ standardChar = inClass from funext h]

theorem standard_dropWhile {inClass : Char → Bool}
    (h : ∀ c, inClass (standardChar c) = inClass c) (text : Text) :
    (standard text).dropWhile inClass = standard (text.dropWhile inClass) := by
  rw [standard, List.dropWhile_map, standard, show inClass ∘ standardChar = inClass from funext h]

theorem trimStart_standard (text : Text) : trimStart (standard text) = standard (trimStart text) :=
  standard_dropWhile isBlank_standardChar text

theorem trimEnd_standard (text : Text) : trimEnd (standard text) = standard (trimEnd text) := by
  have hreverse : ∀ t : Text, (standard t).reverse = standard t.reverse :=
    fun t => List.map_reverse.symm
  rw [trimEnd, hreverse, standard_dropWhile isBlank_standardChar, hreverse, trimEnd]

theorem trim_standard (text : Text) : trim (standard text) = standard (trim text) := by
  rw [trim, trimStart_standard, trimEnd_standard, trim]

theorem cut_standard (text : Text) (start stop : Nat) :
    cut (standard text) start stop = standard (cut text start stop) := by
  have hspace : standardChar ' ' = ' ' := by decide
  simp only [cut, standard_take, standard_drop, trimEnd_standard, trimStart_standard,
    isEmpty_standard]
  split
  · rw [standard_append]
  · rw [standard_append, standard_cons, hspace]

theorem any_isBlank_standard (c : Option Char) :
    (c.map standardChar).any isBlank = c.any isBlank := by
  cases c <;> simp

theorem words_standard (text : Text) : words (standard text) = (words text).map standard := by
  induction text with
  | nil => rfl
  | cons c rest ih =>
    have hhead : (standard rest).head?.all isBlank = rest.head?.all isBlank := by
      cases rest <;> simp
    rw [standard_cons, words, words, isBlank_standardChar, hhead, ih]
    split
    · rfl
    · split
      · rfl
      · cases words rest <;> rfl

/-! ## 3. Literals and lists -/

theorem Quoting.step_standardChar {state : Quoting} (h : state.Proper) (c : Char) :
    state.step (standardChar c) = state.step c := by
  cases state with
  | outside =>
    rw [step, step, isQuote_standardChar]
    split
    · next hc => rw [(inert_of_isQuote hc).eq_iff.mpr rfl]
    · rfl
  | inside delimiter => simp only [step, (inert_of_isQuote h).eq_iff]

theorem Quoting.plain_standardChar (state : Quoting) (c : Char) :
    state.plain (standardChar c) = state.plain c := by
  rw [plain, plain, isQuote_standardChar]

theorem Nesting.step_standardChar {state : Nesting} (h : state.quoting.Proper) (c : Char) :
    state.step (standardChar c) = state.step c := by
  have hopen : Inert '(' := by decide
  have hclose : Inert ')' := by decide
  simp only [step, Quoting.step_standardChar h, Quoting.plain_standardChar, hopen.eq_iff,
    hclose.eq_iff]

theorem Nesting.separates_standardChar (state : Nesting) (c : Char) :
    state.separates (standardChar c) = state.separates c := by
  have hcomma : Inert ',' := by decide
  rw [separates, separates, hcomma.beq_eq]

theorem segments_standard {state : Nesting} (h : state.quoting.Proper) (text : Text) :
    segments state (standard text) = (segments state text).map standard := by
  induction text generalizing state with
  | nil => rfl
  | cons c rest ih =>
    rw [standard_cons, segments, segments, Nesting.separates_standardChar,
      Nesting.step_standardChar h]
    split
    · rw [ih h]
      rfl
    · rw [ih (Quoting.step_proper h c)]
      cases segments (state.step c) rest <;> rfl

theorem entries_standard (text : Text) : entries (standard text) = (entries text).map standard := by
  rw [entries, segments_standard Quoting.proper_outside, entries, List.map_map, List.map_map]
  exact List.map_congr_left fun segment _ => trim_standard segment

end Text

/-! ## 4. Keywords -/

namespace Keyword

theorem stripWord_standard {word : Text} (hword : ∀ c ∈ word, c.isUpper = true) (text : Text) :
    stripWord word (standard text) = (stripWord word text).map standard := by
  induction word generalizing text with
  | nil => rfl
  | cons letter word ih =>
    cases text with
    | nil => rfl
    | cons c text =>
      rw [standard_cons, stripWord, stripWord,
        if_congr (toUpper_standardChar_eq_iff (hword letter (by simp))) rfl rfl]
      split
      · exact ih (fun d hd => hword d (by simp [hd])) text
      · rfl

theorem stripWords_standard {words : List Text} (hw : Lettered words) (text : Text) :
    stripWords words (standard text) = (stripWords words text).map standard := by
  induction words generalizing text with
  | nil => rfl
  | cons word words ih =>
    have hword := (hw word (by simp)).2
    cases words with
    | nil => exact stripWord_standard hword text
    | cons next words =>
      rw [stripWords, stripWords, stripWord_standard hword]
      cases stripWord word text with
      | none => rfl
      | some rest =>
        simp only [Option.map_some, head?_standard, any_isBlank_standard, trimStart_standard]
        split
        · exact ih (fun w hmem => hw w (by simp [hmem])) (trimStart rest)
        · rfl

/-- A keyword takes the same number of characters. -/
theorem matchHere_standard {keyword : Keyword} (hw : Lettered keyword.words)
    (before : Option Char) (text : Text) :
    keyword.matchHere (before.map standardChar) (standard text) =
      keyword.matchHere before text := by
  rw [matchHere, matchHere, any_isBlank_standard, stripWords_standard hw]
  split
  · rfl
  · cases stripWords keyword.words text with
    | none => rfl
    | some rest => cases rest <;> simp

variable {keywords : List Keyword}

theorem findFrom_standard (hk : ∀ keyword ∈ keywords, keyword.Regular) {quoting : Quoting}
    (hquoting : quoting.Proper) (before : Option Char) (position : Nat) (text : Text) :
    findFrom keywords quoting (before.map standardChar) position (standard text) =
      findFrom keywords quoting before position text := by
  induction text generalizing quoting before position with
  | nil => rfl
  | cons c rest ih =>
    have hfirst := firstHere_congr
      (fun keyword hmem => matchHere_standard (hk keyword hmem).lettered before (c :: rest)) position
    rw [standard_cons] at hfirst ⊢
    rw [findFrom, findFrom, Quoting.plain_standardChar, hfirst,
      Quoting.step_standardChar hquoting]
    split
    · rfl
    · exact ih (Quoting.step_proper hquoting c) (some c) (position + 1)

/-- A search finds the same. -/
theorem find_standard (hk : ∀ keyword ∈ keywords, keyword.Regular) (text : Text) (start : Nat) :
    find keywords (standard text) start = find keywords text start := by
  rw [find, find, charBefore_standard, standard_drop,
    findFrom_standard hk Quoting.proper_outside]

theorem findAll_standard (hk : ∀ keyword ∈ keywords, keyword.Regular) (text : Text) (start : Nat) :
    findAll keywords (standard text) start = findAll keywords text start :=
  findAll_congr (P := fun _ => True) hk (fun start _ => find_standard hk text start)
    (fun _ _ _ _ => trivial) trivial

end Keyword

/-! ## 5. Cursors -/

namespace Cursor

/-- The same place in the standard form of the text. -/
def standard (cursor : Cursor) : Cursor :=
  { cursor with text := Text.standard cursor.text }

theorem rest_standard (cursor : Cursor) : cursor.standard.rest = Text.standard cursor.rest :=
  standard_drop cursor.text cursor.position

theorem skipBlanks_standard (cursor : Cursor) :
    cursor.standard.skipBlanks = cursor.skipBlanks.standard := by
  rw [skipBlanks, rest_standard, standard_takeWhile isBlank_standardChar, length_standard]
  rfl

theorem current_standard (cursor : Cursor) :
    cursor.standard.current = standardChar cursor.current := by
  have hnul : standardChar '\x00' = '\x00' := by decide
  change (cursor.text.map standardChar).getD cursor.position '\x00' =
    standardChar (cursor.text.getD cursor.position '\x00')
  rw [List.getD_eq_getElem?_getD, List.getD_eq_getElem?_getD, List.getElem?_map]
  cases cursor.text[cursor.position]? with
  | none => exact hnul.symm
  | some c => rfl

theorem next_standard (cursor : Cursor) : cursor.standard.next = cursor.next.standard := by
  have hend : cursor.standard.atEnd = cursor.atEnd := by
    rw [atEnd, atEnd, standard, length_standard]
  rw [next, next, hend]
  split
  · rfl
  · rfl

theorem readRun_standard {inClass : Char → Bool} (h : ∀ c, inClass (standardChar c) = inClass c)
    (cursor : Cursor) :
    cursor.standard.readRun inClass =
      (cursor.readRun inClass).map (Prod.map Text.standard standard) := by
  rw [readRun, readRun, rest_standard, standard_takeWhile h]
  cases cursor.rest.takeWhile inClass with
  | nil => rfl
  | cons c run =>
    simp only [standard_cons, Option.map_some, Prod.map, List.length_cons, length_standard]
    rfl

end Cursor

/-! ## 6. Joins -/

/-- The identifiers in standard form. -/
def JoinKeys.standard (keys : JoinKeys) : JoinKeys where
  left := Text.standard keys.left
  right := Text.standard keys.right

/-- The join with its names in standard form. -/
def Join.standard (join : Join) : Join :=
  { join with table := Text.standard join.table, keys := join.keys.standard }

/-- The same span of the standard form of the text. -/
def JoinSpan.standard (span : JoinSpan) : JoinSpan :=
  { span with join := span.join.standard }

theorem JoinKeys.read_standard (cursor : Cursor) :
    JoinKeys.read cursor.standard =
      (JoinKeys.read cursor).map (Prod.map JoinKeys.standard Cursor.standard) := by
  have hequals : Inert '=' := by decide
  rw [read, read, Cursor.skipBlanks_standard, Cursor.readIdentifier,
    Cursor.readRun_standard isIdentifierChar_standardChar, ← Cursor.readIdentifier]
  cases cursor.skipBlanks.readIdentifier with
  | none => rfl
  | some left =>
    obtain ⟨left, afterLeft⟩ := left
    simp only [Option.map_some, Prod.map, Option.bind_eq_bind, Option.bind_some,
      Cursor.skipBlanks_standard, Cursor.current_standard, hequals.eq_iff]
    split
    · rw [Cursor.next_standard, Cursor.skipBlanks_standard, Cursor.readIdentifier,
        Cursor.readRun_standard isIdentifierChar_standardChar, ← Cursor.readIdentifier]
      cases afterLeft.skipBlanks.next.skipBlanks.readIdentifier with
      | none => rfl
      | some right => rfl
    · rfl

namespace Join

theorem completeFrom_standard (text : Text) (keyword : Hit) (hits : List Hit) :
    (completeFrom (Text.standard text) keyword hits).value =
      (completeFrom text keyword hits).value.map JoinSpan.standard := by
  induction hits with
  | nil => rfl
  | cons hit hits ih =>
    have hread : JoinKeys.read ⟨Text.standard text, hit.stop⟩ =
        (JoinKeys.read ⟨text, hit.stop⟩).map (Prod.map JoinKeys.standard Cursor.standard) :=
      JoinKeys.read_standard ⟨text, hit.stop⟩
    simp only [completeFrom, Traced.value_bind, hread, standard_slice, trim_standard,
      isEmpty_standard]
    cases JoinKeys.read ⟨text, hit.stop⟩ with
    | none => exact ih
    | some read =>
      obtain ⟨keys, after⟩ := read
      simp only [Option.map_some, Prod.map]
      split
      · exact ih
      · rfl

theorem locateFrom_standard (text : Text) (hits : List Hit) :
    (locateFrom (Text.standard text) hits).value =
      (locateFrom text hits).value.map JoinSpan.standard := by
  induction hits with
  | nil => rfl
  | cons hit hits ih =>
    have hcomplete : (complete (Text.standard text) hit).value =
        (complete text hit).value.map JoinSpan.standard := by
      rw [complete, Keyword.findAll_standard regular_on.single, completeFrom_standard, complete]
    simp only [locateFrom, Traced.value_bind, hcomplete]
    cases (complete text hit).value with
    | none => exact ih
    | some span => rfl

/-- The same join is found. -/
theorem find_standard (text : Text) :
    find (Text.standard text) = (find text).map JoinSpan.standard := by
  rw [find, locate, Keyword.findAll_standard regular_joins, locateFrom_standard, find, locate]

end Join

/-! ## 7. Conditions -/

namespace Comparison

theorem isPrefixOf_standard {symbol : Text} (h : ∀ d ∈ symbol, Inert d) (text : Text) :
    symbol.isPrefixOf (standard text) = symbol.isPrefixOf text := by
  induction symbol generalizing text with
  | nil => rfl
  | cons d symbol ih =>
    cases text with
    | nil => rfl
    | cons c text =>
      have hd : (d == standardChar c) = (d == c) := by
        rw [BEq.comm, (h d (by simp)).beq_eq, BEq.comm]
      rw [standard_cons, List.isPrefixOf_cons_cons, List.isPrefixOf_cons_cons, hd,
        ih fun e he => h e (by simp [he])]

theorem inert_symbols : ∀ entry ∈ symbols, ∀ d ∈ entry.1, Inert d := by
  decide

theorem findFrom_standard {quoting : Quoting} (h : quoting.Proper) (position : Nat) (text : Text) :
    findFrom quoting position (standard text) = findFrom quoting position text := by
  induction text generalizing quoting position with
  | nil => rfl
  | cons c rest ih =>
    have hsymbols : symbols.find? (·.1.isPrefixOf (standardChar c :: standard rest)) =
        symbols.find? (·.1.isPrefixOf (c :: rest)) :=
      List.find?_congr fun entry hmem => isPrefixOf_standard (inert_symbols entry hmem) (c :: rest)
    rw [standard_cons, findFrom, findFrom, Quoting.plain_standardChar, hsymbols,
      Quoting.step_standardChar h, ih (Quoting.step_proper h c)]

theorem find_standard (text : Text) : find (standard text) = find text :=
  findFrom_standard Quoting.proper_outside 0 text

end Comparison

theorem Condition.unquote_standard (pattern : Text) :
    unquote (standard pattern) = standard (unquote pattern) := by
  have hquote : Inert '\'' := inert_of_isQuote rfl
  cases pattern with
  | nil => rfl
  | cons c rest =>
    have hlast : (standard rest).getLast? = some '\'' ↔ rest.getLast? = some '\'' := by
      rw [getLast?_standard]
      cases rest.getLast? <;> simp [hquote.eq_iff]
    by_cases hc : c = '\''
    · subst hc
      have hself : standardChar '\'' = '\'' := hquote.eq_iff.mpr rfl
      rw [standard_cons, hself]
      simp only [unquote, hlast]
      split
      · exact List.map_dropLast.symm
      · rw [standard_cons, hself]
    · have hplain : ∀ {d : Char} {t : Text}, d ≠ '\'' → unquote (d :: t) = d :: t := by
        intro d t hd
        rw [unquote]
        intro rest heq
        exact hd (List.cons.inj heq).1
      rw [standard_cons, hplain hc, hplain (hquote.eq_iff.not.mpr hc), standard_cons]

/-! ## 8. Aggregate calls -/

namespace Aggregate

theorem foldLetter_standardChar_eq_iff {c letter : Char} (h : letter.isUpper = true) :
    foldLetter (standardChar c) = letter ↔ foldLetter c = letter :=
  eq_iff_of_isUpper (by decide) h

theorem stripName_standard {name : Text} (hname : ∀ c ∈ name, c.isUpper = true) (text : Text) :
    stripName name (standard text) = (stripName name text).map standard := by
  induction name generalizing text with
  | nil => rfl
  | cons letter name ih =>
    cases text with
    | nil => rfl
    | cons c text =>
      rw [standard_cons, stripName, stripName,
        if_congr (foldLetter_standardChar_eq_iff (hname letter (by simp))) rfl rfl]
      split
      · exact ih (fun d hd => hname d (by simp [hd])) text
      · rfl

theorem stripArgument_standard (text : Text) :
    stripArgument (standard text) = (stripArgument text).map standard := by
  have hstar : Inert '*' := by decide
  cases text with
  | nil => rfl
  | cons c rest =>
    simp only [standard_cons, stripArgument, hstar.eq_iff, isWordChar_standardChar,
      standard_dropWhile isWordChar_standardChar]
    split
    · rfl
    · split
      · rfl
      · rfl

theorem argumentHere_standard (text : Text) : argumentHere (standard text) = argumentHere text := by
  have hopen : Inert '(' := by decide
  have hclose : Inert ')' := by decide
  have hhead : ∀ t : Text, ((standard t).head? == some ')') = (t.head? == some ')') := by
    intro t
    cases t with
    | nil => rfl
    | cons c t => exact hclose.beq_eq c
  rw [argumentHere, argumentHere, trimStart_standard]
  cases trimStart text with
  | nil => rfl
  | cons c rest =>
    by_cases hc : c = '('
    · subst hc
      rw [standard_cons, hopen.eq_iff.mpr rfl]
      simp only [trimStart_standard, stripArgument_standard]
      cases stripArgument (trimStart rest) with
      | none => rfl
      | some after => simp only [Option.map_some, trimStart_standard, hhead]
    · have hne : standardChar c ≠ '(' := hopen.eq_iff.not.mpr hc
      rw [standard_cons]
      split
      · next heq => exact absurd (List.cons.inj heq).1 hne
      · split
        · next heq => exact absurd (List.cons.inj heq).1 hc
        · rfl

theorem callHere_standard (text : Text) : callHere (standard text) = callHere text := by
  have hnames : ∀ name ∈ names, ∀ c ∈ name, c.isUpper = true := by decide
  rw [Bool.eq_iff_iff, callHere, callHere, List.any_eq_true, List.any_eq_true]
  refine exists_congr fun name => and_congr_right fun hmem => ?_
  rw [stripName_standard (hnames name hmem)]
  cases stripName name text with
  | none => rfl
  | some rest => simp [argumentHere_standard]

theorem hasCallAfter_standard (before : Option Char) (text : Text) :
    hasCallAfter (before.map standardChar) (standard text) = hasCallAfter before text := by
  induction text generalizing before with
  | nil => rfl
  | cons c rest ih =>
    have hcall := callHere_standard (c :: rest)
    have hbefore : (before.map standardChar).any isWordChar = before.any isWordChar := by
      cases before <;> simp
    rw [standard_cons] at hcall ⊢
    rw [hasCallAfter, hasCallAfter, hcall, hbefore]
    exact congrArg _ (ih (some c))

theorem hasCall_standard (text : Text) : hasCall (standard text) = hasCall text :=
  hasCallAfter_standard none text

end Aggregate

end SelectOutline
