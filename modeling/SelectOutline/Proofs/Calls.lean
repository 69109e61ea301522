/-
SelectOutline.Proofs.Calls — which texts hold an aggregate call.

The search for a call goes from place to place and at each place through
the names, the blanks and the argument. Here a call is a text with parts
(`Call`), and it is `Seen` if its name folds to that of an aggregate
function and its argument is a star or a run of word characters. The
search finds a call exactly if the text is such a call between two others,
where the one before it does not end inside a word (`hasCall_iff`). What
stands behind a call cannot hide it, and what stands before it can do so
only by running into its name.

An identifier, as the scanner reads it, may hold dots, and a dot is no word
character. A call with a dotted argument is therefore not seen, whatever
else stands around it (`withoutGroups_call_iff`).
-/
import SelectOutline.Proofs.Grammar
import SelectOutline.Proofs.Standard

namespace SelectOutline.Aggregate

open Text Grammar

/-! ## 1. Names -/

/-- Simple case folding, as far as it leads to letters of ASCII: from the
capital letters, the long s and the Kelvin sign. -/
def caseFold (c : Char) : Char :=
  if c = 'ſ' then 's' else if c = '\u212a' then 'k' else c.toLower

/-- The names of the aggregate functions in small letters. -/
def functions : List Text :=
  ["count".toList, "avg".toList, "sum".toList, "min".toList, "max".toList]

/-- The code ranges of the characters that case folding takes to letters of
ASCII. -/
def foldedRanges : List (Nat × Nat) :=
  [(0x41, 0x5A), (0x61, 0x7A), (0x17F, 0x17F), (0x212A, 0x212A)]

theorem toLower_of_not_isUpper {c : Char} (h : ¬ c.isUpper = true) : c.toLower = c := by
  unfold Char.isUpper at h
  unfold Char.toLower
  simp only [decide_eq_true_eq] at h
  exact dif_neg h

/-- All other characters are left alone. -/
theorem fold_of_not_folded {c : Char} (h : inRanges foldedRanges c = false) :
    foldLetter c = c ∧ caseFold c = c := by
  have hlong : c ≠ 'ſ' := by rintro rfl; revert h; decide
  have hkelvin : c ≠ '\u212a' := by rintro rfl; revert h; decide
  rw [← Bool.not_eq_true, inRanges_iff] at h
  have hlower : ¬ c.isLower = true := by
    intro hlower
    exact h ⟨(0x61, 0x7A), by decide, isLower_bounds hlower⟩
  have hupper : ¬ c.isUpper = true := by
    intro hupper
    exact h ⟨(0x41, 0x5A), by decide, isUpper_bounds hupper⟩
  constructor
  · rw [foldLetter, if_neg hlong, toUpper_of_not_isLower hlower]
  · rw [caseFold, if_neg hlong, if_neg hkelvin, toLower_of_not_isUpper hupper]

/-- A character counts as a letter of a name if it folds to the small
letter. -/
theorem foldLetter_eq_iff {c letter : Char} (h : letter ∈ names.flatten) :
    foldLetter c = letter ↔ caseFold c = letter.toLower := by
  by_cases hc : inRanges foldedRanges c = true
  · obtain ⟨n, hn, rfl⟩ := exists_ofNat_of_inRanges hc
    have hfolded : ∀ n ∈ codes foldedRanges, ∀ letter ∈ names.flatten,
        (foldLetter (Char.ofNat n) = letter ↔ caseFold (Char.ofNat n) = letter.toLower) := by
      decide +kernel
    exact hfolded n hn letter h
  · obtain ⟨hfold, hcase⟩ := fold_of_not_folded (by simpa using hc)
    have hletter : ∀ letter ∈ names.flatten, inRanges foldedRanges letter = true ∧
        inRanges foldedRanges letter.toLower = true := by
      decide
    obtain ⟨hcapital, hsmall⟩ := hletter letter h
    rw [hfold, hcase]
    constructor
    · rintro rfl
      exact absurd hcapital hc
    · rintro rfl
      exact absurd hsmall hc

theorem map_foldLetter_eq_iff {s name : Text} (h : ∀ letter ∈ name, letter ∈ names.flatten) :
    s.map foldLetter = name ↔ s.map caseFold = name.map Char.toLower := by
  induction s generalizing name with
  | nil => cases name <;> simp
  | cons c s ih =>
    cases name with
    | nil => simp
    | cons letter name =>
      obtain ⟨hletter, hname⟩ := List.forall_mem_cons.mp h
      simp only [List.map_cons, List.cons.injEq, foldLetter_eq_iff hletter, ih hname]

/-- A name is known if it folds to that of a function. -/
theorem map_foldLetter_mem_names_iff {s : Text} :
    s.map foldLetter ∈ names ↔ s.map caseFold ∈ functions := by
  have hfunctions : functions = names.map (·.map Char.toLower) := by decide
  rw [hfunctions, List.mem_map]
  constructor
  · intro hmem
    refine ⟨_, hmem, ?_⟩
    exact ((map_foldLetter_eq_iff fun c hc => List.mem_flatten_of_mem hmem hc).mp rfl).symm
  · rintro ⟨name, hmem, hname⟩
    rw [(map_foldLetter_eq_iff fun c hc => List.mem_flatten_of_mem hmem hc).mpr hname.symm]
    exact hmem

/-! ## 2. Arguments -/

/-- What the search knows as an argument: a star or a run of word
characters. -/
def IsArgument (argument : Text) : Prop :=
  argument = ['*'] ∨ argument ≠ [] ∧ ∀ c ∈ argument, isWordChar c = true

/-- An argument in parentheses, with blanks around it. -/
def argumentText (before : Space) (argument : Text) (after : Space) : Text :=
  '(' :: (before.text ++ (argument ++ (after.text ++ [')'])))

theorem IsArgument.ne_nil {argument : Text} (h : IsArgument argument) : argument ≠ [] := by
  rcases h with rfl | ⟨hne, -⟩
  · exact List.cons_ne_nil _ _
  · exact hne

theorem IsArgument.not_mem {argument : Text} (h : IsArgument argument) {c : Char}
    (hstar : c ≠ '*') (hword : isWordChar c = false) : c ∉ argument := by
  intro hc
  rcases h with rfl | ⟨-, hclass⟩
  · exact hstar (List.mem_singleton.mp hc)
  · rw [hclass c hc] at hword
    cases hword

theorem IsArgument.startsBare {argument : Text} (h : IsArgument argument) :
    StartsBare argument := by
  rcases h with rfl | ⟨-, hword⟩
  · exact startsBare_cons (by decide)
  · intro c hc
    rw [Bool.eq_false_iff]
    intro hblank
    have hwordChar := hword c (List.mem_of_head? hc)
    rw [isWordChar_of_isBlank hblank] at hwordChar
    cases hwordChar

/-- What follows an argument, which is a star or the whole of a run. -/
theorem stripArgument_eq_some_iff {text rest : Text} :
    stripArgument text = some rest ↔ ∃ argument, text = argument ++ rest ∧
      (argument = ['*'] ∨ argument ≠ [] ∧ (∀ c ∈ argument, isWordChar c = true) ∧
        ∀ c ∈ rest.head?, isWordChar c = false) := by
  constructor
  · intro h
    cases text with
    | nil => cases h
    | cons c tail =>
      rw [stripArgument] at h
      split at h
      · next hstar =>
        obtain rfl := Option.some.inj h
        exact ⟨['*'], by rw [hstar]; rfl, .inl rfl⟩
      · split at h
        · next hc =>
          obtain rfl := Option.some.inj h
          refine ⟨c :: tail.takeWhile isWordChar, ?_, .inr ⟨List.cons_ne_nil _ _, ?_, ?_⟩⟩
          · rw [List.cons_append, List.takeWhile_append_dropWhile]
          · exact List.forall_mem_cons.mpr ⟨hc, fun d hd => List.mem_takeWhile_imp hd⟩
          · intro d hd
            have hstop := List.head?_dropWhile_not isWordChar tail
            rw [hd] at hstop
            simpa using hstop
        · cases h
  · rintro ⟨argument, rfl, rfl | ⟨hne, hword, hrest⟩⟩
    · rfl
    · obtain ⟨c, argument, rfl⟩ := List.exists_cons_of_ne_nil hne
      obtain ⟨hc, hword⟩ := List.forall_mem_cons.mp hword
      have hstar : c ≠ '*' := by
        rintro rfl
        revert hc
        decide +kernel
      have hdrop : rest.dropWhile isWordChar = rest := by
        cases rest with
        | nil => rfl
        | cons d rest => exact List.dropWhile_cons_of_neg (by simp [hrest d rfl])
      rw [List.cons_append, stripArgument, if_neg hstar, if_pos hc,
        List.dropWhile_append_of_pos hword, hdrop]

/-- Blanks and a closing parenthesis end a run of characters of a class. -/
theorem head?_closing {p : Char → Bool} (hblank : ∀ {c}, isBlank c = true → p c = false)
    (hclose : p ')' = false) (gap : Space) (back : Text) :
    ∀ c ∈ (gap.text ++ ')' :: back).head?, p c = false := by
  obtain ⟨gap, hgap⟩ := gap
  intro c hc
  cases gap with
  | nil =>
    obtain rfl := Option.some.inj hc
    exact hclose
  | cons b gap =>
    obtain rfl := Option.some.inj hc
    exact hblank (hgap b List.mem_cons_self)

theorem argumentHere_iff {text : Text} :
    argumentHere text = true ↔ ∃ (gap before after : Space) (argument back : Text),
      text = gap.text ++ (argumentText before argument after ++ back) ∧ IsArgument argument := by
  constructor
  · intro h
    obtain ⟨gap, hgap, htext⟩ := exists_eq_append_trimStart text
    rw [argumentHere] at h
    split at h
    swap
    · cases h
    next inner hopen =>
    split at h
    swap
    · cases h
    next rest hargument =>
    obtain ⟨argument, heq, hseen⟩ := stripArgument_eq_some_iff.mp hargument
    obtain ⟨before, hbefore, hinner⟩ := exists_eq_append_trimStart inner
    obtain ⟨after, hafter, hrest⟩ := exists_eq_append_trimStart rest
    obtain ⟨back, hclose⟩ := List.head?_eq_some_iff.mp (by simpa using h)
    refine ⟨⟨gap, hgap⟩, ⟨before, hbefore⟩, ⟨after, hafter⟩, argument, back, ?_, ?_⟩
    · rw [htext, hopen, hinner, heq, hrest, hclose]
      simp [argumentText]
    · exact hseen.imp_right fun hword => ⟨hword.1, hword.2.1⟩
  · rintro ⟨gap, before, after, argument, back, rfl, hargument⟩
    have hopen : trimStart (gap.text ++ (argumentText before argument after ++ back)) =
        '(' :: (before.text ++ (argument ++ (after.text ++ ')' :: back))) := by
      rw [trimStart_append_of_allBlank gap.blank, argumentText, List.cons_append,
        trimStart_of_startsBare (startsBare_cons (by decide))]
      simp
    have hbefore : trimStart (before.text ++ (argument ++ (after.text ++ ')' :: back))) =
        argument ++ (after.text ++ ')' :: back) := by
      rw [trimStart_append_of_allBlank before.blank,
        trimStart_of_startsBare (hargument.startsBare.append hargument.ne_nil)]
    have hstrip : stripArgument (argument ++ (after.text ++ ')' :: back)) =
        some (after.text ++ ')' :: back) := by
      refine stripArgument_eq_some_iff.mpr ⟨argument, rfl, hargument.imp_right fun hword => ?_⟩
      exact ⟨hword.1, hword.2, head?_closing isWordChar_of_isBlank (by decide +kernel) after back⟩
    have hclose : trimStart (after.text ++ ')' :: back) = ')' :: back := by
      rw [trimStart_append_of_allBlank after.blank,
        trimStart_of_startsBare (startsBare_cons (by decide))]
    rw [argumentHere, hopen]
    simp only [hbefore, hstrip, hclose]
    rfl

/-! ## 3. Calls -/

/-- A name and an argument in parentheses, with blanks between the parts. -/
structure Call where
  name : Text
  nameAfter : Space
  argumentBefore : Space
  argument : Text
  argumentAfter : Space

namespace Call

def text (call : Call) : Text :=
  call.name ++
    (call.nameAfter.text ++ argumentText call.argumentBefore call.argument call.argumentAfter)

/-- The call is one of an aggregate function, with an argument that the
search knows. -/
structure Seen (call : Call) : Prop where
  name : call.name.map caseFold ∈ functions
  argument : IsArgument call.argument

theorem text_ne_nil (call : Call) : call.text ≠ [] := by
  simp [text, argumentText]

end Call

theorem stripName_eq_some_iff {name text rest : Text} :
    stripName name text = some rest ↔ ∃ s, text = s ++ rest ∧ s.map foldLetter = name := by
  induction name generalizing text with
  | nil => simp [stripName, eq_comm]
  | cons letter name ih =>
    cases text with
    | nil => simp [stripName]
    | cons c text =>
      rw [stripName]
      split
      · next hc =>
        rw [ih]
        constructor
        · rintro ⟨s, rfl, hs⟩
          exact ⟨c :: s, rfl, by rw [List.map_cons, hc, hs]⟩
        · rintro ⟨s, heq, hs⟩
          cases s with
          | nil => cases hs
          | cons d s =>
            obtain ⟨rfl, rfl⟩ := List.cons.inj heq
            exact ⟨s, rfl, (List.cons.inj hs).2⟩
      · next hc =>
        constructor
        · intro h
          cases h
        · rintro ⟨s, heq, hs⟩
          cases s with
          | nil => cases hs
          | cons d s =>
            obtain ⟨rfl, rfl⟩ := List.cons.inj heq
            exact absurd (List.cons.inj hs).1 hc

/-- A call is recognised at a place exactly if one stands there. -/
theorem callHere_iff {text : Text} :
    callHere text = true ↔ ∃ (call : Call) (back : Text), text = call.text ++ back ∧ call.Seen := by
  rw [callHere, List.any_eq_true]
  constructor
  · rintro ⟨name, hname, h⟩
    obtain ⟨rest, hstrip, hargument⟩ := (Option.any_eq_true _ _).mp h
    obtain ⟨s, rfl, hs⟩ := stripName_eq_some_iff.mp hstrip
    obtain ⟨gap, before, after, argument, back, rfl, hknown⟩ := argumentHere_iff.mp hargument
    refine ⟨⟨s, gap, before, argument, after⟩, back, by simp [Call.text], ?_, hknown⟩
    exact map_foldLetter_mem_names_iff.mp (hs ▸ hname)
  · rintro ⟨call, back, rfl, hseen⟩
    refine ⟨call.name.map foldLetter, map_foldLetter_mem_names_iff.mpr hseen.name, ?_⟩
    refine (Option.any_eq_true _ _).mpr ⟨_, stripName_eq_some_iff.mpr ⟨call.name, ?_, rfl⟩,
      argumentHere_iff.mpr ⟨call.nameAfter, call.argumentBefore, call.argumentAfter, call.argument,
        back, rfl, hseen.argument⟩⟩
    rw [Call.text, List.append_assoc, List.append_assoc]

/-! ## 4. Calls anywhere in a text -/

/-- A text behind which no word goes on. -/
abbrev EndsOutsideWord (text : Text) : Prop :=
  ∀ c ∈ text.getLast?, isWordChar c = false

theorem endsOutsideWord_concat (s : Text) {c : Char} (h : isWordChar c = false) :
    EndsOutsideWord (s ++ [c]) := by
  intro d hd
  rw [List.getLast?_concat] at hd
  obtain rfl := Option.some.inj hd
  exact h

theorem EndsOutsideWord.append {s t : Text} (hs : EndsOutsideWord s) (ht : EndsOutsideWord t) :
    EndsOutsideWord (s ++ t) := by
  intro c hc
  rw [List.getLast?_append] at hc
  cases hlast : t.getLast? with
  | none =>
    rw [hlast] at hc
    exact hs c hc
  | some d =>
    rw [hlast] at hc
    exact ht c (hlast.trans hc)

theorem EndsOutsideWord.of_append {s t : Text} (h : EndsOutsideWord (s ++ t)) :
    EndsOutsideWord t := by
  intro c hc
  apply h c
  rw [List.getLast?_append, hc]
  rfl

theorem hasCallAfter_iff {before : Option Char} {text : Text} :
    hasCallAfter before text = true ↔ ∃ (front : Text) (call : Call) (back : Text),
      text = front ++ (call.text ++ back) ∧ call.Seen ∧
        ∀ c ∈ front.getLast?.or before, isWordChar c = false := by
  induction text generalizing before with
  | nil =>
    constructor
    · intro h
      cases h
    · rintro ⟨front, call, back, heq, -⟩
      obtain ⟨-, htail⟩ := List.append_eq_nil_iff.mp heq.symm
      exact absurd (List.append_eq_nil_iff.mp htail).1 call.text_ne_nil
  | cons d rest ih =>
    have hlast : ∀ front : Text,
        (d :: front).getLast?.or before = front.getLast?.or (some d) := by
      intro front
      rw [List.getLast?_cons]
      cases front.getLast? <;> rfl
    rw [hasCallAfter, Bool.or_eq_true, Bool.and_eq_true, callHere_iff, ih]
    constructor
    · rintro (⟨⟨call, back, heq, hseen⟩, hbefore⟩ | ⟨front, call, back, rfl, hseen, hfront⟩)
      · refine ⟨[], call, back, heq, hseen, ?_⟩
        cases before with
        | none => simp
        | some b => simpa using hbefore
      · exact ⟨d :: front, call, back, rfl, hseen, hlast front ▸ hfront⟩
    · rintro ⟨front, call, back, heq, hseen, hfront⟩
      cases front with
      | nil =>
        refine .inl ⟨⟨call, back, heq, hseen⟩, ?_⟩
        cases before with
        | none => rfl
        | some b => simpa using hfront b
      | cons c front =>
        obtain ⟨rfl, rfl⟩ := List.cons.inj heq
        exact .inr ⟨front, call, back, rfl, hseen, hlast front ▸ hfront⟩

/-- A call stands in the text, and no word runs into its name. -/
abbrev CallIn (text : Text) : Prop :=
  ∃ (front : Text) (call : Call) (back : Text),
    text = front ++ (call.text ++ back) ∧ call.Seen ∧ EndsOutsideWord front

/-- A text has a call exactly if it is one between two texts, where the one
in front does not end inside a word. -/
theorem hasCall_iff {text : Text} : hasCall text = true ↔ CallIn text := by
  simp only [hasCall, hasCallAfter_iff, Option.or_none]

instance (text : Text) : Decidable (CallIn text) :=
  decidable_of_iff (hasCall text = true) hasCall_iff

/-- The check says whether there are no groups and there is a call. -/
theorem withoutGroups_eq (text : Text) (groups : Option (List Text)) :
    withoutGroups text groups = decide (groups = none ∧ CallIn text) := by
  simp only [withoutGroups, ← hasCall_iff, Bool.decide_and, Bool.decide_eq_true]
  cases groups <;> rfl

/-- What stands behind a call does not hide it. -/
theorem hasCall_append {s : Text} (h : hasCall s = true) (t : Text) : hasCall (s ++ t) = true := by
  obtain ⟨front, call, back, rfl, hseen, hfront⟩ := hasCall_iff.mp h
  exact hasCall_iff.mpr ⟨front, call, back ++ t, by simp, hseen, hfront⟩

/-- What stands before a call does not hide it, if its last word ends. -/
theorem hasCall_behind {s t : Text} (hs : EndsOutsideWord s) (h : hasCall t = true) :
    hasCall (s ++ t) = true := by
  obtain ⟨front, call, back, rfl, hseen, hfront⟩ := hasCall_iff.mp h
  exact hasCall_iff.mpr ⟨s ++ front, call, back, by simp, hseen, hs.append hfront⟩

/-- The warning for a query without groups rests on the search alone. -/
theorem withoutGroups_none (text : Text) : withoutGroups text none = hasCall text := rfl

/-- **The search finds calls and nothing else**, wherever they stand. -/
theorem withoutGroups_iff_exists_call (text : Text) :
    (withoutGroups text none = true ↔ ∃ (front : Text) (call : Call) (back : Text),
      text = front ++ (call.text ++ back) ∧ call.Seen ∧ EndsOutsideWord front) ∧
    (withoutGroups text none = true → ∀ t, withoutGroups (text ++ t) none = true) ∧
    (withoutGroups text none = true → ∀ s, EndsOutsideWord s →
      withoutGroups (s ++ text) none = true) := by
  simp only [withoutGroups_none]
  refine ⟨hasCall_iff, hasCall_append, ?_⟩
  intro h s hs
  exact hasCall_behind hs h

/-- A call inside the parentheses of another one is found, and the other one
counts for nothing. The long s folds to `s`. -/
theorem withoutGroups_iff_exists_call_nested :
    withoutGroups "Count (ſum(x))".toList none = true ∧ EndsOutsideWord "SUMMAX(a + b), ".toList ∧
      withoutGroups ("SUMMAX(a + b), ".toList ++ "Count (ſum(x))".toList) none = true := by
  have hcall : withoutGroups "Count (ſum(x))".toList none = true := by decide +kernel
  have hends : EndsOutsideWord "SUMMAX(a + b), ".toList :=
    endsOutsideWord_concat "SUMMAX(a + b),".toList (by decide +kernel : isWordChar ' ' = false)
  obtain ⟨-, -, hbehind⟩ := withoutGroups_iff_exists_call "Count (ſum(x))".toList
  exact ⟨hcall, hends, hbehind hcall _ hends⟩

/-! ## 5. Calls do not overlap -/

/-- What a text without a character has behind it begins in front of the
first such character. -/
theorem exists_eq_append_of_not_mem_left {c : Char} {s t u v : Text} (h : s ++ t = u ++ c :: v)
    (hs : c ∉ s) : ∃ w, u = s ++ w ∧ t = w ++ c :: v := by
  rcases List.append_eq_append_iff.mp h with ⟨w, hu, ht⟩ | ⟨w, hs', hv⟩
  · exact ⟨w, hu, ht⟩
  · cases w with
    | nil => exact ⟨[], by simpa using hs'.symm, by simpa using hv.symm⟩
    | cons d w =>
      obtain ⟨rfl, -⟩ := List.cons.inj hv
      exact absurd (by simp [hs']) hs

/-- What a text without a character has in front of it ends behind the last
such character. -/
theorem exists_eq_append_of_not_mem_right {c : Char} {s t u v : Text} (h : s ++ t = u ++ c :: v)
    (ht : c ∉ t) : ∃ w, s = u ++ c :: w ∧ v = w ++ t := by
  rcases List.append_eq_append_iff.mp h with ⟨w, -, ht'⟩ | ⟨w, hs, hv⟩
  · exact absurd (by simp [ht']) ht
  · cases w with
    | nil => exact absurd (by simp [← show c :: v = t from hv]) ht
    | cons d w =>
      obtain ⟨rfl, rfl⟩ := List.cons.inj hv
      exact ⟨w, hs, rfl⟩

namespace Call

/-- The call up to its opening parenthesis. -/
def head (call : Call) : Text :=
  call.name ++ call.nameAfter.text

/-- The call between its parentheses. -/
def inner (call : Call) : Text :=
  call.argumentBefore.text ++ (call.argument ++ call.argumentAfter.text)

theorem text_eq (call : Call) : call.text = call.head ++ '(' :: (call.inner ++ [')']) := by
  simp [text, head, inner, argumentText]

/-- No parenthesis but the two stands where it could end the call or begin
it anew. -/
structure Plain (call : Call) : Prop where
  head : ')' ∉ call.head
  inner : '(' ∉ call.inner

variable {call call' : Call} {front back front' back' : Text}

/-- A call whose parenthesis opens first ends before the other one
begins. -/
theorem Plain.exists_between (h : call.Plain) (h' : call'.Plain) {m : Text}
    (hfront : front' ++ call'.head = front ++ call.head ++ '(' :: m)
    (hback : call.inner ++ ')' :: back = m ++ '(' :: (call'.inner ++ ')' :: back')) :
    ∃ middle, front' = front ++ (call.text ++ middle) ∧
      back = middle ++ (call'.text ++ back') := by
  obtain ⟨w, rfl, hclose⟩ := exists_eq_append_of_not_mem_left hback h.inner
  obtain ⟨k, rfl, rfl⟩ : ∃ k, w = ')' :: k ∧
      back = k ++ '(' :: (call'.inner ++ ')' :: back') := by
    cases w with
    | nil => cases hclose
    | cons d k =>
      obtain ⟨rfl, hk⟩ := List.cons.inj hclose
      exact ⟨k, rfl, hk⟩
  have hclosed : front' ++ call'.head =
      (front ++ call.head ++ '(' :: call.inner) ++ ')' :: k := by
    rw [hfront]
    simp
  obtain ⟨middle, rfl, rfl⟩ := exists_eq_append_of_not_mem_right hclosed h'.head
  exact ⟨middle, by simp [text_eq], by simp [text_eq]⟩

/-- Of two calls in a text one ends before the other begins, or both open
with the same parenthesis. -/
theorem Plain.apart_or_same (h : call.Plain) (h' : call'.Plain)
    (htext : front ++ (call.text ++ back) = front' ++ (call'.text ++ back')) :
    (∃ middle, front' = front ++ (call.text ++ middle) ∧ back = middle ++ (call'.text ++ back')) ∨
    (∃ middle, front = front' ++ (call'.text ++ middle) ∧ back' = middle ++ (call.text ++ back)) ∨
    call.inner ++ ')' :: back = call'.inner ++ ')' :: back' := by
  have hopen : front ++ call.head ++ '(' :: (call.inner ++ ')' :: back) =
      front' ++ call'.head ++ '(' :: (call'.inner ++ ')' :: back') := by
    simpa [text_eq] using htext
  rcases List.append_eq_append_iff.mp hopen with ⟨m, hfront, hback⟩ | ⟨m, hfront, hback⟩
  · cases m with
    | nil => exact .inr (.inr (List.cons.inj hback).2)
    | cons d m =>
      obtain ⟨rfl, htail⟩ := List.cons.inj hback
      exact .inl (h.exists_between h' hfront htail)
  · cases m with
    | nil => exact .inr (.inr (List.cons.inj hback).2.symm)
    | cons d m =>
      obtain ⟨rfl, htail⟩ := List.cons.inj hback
      exact .inr (.inl (h'.exists_between h hfront htail))

end Call

/-! ## 6. Arguments with dots -/

/-- A token of ASCII letters, digits, underscores and dots, as the scanner
reads them. -/
def IsToken (text : Text) : Prop :=
  text ≠ [] ∧ ∀ c ∈ text, c.isAlphanum = true ∨ c = '_' ∨ c = '.'

/-- The code ranges of the characters of a token. -/
def tokenRanges : List (Nat × Nat) :=
  [(0x2E, 0x2E), (0x30, 0x39), (0x41, 0x5A), (0x5F, 0x5F), (0x61, 0x7A)]

theorem IsToken.inRanges {text : Text} (h : IsToken text) {c : Char} (hc : c ∈ text) :
    inRanges tokenRanges c = true := by
  rw [inRanges_iff]
  rcases h.2 c hc with halphanum | rfl | rfl
  · rw [Char.isAlphanum, Bool.or_eq_true] at halphanum
    rcases halphanum with halpha | hdigit
    · rcases isAlpha_bounds halpha with hupper | hlower
      · exact ⟨(0x41, 0x5A), by decide, hupper⟩
      · exact ⟨(0x61, 0x7A), by decide, hlower⟩
    · exact ⟨(0x30, 0x39), by decide, isDigit_bounds hdigit⟩
  · exact ⟨(0x5F, 0x5F), by decide⟩
  · exact ⟨(0x2E, 0x2E), by decide⟩

/-- The dot is the one character of a token that is none of a word. -/
theorem IsToken.classes {text : Text} (h : IsToken text) {c : Char} (hc : c ∈ text) :
    isIdentifierChar c = true ∧ (isWordChar c = true ∨ c = '.') := by
  obtain ⟨n, hn, rfl⟩ := exists_ofNat_of_inRanges (h.inRanges hc)
  have hclasses : ∀ n ∈ codes tokenRanges, isIdentifierChar (Char.ofNat n) = true ∧
      (isWordChar (Char.ofNat n) = true ∨ Char.ofNat n = '.') := by
    decide +kernel
  exact hclasses n hn

theorem IsToken.isIdentifier {text : Text} (h : IsToken text) : IsIdentifier text :=
  ⟨h.1, fun _ hc => (h.classes hc).1⟩

theorem IsToken.isArgument {text : Text} (h : IsToken text) (hdot : '.' ∉ text) :
    IsArgument text := by
  refine .inr ⟨h.1, fun c hc => (h.classes hc).2.resolve_right ?_⟩
  rintro rfl
  exact hdot hc

theorem IsArgument.dot_not_mem {argument : Text} (h : IsArgument argument) : '.' ∉ argument :=
  h.not_mem (by decide) (by decide +kernel)

theorem IsArgument.open_not_mem {argument : Text} (h : IsArgument argument) : '(' ∉ argument :=
  h.not_mem (by decide) (by decide +kernel)

theorem IsToken.open_not_mem {text : Text} (h : IsToken text) : '(' ∉ text :=
  fun hopen => absurd (h.isIdentifier.2 _ hopen) (by decide +kernel)

/-- A name that reads as that of a function but for the case of ASCII letters
is known. -/
theorem map_caseFold_mem_functions {s : Text} (h : s.map Char.toUpper ∈ names) :
    s.map caseFold ∈ functions := by
  have hfold : s.map foldLetter = s.map Char.toUpper := by
    refine List.map_congr_left fun c hc => if_neg ?_
    rintro rfl
    have hlong : 'ſ'.toUpper ∈ names.flatten :=
      List.mem_flatten_of_mem h (List.mem_map_of_mem hc)
    revert hlong
    decide
  exact map_foldLetter_mem_names_iff.mp (hfold ▸ h)

namespace Call

variable {call call' : Call} {front back front' back' : Text}

theorem plain_of_name (hname : call.name.map caseFold ∈ functions)
    (hargument : '(' ∉ call.argument) : call.Plain where
  head := by
    rw [head, List.mem_append, not_or]
    refine ⟨fun hclose => ?_,
      fun hclose => absurd (call.nameAfter.blank _ hclose) (by decide)⟩
    have hletter : caseFold ')' ∈ functions.flatten :=
      List.mem_flatten_of_mem hname (List.mem_map_of_mem hclose)
    revert hletter
    decide
  inner := by
    rw [inner, List.mem_append, List.mem_append, not_or, not_or]
    exact ⟨fun hopen => absurd (call.argumentBefore.blank _ hopen) (by decide), hargument,
      fun hopen => absurd (call.argumentAfter.blank _ hopen) (by decide)⟩

/-- Behind one parenthesis there is no token with a dot and also an argument
that the search knows. -/
theorem dot_not_mem_of_inner_eq (htoken : IsToken call.argument)
    (hargument : IsArgument call'.argument)
    (h : call.inner ++ ')' :: back = call'.inner ++ ')' :: back') : '.' ∉ call.argument := by
  have hbare : call.argument ++ (call.argumentAfter.text ++ ')' :: back) =
      call'.argument ++ (call'.argumentAfter.text ++ ')' :: back') := by
    have htrim := congrArg trimStart h
    simp only [inner, List.append_assoc] at htrim
    rwa [trimStart_append_of_allBlank call.argumentBefore.blank,
      trimStart_append_of_allBlank call'.argumentBefore.blank,
      trimStart_of_startsBare (htoken.isIdentifier.startsBare.append htoken.1),
      trimStart_of_startsBare (hargument.startsBare.append hargument.ne_nil)] at htrim
  rcases List.append_eq_append_iff.mp hbare with ⟨m, heq, -⟩ | ⟨m, heq, htail⟩
  · intro hdot
    exact hargument.dot_not_mem (heq ▸ List.mem_append_left m hdot)
  · cases m with
    | nil =>
      rw [heq, List.append_nil]
      exact hargument.dot_not_mem
    | cons d m =>
      -- the token goes on where the other argument ends, with a blank or a parenthesis
      have hstop : isIdentifierChar d = false :=
        head?_closing isIdentifierChar_of_isBlank (by decide +kernel) call'.argumentAfter back' d
          (by rw [htail]; rfl)
      have hclass : isIdentifierChar d = true := htoken.isIdentifier.2 d (by simp [heq])
      rw [hstop] at hclass
      cases hclass

theorem endsOutsideWord_text (call : Call) : EndsOutsideWord call.text := by
  rw [text_eq, ← List.cons_append, ← List.append_assoc]
  exact endsOutsideWord_concat _ (by decide +kernel)

end Call

/-- A call with a token for an argument is found exactly if the token has no
dot, or if there is another call before or behind it: the dots of the
scanner's identifiers are unknown to the search. -/
theorem withoutGroups_call_iff {front : Text} {call : Call} {back : Text}
    (hname : call.name.map Char.toUpper ∈ names) (hfront : EndsOutsideWord front)
    (hargument : call.argument = ['*'] ∨ IsToken call.argument) :
    withoutGroups (front ++ (call.text ++ back)) none = true ↔
      '.' ∉ call.argument ∨ withoutGroups front none = true ∨ withoutGroups back none = true := by
  simp only [withoutGroups_none]
  have hfunction := map_caseFold_mem_functions hname
  constructor
  · intro h
    rcases hargument with hstar | htoken
    · exact .inl (IsArgument.dot_not_mem (.inl hstar))
    obtain ⟨front', call', back', htext, hseen, hfront'⟩ := hasCall_iff.mp h
    have hplain : call.Plain := Call.plain_of_name hfunction htoken.open_not_mem
    have hplain' : call'.Plain := Call.plain_of_name hseen.name hseen.argument.open_not_mem
    rcases hplain.apart_or_same hplain' htext with
      ⟨middle, rfl, rfl⟩ | ⟨middle, rfl, rfl⟩ | hsame
    · refine .inr (.inr (hasCall_iff.mpr ⟨middle, call', back', rfl, hseen, ?_⟩))
      rw [← List.append_assoc] at hfront'
      exact hfront'.of_append
    · exact .inr (.inl (hasCall_iff.mpr ⟨front', call', middle, rfl, hseen, hfront'⟩))
    · exact .inl (Call.dot_not_mem_of_inner_eq htoken hseen.argument hsame)
  · rintro (hdot | hbefore | hbehind)
    · have hseen : call.Seen :=
        ⟨hfunction, hargument.elim .inl fun htoken => htoken.isArgument hdot⟩
      exact hasCall_iff.mpr ⟨front, call, back, rfl, hseen, hfront⟩
    · exact hasCall_append hbefore _
    · rw [← List.append_assoc]
      exact hasCall_behind (hfront.append call.endsOutsideWord_text) hbehind

/-- A count of a column that is named with its table. -/
def dottedCount : Call :=
  ⟨"COUNT".toList, ⟨[], allBlank_nil⟩, ⟨[], allBlank_nil⟩, "o.id".toList, ⟨[], allBlank_nil⟩⟩

/-- It is not found. -/
theorem withoutGroups_call_iff_dotted :
    dottedCount.text = "COUNT(o.id)".toList ∧
      dottedCount.name.map Char.toUpper ∈ names ∧ EndsOutsideWord "SELECT ".toList ∧
      IsToken dottedCount.argument ∧
      withoutGroups ("SELECT ".toList ++ (dottedCount.text ++ " FROM t".toList)) none = false := by
  have hname : dottedCount.name.map Char.toUpper ∈ names := by decide
  have hends : EndsOutsideWord "SELECT ".toList :=
    endsOutsideWord_concat "SELECT".toList (by decide +kernel : isWordChar ' ' = false)
  have htoken : IsToken dottedCount.argument := ⟨by decide, by decide⟩
  refine ⟨by decide, hname, hends, htoken, ?_⟩
  rw [← Bool.not_eq_true, withoutGroups_call_iff hname hends (.inr htoken)]
  decide +kernel

end SelectOutline.Aggregate
