/-
SelectOutline.Proofs.Likeness — texts that differ in their literals only.

`Alike` compares two texts along one scan: the state is the same at
every place, and so is every character that stands outside literals.
What is inside a literal may be anything but its delimiter. Two closed
texts that are alike have the same shape (`SameShape`).

Everything that reads a text outside its literals reads the same from
two texts of the same shape: trimming, cutting and listing keep the
shape, and searches give the same hits.
-/
import Mathlib.Data.List.Forall2
import SelectOutline.Comparison
import SelectOutline.Proofs.Reading
import SelectOutline.Proofs.Search

namespace SelectOutline

open Text

namespace Text

/-! ## 1. Texts that are alike -/

/-- Two texts that a scan from the given state finds in the same states
and, outside literals, with the same characters. -/
inductive Alike : Quoting → Text → Text → Prop
  | nil (quoting : Quoting) : Alike quoting [] []
  | cons {quoting : Quoting} {c c' : Char} {s s' : Text} (hc : quoting = .outside → c = c')
      (hstep : quoting.step c = quoting.step c') (h : Alike (quoting.step c) s s') :
      Alike quoting (c :: s) (c' :: s')

/-- Two texts with literals of the same kinds at the same places, and
with the same characters everywhere else. -/
structure SameShape (s s' : Text) : Prop where
  alike : Alike .outside s s'
  closed : Closed s

namespace Alike

variable {quoting : Quoting} {s s' t t' : Text}

instance decidable : (quoting : Quoting) → (s s' : Text) → Decidable (Alike quoting s s')
  | quoting, [], [] => isTrue (.nil quoting)
  | _, [], _ :: _ => isFalse fun h => nomatch h
  | _, _ :: _, [] => isFalse fun h => nomatch h
  | quoting, c :: s, c' :: s' =>
    if hc : (quoting = .outside → c = c') ∧ quoting.step c = quoting.step c' then
      match decidable (quoting.step c) s s' with
      | isTrue h => isTrue (.cons hc.1 hc.2 h)
      | isFalse h => isFalse fun | .cons _ _ h' => h h'
    else isFalse fun | .cons hc' hstep _ => hc ⟨hc', hstep⟩

theorem refl (quoting : Quoting) (s : Text) : Alike quoting s s := by
  induction s generalizing quoting with
  | nil => exact .nil quoting
  | cons c s ih => exact .cons (fun _ => rfl) rfl (ih _)

theorem symm (h : Alike quoting s s') : Alike quoting s' s := by
  induction h with
  | nil quoting => exact .nil quoting
  | cons hc hstep _ ih => exact .cons (fun hq => (hc hq).symm) hstep.symm (hstep ▸ ih)

theorem length_eq (h : Alike quoting s s') : s.length = s'.length := by
  induction h with
  | nil => rfl
  | cons _ _ _ ih => simp [ih]

theorem scan_eq (h : Alike quoting s s') : quoting.scan s = quoting.scan s' := by
  induction h with
  | nil => rfl
  | cons _ hstep _ ih => rw [Quoting.scan_cons, ih, hstep, ← Quoting.scan_cons]

theorem append (h : Alike quoting s s') (ht : Alike (quoting.scan s) t t') :
    Alike quoting (s ++ t) (s' ++ t') := by
  induction h with
  | nil => exact ht
  | cons hc hstep _ ih => exact .cons hc hstep (ih ht)

theorem take (h : Alike quoting s s') (n : Nat) : Alike quoting (s.take n) (s'.take n) := by
  induction h generalizing n with
  | nil quoting => simpa using Alike.nil quoting
  | cons hc hstep _ ih =>
    cases n with
    | zero => exact .nil _
    | succ n => exact .cons hc hstep (ih n)

theorem drop (h : Alike quoting s s') (n : Nat) :
    Alike (quoting.scan (s.take n)) (s.drop n) (s'.drop n) := by
  induction h generalizing n with
  | nil quoting => simpa using Alike.nil quoting
  | cons hc hstep h ih =>
    cases n with
    | zero => exact .cons hc hstep h
    | succ n => exact ih n

theorem head?_eq (h : Alike .outside s s') : s.head? = s'.head? := by
  cases h with
  | nil => rfl
  | cons hc _ _ => rw [List.head?_cons, List.head?_cons, hc rfl]

/-- A character after which the scan is outside literals is the same in
both texts. -/
theorem eq_of_step_outside {c c' : Char} (hc : quoting = .outside → c = c')
    (hstep : quoting.step c = quoting.step c') (hout : quoting.step c = .outside) : c = c' := by
  cases quoting with
  | outside => exact hc rfl
  | inside delimiter =>
    by_cases h : c = delimiter
    · by_cases h' : c' = delimiter
      · rw [h, h']
      · rw [hstep, Quoting.step_inside h'] at hout
        cases hout
    · rw [Quoting.step_inside h] at hout
      cases hout

/-- A run of characters of a class without quotes is the same in both
texts. -/
theorem takeWhile_eq {inClass : Char → Bool} (hclass : ∀ c, isQuote c = true → inClass c = false)
    (h : Alike .outside s s') : s.takeWhile inClass = s'.takeWhile inClass := by
  induction s generalizing s' with
  | nil => cases h; rfl
  | cons c s ih =>
    cases h with
    | @cons _ _ c' _ t hc _ h =>
      obtain rfl := hc rfl
      rw [List.takeWhile_cons, List.takeWhile_cons]
      cases hin : inClass c with
      | false => rfl
      | true =>
        have hquote : isQuote c = false := by
          rw [Bool.eq_false_iff]
          intro hquote
          rw [hclass c hquote] at hin
          cases hin
        rw [Quoting.step_outside hquote] at h
        simp [ih h]

theorem trimStart (h : Alike .outside s s') : Alike .outside (trimStart s) (trimStart s') := by
  induction s generalizing s' with
  | nil => cases h; exact .nil _
  | cons c s ih =>
    cases h with
    | cons hc hstep h =>
      obtain rfl := hc rfl
      cases hblank : isBlank c with
      | true =>
        rw [Quoting.step_outside (isQuote_of_isBlank hblank)] at h
        simpa [Text.trimStart, hblank] using ih h
      | false => simpa [Text.trimStart, hblank] using Alike.cons hc hstep h

end Alike

/-! ## 2. Texts of the same shape -/

namespace SameShape

variable {s s' t t' : Text} {n m : Nat}

theorem closed' (h : SameShape s s') : Closed s' :=
  h.alike.scan_eq.symm.trans h.closed

theorem symm (h : SameShape s s') : SameShape s' s :=
  ⟨h.alike.symm, h.closed'⟩

theorem length_eq (h : SameShape s s') : s.length = s'.length :=
  h.alike.length_eq

theorem eq_nil_iff (h : SameShape s s') : s = [] ↔ s' = [] := by
  rw [← List.length_eq_zero_iff, h.length_eq, List.length_eq_zero_iff]

theorem isEmpty_eq (h : SameShape s s') : s.isEmpty = s'.isEmpty := by
  rw [Bool.eq_iff_iff, List.isEmpty_iff, List.isEmpty_iff, h.eq_nil_iff]

theorem refl (h : Closed s) : SameShape s s :=
  ⟨.refl _ s, h⟩

theorem nil : SameShape [] [] :=
  .refl rfl

theorem cons {c : Char} (hc : isQuote c = false) (h : SameShape s s') :
    SameShape (c :: s) (c :: s') := by
  constructor
  · refine .cons (fun _ => rfl) rfl ?_
    rw [Quoting.step_outside hc]
    exact h.alike
  · rw [Closed, Quoting.scan_cons, Quoting.step_outside hc]
    exact h.closed

theorem append (h : SameShape s s') (ht : SameShape t t') : SameShape (s ++ t) (s' ++ t') := by
  refine ⟨h.alike.append ?_, h.closed.append ht.closed⟩
  rw [h.closed]
  exact ht.alike

theorem take (h : SameShape s s') (hn : Closed (s.take n)) :
    SameShape (s.take n) (s'.take n) :=
  ⟨h.alike.take n, hn⟩

theorem drop (h : SameShape s s') (hn : Closed (s.take n)) :
    SameShape (s.drop n) (s'.drop n) := by
  constructor
  · have := h.alike.drop n
    rw [hn] at this
    exact this
  · have hclosed := h.closed
    rw [Closed, ← List.take_append_drop n s, hn.scan_append] at hclosed
    exact hclosed

theorem slice (h : SameShape s s') (hn : Closed (s.take n)) (hm : Closed (s.take m)) :
    SameShape (slice s n m) (slice s' n m) := by
  refine (h.take hm).drop ?_
  rw [List.take_take]
  rcases Nat.le_total n m with hle | hle
  · rw [Nat.min_eq_left hle]
    exact hn
  · rw [Nat.min_eq_right hle]
    exact hm

/-! ## 3. Trimming and cutting -/

theorem trimStart (h : SameShape s s') : SameShape (trimStart s) (trimStart s') := by
  refine ⟨h.alike.trimStart, ?_⟩
  obtain ⟨gap, hgap, heq⟩ := exists_eq_append_trimStart s
  have hclosed := h.closed
  rw [heq, Closed, hgap.unquoted.closed.scan_append] at hclosed
  exact hclosed

/-- A blank at the end of a closed text stands outside literals. -/
theorem of_concat_blank {c c' : Char} (h : SameShape (s ++ [c]) (s' ++ [c']))
    (hblank : isBlank c = true) : c = c' ∧ SameShape s s' := by
  have hlength : s.length = s'.length := by simpa using h.length_eq
  have hscan : Quoting.outside.scan s = .outside := by
    have hclosed := h.closed
    rw [Closed, Quoting.scan_append, Quoting.scan_cons, Quoting.scan_nil, Quoting.step_eq_self
      (Quoting.scan_proper Quoting.proper_outside s) (isQuote_of_isBlank hblank)] at hclosed
    exact hclosed
  have htake := h.alike.take s.length
  have hdrop := h.alike.drop s.length
  rw [List.take_left, List.take_left' hlength.symm] at htake
  rw [List.take_left, List.drop_left, List.drop_left' hlength.symm, hscan] at hdrop
  exact ⟨Option.some.inj hdrop.head?_eq, htake, hscan⟩

theorem trimEnd (h : SameShape s s') : SameShape (trimEnd s) (trimEnd s') := by
  induction s using List.reverseRecOn generalizing s' with
  | nil =>
    obtain rfl := h.eq_nil_iff.mp rfl
    exact nil
  | append_singleton s c ih =>
    obtain ⟨s', c', rfl⟩ : ∃ u d, s' = u ++ [d] := by
      have hne : s' ≠ [] := fun hnil => by simpa using h.eq_nil_iff.mpr hnil
      exact ⟨s'.dropLast, s'.getLast hne, (List.dropLast_append_getLast hne).symm⟩
    have hone : ∀ {d : Char}, isBlank d = true → AllBlank [d] := by
      intro d hd e he
      rw [List.mem_singleton.mp he]
      exact hd
    cases hblank : isBlank c with
    | true =>
      obtain ⟨rfl, hinit⟩ := h.of_concat_blank hblank
      rw [trimEnd_append_of_allBlank (hone hblank), trimEnd_append_of_allBlank (hone hblank)]
      exact ih hinit
    | false =>
      have hblank' : isBlank c' = false := by
        rw [Bool.eq_false_iff]
        intro hc'
        rw [(h.symm.of_concat_blank hc').1, hblank] at hc'
        cases hc'
      have hends : ∀ {u : Text} {d : Char}, isBlank d = false → EndsBare (u ++ [d]) := by
        intro u d hd e he
        rw [List.getLast?_concat] at he
        obtain rfl := Option.some.inj he
        exact hd
      rw [trimEnd_of_endsBare (hends hblank), trimEnd_of_endsBare (hends hblank')]
      exact h

theorem trim (h : SameShape s s') : SameShape (trim s) (trim s') :=
  h.trimStart.trimEnd

theorem cut (h : SameShape s s') (hn : Closed (s.take n)) (hm : Closed (s.take m)) :
    SameShape (cut s n m) (cut s' n m) := by
  have hbefore := (h.take hn).trimEnd
  have hafter := (h.drop hm).trimStart
  simp only [Text.cut, hbefore.isEmpty_eq, hafter.isEmpty_eq]
  split
  · exact hbefore.append hafter
  · exact hbefore.append (hafter.cons (by decide))

end SameShape

/-! ## 4. Lists -/

/-- The entries of two lists are alike one by one. The first may begin
inside a literal, all others begin outside. -/
theorem Alike.exists_segments {nesting : Nesting} {s s' : Text} (h : Alike nesting.quoting s s')
    (hclosed : nesting.quoting.scan s = .outside) :
    ∃ first first' others others', segments nesting s = first :: others ∧
      segments nesting s' = first' :: others' ∧ Alike nesting.quoting first first' ∧
      nesting.quoting.scan first = .outside ∧ List.Forall₂ SameShape others others' := by
  induction s generalizing nesting s' with
  | nil =>
    cases h
    exact ⟨[], [], [], [], rfl, rfl, .nil _, hclosed, .nil⟩
  | cons c s ih =>
    cases h with
    | @cons _ _ c' _ s' hc hstep h =>
      have hseparates : nesting.separates c = nesting.separates c' := by
        by_cases hout : nesting.quoting = .outside
        · rw [hc hout]
        · simp [Nesting.separates, beq_eq_false_iff_ne.mpr hout]
      have hnesting : nesting.step c = nesting.step c' := by
        by_cases hout : nesting.quoting = .outside
        · rw [hc hout]
        · simp [Nesting.step, Quoting.plain, beq_eq_false_iff_ne.mpr hout, hstep]
      rw [Text.segments, Text.segments, ← hseparates, ← hnesting]
      cases hsep : nesting.separates c with
      | true =>
        have hcomma : c = ',' ∧ nesting.quoting = .outside := by
          simp only [Nesting.separates, Bool.and_eq_true, beq_iff_eq] at hsep
          exact hsep.1
        have hstay : nesting.quoting.step c = nesting.quoting := by
          rw [hcomma.1, hcomma.2]
          rfl
        rw [hstay] at h
        rw [Quoting.scan_cons, hstay] at hclosed
        obtain ⟨first, first', others, others', heq, heq', hfirst, hscan, hothers⟩ := ih h hclosed
        rw [hcomma.2] at hfirst hscan
        refine ⟨[], [], segments nesting s, segments nesting s', rfl, rfl, .nil _, hcomma.2, ?_⟩
        rw [heq, heq']
        exact .cons ⟨hfirst, hscan⟩ hothers
      | false =>
        obtain ⟨first, first', others, others', heq, heq', hfirst, hscan, hothers⟩ :=
          ih (show Alike (nesting.step c).quoting s s' from h) hclosed
        refine ⟨c :: first, c' :: first', others, others', ?_, ?_, .cons hc hstep hfirst, hscan,
          hothers⟩
        · rw [heq]
          rfl
        · rw [heq']
          rfl

theorem SameShape.entries {s s' : Text} (h : SameShape s s') :
    List.Forall₂ SameShape (entries s) (entries s') := by
  obtain ⟨first, first', others, others', heq, heq', hfirst, hscan, hothers⟩ :=
    Alike.exists_segments (show Alike (Nesting.quoting {}) s s' from h.alike) h.closed
  rw [Text.entries, Text.entries, heq, heq', List.forall₂_map_left_iff, List.forall₂_map_right_iff]
  exact .cons (SameShape.mk hfirst hscan).trim (hothers.imp fun _ _ h => h.trim)

end Text

/-! ## 5. Keywords -/

namespace Keyword

theorem stripWord_rel {word s s' : Text} (hword : ∀ c ∈ word, c.isUpper = true)
    (h : Alike .outside s s') :
    Option.Rel (Alike .outside) (stripWord word s) (stripWord word s') := by
  induction word generalizing s s' with
  | nil => exact .some h
  | cons letter word ih =>
    cases h with
    | nil => exact .none
    | @cons _ c _ t t' hc hstep h =>
      obtain rfl := hc rfl
      rw [stripWord, stripWord]
      split
      · next hletter =>
        have hquote := isQuote_of_isAlpha (isAlpha_of_toUpper hletter (hword letter (by simp)))
        rw [Quoting.step_outside hquote] at h
        exact ih (fun d hd => hword d (by simp [hd])) h
      · exact .none

theorem stripWords_rel {words : List Text} (hw : Lettered words) {s s' : Text}
    (h : Alike .outside s s') :
    Option.Rel (Alike .outside) (stripWords words s) (stripWords words s') := by
  induction words generalizing s s' with
  | nil => exact .some h
  | cons word words ih =>
    have hstrip := stripWord_rel (hw word (by simp)).2 h
    cases words with
    | nil => exact hstrip
    | cons next words =>
      rw [stripWords, stripWords]
      generalize stripWord word s = found at hstrip ⊢
      generalize stripWord word s' = found' at hstrip ⊢
      cases hstrip with
      | none => exact .none
      | some hrest =>
        simp only [← hrest.head?_eq]
        split
        · exact ih (fun w hmem => hw w (by simp [hmem])) hrest.trimStart
        · exact .none

theorem matchHere_eq {keyword : Keyword} (hw : Lettered keyword.words) {s s' : Text}
    (h : Alike .outside s s') (before : Option Char) :
    keyword.matchHere before s = keyword.matchHere before s' := by
  have hrel := stripWords_rel hw h
  rw [matchHere, matchHere]
  generalize stripWords keyword.words s = found at hrel ⊢
  generalize stripWords keyword.words s' = found' at hrel ⊢
  cases hrel with
  | none => rfl
  | some hrest =>
    cases hrest with
    | nil => simp only [h.length_eq]
    | cons hc _ htail =>
      obtain rfl := hc rfl
      simp only [List.length_cons, h.length_eq, htail.length_eq]

theorem firstHere_eq {keywords : List Keyword} (hk : ∀ keyword ∈ keywords, keyword.Regular)
    {s s' : Text} (h : Alike .outside s s') (before : Option Char) (position : Nat) :
    firstHere keywords before position s = firstHere keywords before position s' := by
  exact firstHere_congr (fun keyword hmem => matchHere_eq (hk keyword hmem).lettered h before)
    position

/-! ## 6. Searches -/

/-- What stands before the place of a search matters only outside
literals. -/
theorem findFrom_eq {keywords : List Keyword} (hk : ∀ keyword ∈ keywords, keyword.Regular)
    {quoting : Quoting} {s s' : Text} (h : Alike quoting s s') {before before' : Option Char}
    (hbefore : quoting = .outside → before = before') (position : Nat) :
    findFrom keywords quoting before position s =
      findFrom keywords quoting before' position s' := by
  induction h generalizing before before' position with
  | nil => rfl
  | @cons quoting c c' s s' hc hstep h ih =>
    have hfirst : (if quoting.plain c then firstHere keywords before position (c :: s) else none) =
        if quoting.plain c' then firstHere keywords before' position (c' :: s') else none := by
      by_cases hout : quoting = .outside
      · obtain rfl := hc hout
        obtain rfl := hbefore hout
        subst hout
        rw [firstHere_eq hk (.cons hc hstep h)]
      · simp [Quoting.plain, beq_eq_false_iff_ne.mpr hout]
    rw [findFrom, findFrom, hfirst]
    split
    · rfl
    · rw [← hstep]
      exact ih (fun hout => congrArg some (Alike.eq_of_step_outside hc hstep hout)) _

/-- A hit begins and ends outside literals, if the search for it began
there. -/
theorem closed_of_splits {hit : Hit} (hregular : hit.keyword.Regular)
    {text before spelled after : Text} (h : hit.Splits text before spelled after) {start : Nat}
    (hstart : Closed (text.take start)) (hle : start ≤ before.length)
    (hbefore : Closed (before.drop start)) :
    Closed (text.take hit.start) ∧ Closed (text.take hit.stop) := by
  have hclosed : Closed before := by
    rw [h.text_eq, List.append_assoc, List.take_append_of_le_length hle] at hstart
    rw [← List.take_append_drop start before]
    exact hstart.append hbefore
  constructor
  · rw [h.take_start]
    exact hclosed
  · rw [h.stop_eq, h.text_eq, ← List.length_append, List.take_left]
    exact hclosed.append (h.spells.unquoted hregular.lettered).closed

theorem closed_of_find {keywords : List Keyword} (hk : ∀ keyword ∈ keywords, keyword.Regular)
    {text : Text} {start : Nat} (hstart : Closed (text.take start)) {hit : Hit}
    (h : find keywords text start = some hit) :
    Closed (text.take hit.start) ∧ Closed (text.take hit.stop) := by
  obtain ⟨before, spelled, after, hsplits, hle, hbefore, hindex⟩ := find_splits hk h
  exact closed_of_splits (hk _ (List.mem_of_getElem? hindex)) hsplits hstart hle hbefore

theorem closed_of_findAll {keywords : List Keyword} (hk : ∀ keyword ∈ keywords, keyword.Regular)
    {text : Text} {start : Nat} (hstart : Closed (text.take start)) {hit : Hit}
    (h : hit ∈ findAll keywords text start) :
    Closed (text.take hit.start) ∧ Closed (text.take hit.stop) := by
  obtain ⟨before, spelled, after, hsplits, hle, hbefore, hindex⟩ := findAll_splits hk h
  exact closed_of_splits (hk _ (List.mem_of_getElem? hindex)) hsplits hstart hle hbefore

end Keyword

theorem Text.Alike.charBefore_eq {s s' : Text} (h : Alike .outside s s') {position : Nat}
    (hclosed : Closed (s.take position)) : charBefore s position = charBefore s' position := by
  cases position with
  | zero => rfl
  | succ n =>
    rw [charBefore, charBefore, ← List.head?_drop, ← List.head?_drop]
    rw [Closed, List.take_add_one, Quoting.scan_append] at hclosed
    have hdrop := h.drop n
    cases hs : s.drop n with
    | nil =>
      rw [hs] at hdrop
      cases hs' : s'.drop n with
      | nil => rfl
      | cons c' rest' => rw [hs'] at hdrop; cases hdrop
    | cons c rest =>
      rw [hs] at hdrop
      cases hs' : s'.drop n with
      | nil => rw [hs'] at hdrop; cases hdrop
      | cons c' rest' =>
        rw [hs'] at hdrop
        rw [← List.head?_drop, hs] at hclosed
        cases hdrop with
        | cons hc hstep _ =>
          exact congrArg some (Alike.eq_of_step_outside hc hstep hclosed)

namespace Text.SameShape

variable {s s' : Text} {keywords : List Keyword}

theorem find_eq (hk : ∀ keyword ∈ keywords, keyword.Regular) (h : SameShape s s') {start : Nat}
    (hstart : Closed (s.take start)) :
    Keyword.find keywords s start = Keyword.find keywords s' start := by
  rw [Keyword.find, Keyword.find, h.alike.charBefore_eq hstart]
  exact Keyword.findFrom_eq hk (h.drop hstart).alike (fun _ => rfl) start

theorem findAll_eq (hk : ∀ keyword ∈ keywords, keyword.Regular) (h : SameShape s s') {start : Nat}
    (hstart : Closed (s.take start)) :
    Keyword.findAll keywords s start = Keyword.findAll keywords s' start := by
  exact Keyword.findAll_congr (P := fun start => Closed (s.take start)) hk
    (fun start => h.find_eq hk)
    (fun start hit hclosed hhit => (Keyword.closed_of_find hk hclosed hhit).2) hstart

end Text.SameShape

/-! ## 7. Cursors -/

/-- Two cursors at the same place of two texts of the same shape, outside
literals. -/
structure Cursor.Alike (s s' : Text) (a b : Cursor) : Prop where
  shape : SameShape s s'
  text_eq : a.text = s
  text_eq' : b.text = s'
  position_eq : a.position = b.position
  closed : Closed (s.take a.position)

namespace Cursor.Alike

variable {s s' : Text} {a b : Cursor}

theorem rest (h : Cursor.Alike s s' a b) : SameShape a.rest b.rest := by
  rw [Cursor.rest, Cursor.rest, ← h.position_eq, h.text_eq, h.text_eq']
  exact h.shape.drop h.closed

theorem current_eq (h : Cursor.Alike s s' a b) : a.current = b.current := by
  have hhead := h.rest.alike.head?_eq
  rw [Cursor.rest, Cursor.rest, List.head?_drop, List.head?_drop] at hhead
  rw [current, current, charAt, charAt, List.getD_eq_getElem?_getD, List.getD_eq_getElem?_getD,
    hhead]

/-- Both cursors move past text without quotes. -/
theorem advance (h : Cursor.Alike s s' a b) {run : Text} (hrun : run <+: a.rest)
    (hquote : Unquoted run) :
    Cursor.Alike s s' { a with position := a.position + run.length }
      { b with position := b.position + run.length } := by
  refine ⟨h.shape, h.text_eq, h.text_eq', by simp only [h.position_eq], ?_⟩
  obtain ⟨rest, hrest⟩ := hrun
  have htake : s.take (a.position + run.length) = s.take a.position ++ run := by
    rw [← h.text_eq, List.take_add, ← Cursor.rest, ← hrest, List.take_left]
  rw [htake]
  exact h.closed.append hquote.closed

theorem unquoted_takeWhile {inClass : Char → Bool}
    (hclass : ∀ c, isQuote c = true → inClass c = false) (s : Text) :
    Unquoted (s.takeWhile inClass) := by
  intro c hc
  rw [Bool.eq_false_iff]
  intro hquote
  have := List.mem_takeWhile_imp hc
  rw [hclass c hquote] at this
  cases this

theorem isBlank_of_isQuote (c : Char) (h : isQuote c = true) : isBlank c = false := by
  rw [Bool.eq_false_iff]
  intro hblank
  rw [isQuote_of_isBlank hblank] at h
  cases h

theorem skipBlanks (h : Cursor.Alike s s' a b) :
    Cursor.Alike s s' a.skipBlanks b.skipBlanks := by
  have := h.advance (List.takeWhile_prefix _) (unquoted_takeWhile isBlank_of_isQuote a.rest)
  rw [Cursor.skipBlanks, Cursor.skipBlanks, ← h.rest.alike.takeWhile_eq isBlank_of_isQuote]
  exact this

theorem readRun (h : Cursor.Alike s s' a b) {inClass : Char → Bool}
    (hclass : ∀ c, isQuote c = true → inClass c = false) :
    Option.Rel (fun x y => x.1 = y.1 ∧ Cursor.Alike s s' x.2 y.2)
      (a.readRun inClass) (b.readRun inClass) := by
  have hadvance := h.advance (List.takeWhile_prefix _) (unquoted_takeWhile hclass a.rest)
  rw [Cursor.readRun, Cursor.readRun, ← h.rest.alike.takeWhile_eq hclass]
  generalize a.rest.takeWhile inClass = run at hadvance ⊢
  cases run with
  | nil => exact .none
  | cons c run => exact .some ⟨rfl, hadvance⟩

theorem next (h : Cursor.Alike s s' a b) (hquote : isQuote a.current = false) :
    Cursor.Alike s s' a.next b.next := by
  have hlength : b.text.length = a.text.length := by
    rw [h.text_eq, h.text_eq', h.shape.length_eq]
  rw [Cursor.next, Cursor.next, atEnd, atEnd, ← h.position_eq, hlength]
  split
  · exact h
  · next hend =>
    have hlt : a.position < a.text.length := by simpa using hend
    have hprefix : [a.current] <+: a.rest := by
      rw [Cursor.rest, List.drop_eq_getElem_cons hlt, current, charAt,
        List.getD_eq_getElem?_getD, List.getElem?_eq_getElem hlt, Option.getD_some]
      exact ⟨_, rfl⟩
    have := h.advance hprefix (fun c hc => by rw [List.mem_singleton.mp hc]; exact hquote)
    rw [← h.position_eq] at this
    exact this

end Cursor.Alike

/-- The pair of identifiers behind `ON` is the same. -/
theorem Cursor.Alike.readKeys {s s' : Text} {a b : Cursor} (h : Cursor.Alike s s' a b) :
    Option.Rel (fun x y => x.1 = y.1 ∧ Cursor.Alike s s' x.2 y.2)
      (JoinKeys.read a) (JoinKeys.read b) := by
  have hclass : ∀ c, isQuote c = true → isIdentifierChar c = false :=
    fun _ => isIdentifierChar_of_isQuote
  have hleft := h.skipBlanks.readRun hclass
  rw [JoinKeys.read, JoinKeys.read, Cursor.readIdentifier, Cursor.readIdentifier]
  generalize a.skipBlanks.readRun isIdentifierChar = left at hleft ⊢
  generalize b.skipBlanks.readRun isIdentifierChar = left' at hleft ⊢
  cases hleft with
  | none => exact .none
  | @some x y hxy =>
    obtain ⟨left, a⟩ := x
    obtain ⟨left', b⟩ := y
    obtain ⟨rfl, h⟩ := hxy
    simp only [Option.bind_eq_bind, Option.bind_some, ← h.skipBlanks.current_eq]
    split
    · next heq =>
      have hright := (h.skipBlanks.next (by rw [heq]; decide)).skipBlanks.readRun hclass
      rw [Cursor.readIdentifier, Cursor.readIdentifier]
      generalize a.skipBlanks.next.skipBlanks.readRun isIdentifierChar = right at hright ⊢
      generalize b.skipBlanks.next.skipBlanks.readRun isIdentifierChar = right' at hright ⊢
      cases hright with
      | none => exact .none
      | @some x y hxy =>
        obtain ⟨right, a⟩ := x
        obtain ⟨right', b⟩ := y
        obtain ⟨rfl, h⟩ := hxy
        exact .some ⟨rfl, h⟩
    · exact .none

/-! ## 8. Operators -/

namespace Comparison

theorem isPrefixOf_eq {symbol s s' : Text} (hsymbol : Unquoted symbol) (h : Alike .outside s s') :
    symbol.isPrefixOf s = symbol.isPrefixOf s' := by
  induction symbol generalizing s s' with
  | nil => simp
  | cons d symbol ih =>
    cases h with
    | nil => rfl
    | @cons _ c _ t t' hc _ h =>
      obtain rfl := hc rfl
      rw [List.isPrefixOf_cons_cons, List.isPrefixOf_cons_cons]
      by_cases hd : d = c
      · subst hd
        rw [Quoting.step_outside (hsymbol d (by simp))] at h
        rw [ih (fun e he => hsymbol e (by simp [he])) h]
      · rw [beq_eq_false_iff_ne.mpr hd]
        rfl

theorem unquoted_of_mem_symbols : ∀ entry ∈ symbols, Unquoted entry.1 := by
  decide

/-- A symbol that is found splits the text, outside literals. -/
theorem findFrom_splits {quoting : Quoting} {position : Nat} {text : Text} {found : Found}
    (h : findFrom quoting position text = some found) :
    ∃ before symbol after, text = before ++ symbol ++ after ∧ quoting.scan before = .outside ∧
      (symbol, found.comparison) ∈ symbols ∧ found.start = position + before.length ∧
      found.stop = position + before.length + symbol.length := by
  induction text generalizing quoting position with
  | nil => cases h
  | cons c rest ih =>
    rw [findFrom] at h
    split at h
    · next symbol comparison hfirst =>
      obtain rfl := Option.some.inj h
      split at hfirst
      · next hplain =>
        have hprefix : symbol.isPrefixOf (c :: rest) = true := by
          simpa using List.find?_some hfirst
        obtain ⟨after, hafter⟩ := List.isPrefixOf_iff_prefix.mp hprefix
        exact ⟨[], symbol, after, by simpa using hafter.symm, (Quoting.plain_iff.mp hplain).1,
          List.mem_of_find?_eq_some hfirst, rfl, rfl⟩
      · cases hfirst
    · obtain ⟨before, symbol, after, rfl, hscan, hmem, hstart, hstop⟩ := ih h
      refine ⟨c :: before, symbol, after, rfl, hscan, hmem, ?_, ?_⟩
      · rw [hstart, List.length_cons]
        omega
      · rw [hstop, List.length_cons]
        omega

theorem closed_of_find {text : Text} {found : Found} (h : find text = some found) :
    Closed (text.take found.start) ∧ Closed (text.take found.stop) := by
  obtain ⟨before, symbol, after, rfl, hscan, hmem, hstart, hstop⟩ := findFrom_splits h
  rw [Nat.zero_add] at hstart hstop
  constructor
  · rw [hstart, List.append_assoc, List.take_left]
    exact hscan
  · rw [hstop, ← List.length_append, List.take_left]
    exact Closed.append hscan (unquoted_of_mem_symbols _ hmem).closed

theorem findFrom_eq {quoting : Quoting} {s s' : Text} (h : Alike quoting s s') (position : Nat) :
    findFrom quoting position s = findFrom quoting position s' := by
  induction h generalizing position with
  | nil => rfl
  | @cons quoting c c' s s' hc hstep h ih =>
    have hfirst : (if quoting.plain c then symbols.find? (·.1.isPrefixOf (c :: s)) else none) =
        if quoting.plain c' then symbols.find? (·.1.isPrefixOf (c' :: s')) else none := by
      by_cases hout : quoting = .outside
      · obtain rfl := hc hout
        subst hout
        have hfind : symbols.find? (·.1.isPrefixOf (c :: s)) =
            symbols.find? (·.1.isPrefixOf (c :: s')) := by
          rw [← List.head?_filter, ← List.head?_filter]
          congr 1
          refine List.filter_congr ?_
          intro symbol hmem
          exact isPrefixOf_eq (unquoted_of_mem_symbols symbol hmem) (.cons hc hstep h)
        rw [hfind]
      · simp [Quoting.plain, beq_eq_false_iff_ne.mpr hout]
    rw [findFrom, findFrom, hfirst, ← hstep, ih]

end Comparison

end SelectOutline
