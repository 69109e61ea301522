/-
SelectOutline.Proofs.Entries — how a list falls apart into its entries.

The reader of a list keeps one state, for literals and parentheses
together, and forgets nothing at a comma. What it does is said here by
positions: `depthAfter` counts the parentheses that are open after a text, and
a comma separates where it stands outside literals at depth zero
(`SeparatesAt`). The segments between the separating commas give back the
text when they are joined again (`intercalate_segments`), and these commas
are all that stands between them (`mem_joints_segments_iff`).

A text is `Undivided` from a state if no comma in it separates. An entry
is undivided, and trimming it changes nothing about that, so that it is
its own only entry; and a list of such entries that close all they open
falls apart into them again.
-/
import SelectOutline.Proofs.Grammar

namespace SelectOutline

open Text Grammar

namespace Text

/-! ## 1. The state after a text -/

/-- The state after a text. -/
def Nesting.scan (state : Nesting) (text : Text) : Nesting :=
  text.foldl Nesting.step state

/-- The depth behind the character at a position, given the depth before
it. Outside literals a parenthesis changes it; one that closes nothing is
ignored. -/
def depthBehind (text : Text) (depth position : Nat) : Nat :=
  if ¬ Closed (text.take position) then depth
  else if text[position]? = some '(' then depth + 1
  else if text[position]? = some ')' then depth - 1
  else depth

/-- How many parentheses are open after a text. -/
def depthAfter (text : Text) : Nat :=
  (List.range text.length).foldl (depthBehind text) 0

/-- The last character only changes the depth by itself. -/
theorem depthAfter_concat (text : Text) (c : Char) :
    depthAfter (text ++ [c]) =
      if ¬ Closed text then depthAfter text
      else if c = '(' then depthAfter text + 1
      else if c = ')' then depthAfter text - 1
      else depthAfter text := by
  have hbefore : (List.range text.length).foldl (depthBehind (text ++ [c])) 0 = depthAfter text := by
    refine List.foldl_ext _ _ _ fun depth position hmem => ?_
    have hlt : position < text.length := List.mem_range.mp hmem
    rw [depthBehind, depthBehind, List.take_append_of_le_length hlt.le,
      List.getElem?_append_left hlt]
  rw [depthAfter, List.length_append, List.length_singleton, List.range_succ, List.foldl_append,
    hbefore, List.foldl_cons, List.foldl_nil, depthBehind, List.take_left,
    List.getElem?_concat_length]
  simp only [Option.some.injEq]

namespace Nesting

@[simp] theorem scan_nil (state : Nesting) : state.scan [] = state := rfl

@[simp] theorem scan_cons (state : Nesting) (c : Char) (rest : Text) :
    state.scan (c :: rest) = (state.step c).scan rest := rfl

theorem scan_append (state : Nesting) (s t : Text) :
    state.scan (s ++ t) = (state.scan s).scan t :=
  List.foldl_append

/-- A quote is no parenthesis, so that only the literals before a character
decide whether it counts. -/
theorem depth_step (state : Nesting) (c : Char) :
    (state.step c).depth =
      if state.quoting ≠ .outside then state.depth
      else if c = '(' then state.depth + 1
      else if c = ')' then state.depth - 1
      else state.depth := by
  by_cases hc : isQuote c = true
  · have hopen : c ≠ '(' := by rintro rfl; cases hc
    have hclose : c ≠ ')' := by rintro rfl; cases hc
    simp [step, Quoting.plain, hc, hopen, hclose]
  · by_cases hout : state.quoting = .outside
    · simp [step, Quoting.plain, hc, hout]
    · simp [step, Quoting.plain, hout]

/-- The state after a text, by its two parts. -/
theorem scan_eq (text : Text) :
    Nesting.scan {} text = ⟨Quoting.outside.scan text, depthAfter text⟩ := by
  induction text using List.reverseRecOn with
  | nil => rfl
  | append_singleton text c ih =>
    have hdepth := depth_step ⟨Quoting.outside.scan text, depthAfter text⟩ c
    rw [scan_append, ih, scan_cons, scan_nil, Quoting.scan_append, depthAfter_concat, ← hdepth]
    rfl

/-- A comma that separates leaves the state as it is, and that is the one
at the start of a list. -/
theorem eq_of_separates {state : Nesting} {c : Char} (h : state.separates c = true) :
    c = ',' ∧ state = {} := by
  obtain ⟨quoting, depth⟩ := state
  simp only [separates, Bool.and_eq_true, beq_iff_eq] at h
  obtain ⟨⟨rfl, rfl⟩, rfl⟩ := h
  exact ⟨rfl, rfl⟩

end Nesting

/-- A comma that separates two entries stands at a position. -/
structure SeparatesAt (text : Text) (position : Nat) : Prop where
  comma : text[position]? = some ','
  closed : Closed (text.take position)
  level : depthAfter (text.take position) = 0

/-- It is where a scan of the text sees one. -/
theorem separatesAt_iff {text : Text} {position : Nat} :
    SeparatesAt text position ↔
      ∃ c, text[position]? = some c ∧ (Nesting.scan {} (text.take position)).separates c = true := by
  constructor
  · rintro ⟨hcomma, hclosed, hlevel⟩
    refine ⟨',', hcomma, ?_⟩
    rw [Nesting.scan_eq, hclosed, hlevel]
    rfl
  · rintro ⟨c, hc, hseparates⟩
    obtain ⟨rfl, hstate⟩ := Nesting.eq_of_separates hseparates
    rw [Nesting.scan_eq] at hstate
    exact ⟨hc, congrArg Nesting.quoting hstate, congrArg Nesting.depth hstate⟩

/-! ## 2. Segments -/

theorem segments_ne_nil (state : Nesting) (text : Text) : segments state text ≠ [] := by
  induction text generalizing state with
  | nil => exact List.cons_ne_nil [] []
  | cons c rest ih =>
    rw [segments]
    split
    · exact List.cons_ne_nil _ _
    · obtain ⟨first, others, hsegments⟩ := List.exists_cons_of_ne_nil (ih (state.step c))
      rw [hsegments]
      exact List.cons_ne_nil _ _

/-- The segments with commas between them are the text. -/
theorem intercalate_segments (state : Nesting) (text : Text) :
    [','].intercalate (segments state text) = text := by
  induction text generalizing state with
  | nil => rfl
  | cons c rest ih =>
    rw [segments]
    split
    · next hseparates =>
      obtain ⟨rfl, -⟩ := Nesting.eq_of_separates hseparates
      rw [List.intercalate_cons_of_ne_nil (segments_ne_nil state rest), ih]
      rfl
    · obtain ⟨first, others, hsegments⟩ :=
        List.exists_cons_of_ne_nil (segments_ne_nil (state.step c) rest)
      have hrest := ih (state.step c)
      rw [hsegments] at hrest ⊢
      rw [List.modifyHead_cons, ← hrest]
      cases others with
      | nil => simp
      | cons second others => simp [List.intercalate_cons_cons]

/-- The positions of the commas between segments that begin at `start`. -/
def joints (start : Nat) : List Text → List Nat
  | first :: second :: others =>
    (start + first.length) :: joints (start + first.length + 1) (second :: others)
  | _ => []

theorem joints_modifyHead (start : Nat) (c : Char) (pieces : List Text) :
    joints start (pieces.modifyHead (c :: ·)) = joints (start + 1) pieces := by
  match pieces with
  | [] => rfl
  | [_] => rfl
  | first :: second :: others =>
    have hplace : start + (first.length + 1) = start + 1 + first.length := by omega
    rw [List.modifyHead_cons, joints, joints, List.length_cons, hplace]

/-- The commas between the segments are those that separate. -/
theorem mem_joints_segments_iff {state : Nesting} {text : Text} {start position : Nat} :
    position ∈ joints start (segments state text) ↔
      ∃ n c, position = start + n ∧ text[n]? = some c ∧
        (state.scan (text.take n)).separates c = true := by
  induction text generalizing state start with
  | nil => simp [segments, joints]
  | cons c rest ih =>
    rw [segments]
    split
    · next hseparates =>
      obtain ⟨rfl, rfl⟩ := Nesting.eq_of_separates hseparates
      obtain ⟨first, others, hsegments⟩ := List.exists_cons_of_ne_nil (segments_ne_nil {} rest)
      have hrest := @ih {} (start + 1)
      rw [hsegments] at hrest ⊢
      rw [joints, List.length_nil, Nat.add_zero, List.mem_cons, hrest]
      constructor
      · rintro (rfl | ⟨n, c, rfl, hc, hstate⟩)
        · exact ⟨0, ',', rfl, rfl, rfl⟩
        · exact ⟨n + 1, c, by omega, hc, hstate⟩
      · rintro ⟨n, c, rfl, hc, hstate⟩
        cases n with
        | zero => exact .inl rfl
        | succ n => exact .inr ⟨n, c, by omega, hc, hstate⟩
    · next hseparates =>
      rw [joints_modifyHead, ih]
      constructor
      · rintro ⟨n, d, rfl, hd, hstate⟩
        exact ⟨n + 1, d, by omega, hd, hstate⟩
      · rintro ⟨n, d, rfl, hd, hstate⟩
        cases n with
        | zero =>
          obtain rfl := Option.some.inj hd
          exact absurd hstate hseparates
        | succ n => exact ⟨n, d, by omega, hd, hstate⟩

/-! ## 3. Undivided texts -/

/-- No comma in the text separates, where it begins in the state. -/
abbrev Undivided (state : Nesting) (text : Text) : Prop :=
  segments state text = [text]

theorem undivided_nil (state : Nesting) : Undivided state [] := rfl

theorem undivided_cons_iff {state : Nesting} {c : Char} {rest : Text} :
    Undivided state (c :: rest) ↔ state.separates c = false ∧ Undivided (state.step c) rest := by
  obtain ⟨first, others, hsegments⟩ :=
    List.exists_cons_of_ne_nil (segments_ne_nil (state.step c) rest)
  rw [Undivided, Undivided, segments, hsegments]
  cases state.separates c <;> simp

theorem undivided_append_iff {state : Nesting} {s t : Text} :
    Undivided state (s ++ t) ↔ Undivided state s ∧ Undivided (state.scan s) t := by
  induction s generalizing state with
  | nil => exact ⟨fun h => ⟨undivided_nil state, h⟩, And.right⟩
  | cons c s ih =>
    rw [List.cons_append, undivided_cons_iff, undivided_cons_iff, ih, and_assoc]
    rfl

/-- An undivided text is the beginning of the first entry of every list
that it begins. -/
theorem Undivided.segments_append {state : Nesting} {s : Text} (h : Undivided state s) (t : Text) :
    segments state (s ++ t) = (segments (state.scan s) t).modifyHead (s ++ ·) := by
  induction s generalizing state with
  | nil =>
    obtain ⟨first, others, hsegments⟩ := List.exists_cons_of_ne_nil (segments_ne_nil state t)
    rw [List.nil_append, Nesting.scan_nil, hsegments]
    rfl
  | cons c s ih =>
    obtain ⟨hseparates, hrest⟩ := undivided_cons_iff.mp h
    rw [List.cons_append, segments, hseparates, ih hrest, List.modifyHead_modifyHead]
    rfl

/-- Each segment is undivided. All but the first begin behind a comma that
separates. -/
theorem undivided_of_segments {state : Nesting} {text first : Text} {others : List Text}
    (h : segments state text = first :: others) :
    Undivided state first ∧ ∀ other ∈ others, Undivided {} other := by
  induction text generalizing state first others with
  | nil =>
    obtain ⟨rfl, rfl⟩ := List.cons.inj h
    exact ⟨undivided_nil state, List.forall_mem_nil _⟩
  | cons c rest ih =>
    rw [segments] at h
    split at h
    · next hseparates =>
      obtain ⟨rfl, rfl⟩ := List.cons.inj h
      obtain ⟨-, rfl⟩ := Nesting.eq_of_separates hseparates
      obtain ⟨second, others, hsegments⟩ := List.exists_cons_of_ne_nil (segments_ne_nil {} rest)
      rw [hsegments]
      exact ⟨undivided_nil {}, List.forall_mem_cons.mpr (ih hsegments)⟩
    · next hseparates =>
      obtain ⟨first', others', hsegments⟩ :=
        List.exists_cons_of_ne_nil (segments_ne_nil (state.step c) rest)
      rw [hsegments, List.modifyHead_cons] at h
      obtain ⟨rfl, rfl⟩ := List.cons.inj h
      obtain ⟨hfirst, hothers⟩ := ih hsegments
      exact ⟨undivided_cons_iff.mpr ⟨by simpa using hseparates, hfirst⟩, hothers⟩

theorem undivided_of_mem_segments {text segment : Text} (h : segment ∈ segments {} text) :
    Undivided {} segment := by
  obtain ⟨first, others, hsegments⟩ := List.exists_cons_of_ne_nil (segments_ne_nil {} text)
  obtain ⟨hfirst, hothers⟩ := undivided_of_segments hsegments
  rw [hsegments] at h
  rcases List.mem_cons.mp h with rfl | hmem
  · exact hfirst
  · exact hothers segment hmem

/-- Blanks hold no comma, and change no state. -/
theorem AllBlank.undivided {gap : Text} (h : AllBlank gap) :
    Undivided {} gap ∧ Nesting.scan {} gap = {} := by
  induction gap with
  | nil => exact ⟨undivided_nil {}, rfl⟩
  | cons b gap ih =>
    obtain ⟨hb, hgap⟩ := List.forall_mem_cons.mp h
    have hother : ∀ c, isBlank c = false → b ≠ c := by
      rintro c hc rfl
      rw [hb] at hc
      cases hc
    have hseparates : Nesting.separates {} b = false := by
      simp [Nesting.separates, hother ',' (by decide)]
    have hstep : Nesting.step {} b = {} := by
      simp [Nesting.step, Quoting.step_outside (isQuote_of_isBlank hb), hother '(' (by decide),
        hother ')' (by decide)]
    obtain ⟨hundivided, hscan⟩ := ih hgap
    refine ⟨undivided_cons_iff.mpr ⟨hseparates, ?_⟩, ?_⟩
    · rw [hstep]
      exact hundivided
    · rw [Nesting.scan_cons, hstep, hscan]

/-- A part between blanks is undivided if the whole is. -/
theorem Undivided.trim {text : Text} (h : Undivided {} text) : Undivided {} (trim text) := by
  obtain ⟨gap, gap', hgap, -, htext⟩ := exists_eq_append_trim text
  rw [htext, List.append_assoc, undivided_append_iff, hgap.undivided.2, undivided_append_iff] at h
  exact h.2.1

theorem Undivided.entries_eq {text : Text} (h : Undivided {} text) : entries text = [Text.trim text] := by
  rw [entries, h, List.map_singleton]

/-- A list has at least one entry. -/
theorem entries_ne_nil (text : Text) : entries text ≠ [] := by
  simpa [entries] using segments_ne_nil {} text

theorem trimmed_of_mem_entries {text entry : Text} (h : entry ∈ entries text) :
    Trimmed entry := by
  obtain ⟨segment, -, rfl⟩ := List.mem_map.mp h
  exact trimmed_trim segment

/-- What is its own only entry is trimmed, and no comma in it separates. -/
theorem entries_eq_self_iff {text : Text} :
    entries text = [text] ↔ Undivided {} text ∧ Trimmed text := by
  constructor
  · intro h
    have hmem : text ∈ entries text := by simp [h]
    have hlength := congrArg List.length h
    rw [entries, List.length_map, List.length_singleton, List.length_eq_one_iff] at hlength
    obtain ⟨segment, hsegment⟩ := hlength
    have hjoined := intercalate_segments {} text
    rw [hsegment, List.intercalate_singleton] at hjoined
    exact ⟨by rw [Undivided, hsegment, hjoined], trimmed_of_mem_entries hmem⟩
  · rintro ⟨hundivided, htrimmed⟩
    rw [hundivided.entries_eq, htrimmed.trim_eq]

/-- An entry is its own only entry. -/
theorem entries_of_mem_entries {text entry : Text} (h : entry ∈ entries text) :
    entries entry = [entry] := by
  obtain ⟨segment, hmem, rfl⟩ := List.mem_map.mp h
  exact entries_eq_self_iff.mpr ⟨(undivided_of_mem_segments hmem).trim, trimmed_trim segment⟩

/-! ## 4. Written lists -/

/-- A text that is one entry of a list, whatever stands around it: no comma
in it separates, and it closes all that it opens. -/
structure IsEntry (text : Text) : Prop where
  trimmed : Trimmed text
  undivided : Undivided {} text
  closes : Nesting.scan {} text = {}

theorem isEntry_iff {text : Text} :
    IsEntry text ↔ entries text = [text] ∧ Closed text ∧ depthAfter text = 0 := by
  have hstate : Nesting.scan {} text = {} ↔ Closed text ∧ depthAfter text = 0 := by
    rw [Nesting.scan_eq, Nesting.mk.injEq]
  rw [entries_eq_self_iff, ← hstate]
  constructor
  · rintro ⟨htrimmed, hundivided, hcloses⟩
    exact ⟨⟨hundivided, htrimmed⟩, hcloses⟩
  · rintro ⟨⟨hundivided, htrimmed⟩, hcloses⟩
    exact ⟨htrimmed, hundivided, hcloses⟩

/-- Blanks around an entry change nothing about what stands around it. -/
theorem IsEntry.surrounded {gap text gap' : Text} (h : IsEntry text) (hgap : AllBlank gap)
    (hgap' : AllBlank gap') :
    Undivided {} (gap ++ text ++ gap') ∧ Nesting.scan {} (gap ++ text ++ gap') = {} := by
  have hfront : Nesting.scan {} (gap ++ text) = {} := by
    rw [Nesting.scan_append, hgap.undivided.2, h.closes]
  refine ⟨undivided_append_iff.mpr ⟨undivided_append_iff.mpr ⟨hgap.undivided.1, ?_⟩, ?_⟩, ?_⟩
  · rw [hgap.undivided.2]
    exact h.undivided
  · rw [hfront]
    exact hgap'.undivided.1
  · rw [Nesting.scan_append, hfront, hgap'.undivided.2]

end Text

namespace Grammar.Listed

variable {α : Type} {write : α → Text}

theorem map_trim_segments {gap first : Text} {others : List (Space × Space × α)}
    (hgap : AllBlank gap) (hfirst : IsEntry first)
    (hothers : ∀ other ∈ others, IsEntry (write other.2.2)) :
    (segments {} (gap ++ first ++ tailText write others)).map trim =
      first :: others.map fun other => write other.2.2 := by
  induction others generalizing gap first with
  | nil =>
    obtain ⟨hundivided, -⟩ := hfirst.surrounded hgap allBlank_nil
    rw [tailText, List.flatMap_nil, hundivided, List.map_singleton,
      hfirst.trimmed.trim_between hgap allBlank_nil]
    rfl
  | cons other others ih =>
    obtain ⟨before, after, a⟩ := other
    obtain ⟨hother, hothers⟩ := List.forall_mem_cons.mp hothers
    obtain ⟨hundivided, hscan⟩ := hfirst.surrounded hgap before.blank
    have hsplit : gap ++ first ++ tailText write ((before, after, a) :: others) =
        (gap ++ first ++ before.text) ++ ',' :: (after.text ++ write a ++ tailText write others) := by
      simp [tailText]
    have hcomma : ∀ t : Text, segments {} (',' :: t) = [] :: segments {} t := fun _ => rfl
    rw [hsplit, hundivided.segments_append, hscan, hcomma, List.modifyHead_cons, List.map_cons,
      List.append_nil, hfirst.trimmed.trim_between hgap before.blank, ih after.blank hother hothers]
    rfl

/-- A list falls apart into what was written into it. -/
theorem entries_of_isEntry {list : Listed α} (h : ∀ a ∈ list.toList, IsEntry (write a)) :
    entries (list.text write) = list.toList.map write := by
  obtain ⟨hfirst, hothers⟩ := List.forall_mem_cons.mp h
  have hmap := map_trim_segments allBlank_nil hfirst fun other hmem =>
    hothers other.2.2 (List.mem_map.mpr ⟨other, hmem, rfl⟩)
  rw [List.nil_append] at hmap
  rw [entries, Listed.text, hmap, Listed.toList, List.map_cons, List.map_map]
  rfl

end Grammar.Listed

/-! ## 5. Lists and entries -/

namespace Text

/-- **A list is its entries.** They are the trimmed segments between the
commas that separate, and nothing is lost between them; an entry has no
other entry than itself; and a list that is written from texts that are
their own only entries and close all they open is read as these texts. -/
theorem entries_exact (text : Text) :
    (∃ pieces : List Text, pieces ≠ [] ∧ [','].intercalate pieces = text ∧
      entries text = pieces.map trim ∧
      ∀ position, position ∈ joints 0 pieces ↔ SeparatesAt text position) ∧
    (∀ entry ∈ entries text, entries entry = [entry]) ∧
    ∀ list : Listed Text,
      (∀ entry ∈ list.toList, entries entry = [entry] ∧ Closed entry ∧ depthAfter entry = 0) →
        entries (list.text id) = list.toList := by
  refine ⟨⟨segments {} text, segments_ne_nil {} text, intercalate_segments {} text, rfl, ?_⟩, ?_, ?_⟩
  · intro position
    rw [mem_joints_segments_iff, separatesAt_iff]
    constructor
    · rintro ⟨n, c, rfl, hc, hseparates⟩
      rw [Nat.zero_add]
      exact ⟨c, hc, hseparates⟩
    · rintro ⟨c, hc, hseparates⟩
      exact ⟨position, c, (Nat.zero_add position).symm, hc, hseparates⟩
  · intro entry hmem
    exact entries_of_mem_entries hmem
  · intro list hlist
    have hentries : entries (list.text id) = list.toList.map id :=
      Listed.entries_of_isEntry fun a ha => isEntry_iff.mpr (hlist a ha)
    rw [hentries, List.map_id]

/-- Commas inside parentheses and literals separate nothing, and a
parenthesis inside a literal opens nothing. -/
theorem entries_exact_nested :
    (∀ entry ∈ ["f(a,b)".toList, "'c,('".toList, []],
      entries entry = [entry] ∧ Closed entry ∧ depthAfter entry = 0) ∧
    entries "f(a,b) ,\t'c,(',".toList = ["f(a,b)".toList, "'c,('".toList, []] := by
  have hentries : ∀ entry ∈ ["f(a,b)".toList, "'c,('".toList, []],
      entries entry = [entry] ∧ Closed entry ∧ depthAfter entry = 0 := by
    decide +kernel
  obtain ⟨-, -, hread⟩ := entries_exact "f(a,b) ,\t'c,(',".toList
  exact ⟨hentries, hread ⟨"f(a,b)".toList, [(⟨" ".toList, by decide⟩, ⟨"\t".toList, by decide⟩,
    "'c,('".toList), (⟨[], by decide⟩, ⟨[], by decide⟩, [])]⟩ hentries⟩

end Text

end SelectOutline
