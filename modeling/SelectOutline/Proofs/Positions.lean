/-
SelectOutline.Proofs.Positions — a repeated search finds every keyword.

Each search forgets the one before it, and still the hits of a repeated
search are those of one scan over the text: they are the places outside
literals at which a keyword stands between blanks (`mem_findAll_iff`), in
their order (`findAll_pairwise`). What makes this so is that a hit ends
outside literals and before the next keyword begins, so that nothing is
lost between two searches.
-/
import SelectOutline.Proofs.Search

namespace SelectOutline

open Text

namespace Keyword

variable {keywords : List Keyword} {text before spelled after : Text} {start : Nat} {hit : Hit}

section

variable (hk : ∀ keyword ∈ keywords, keyword.Regular)
include hk

/-- Where one of the keywords stands it is the one that is seen. -/
theorem firstHere_of_splits (hinitials : (keywords.map initial).Nodup)
    (h : hit.Splits text before spelled after)
    (hindex : keywords[hit.index]? = some hit.keyword) :
    firstHere keywords before.getLast? before.length (spelled ++ after) = some hit := by
  rw [firstHere_spelled hk hinitials hindex h.blank_before h.spells h.blank_after, ← h.stop_eq,
    ← h.start_eq]

/-- A search does not pass a keyword that stands outside literals. -/
theorem find_of_splits (hinitials : (keywords.map initial).Nodup)
    (h : hit.Splits text before spelled after)
    (hindex : keywords[hit.index]? = some hit.keyword) (hle : start ≤ before.length)
    (hclosed : Closed (before.drop start)) :
    ∃ found, find keywords text start = some found ∧ (found = hit ∨ found.start < hit.start) := by
  have hregular := hk _ (List.mem_of_getElem? hindex)
  have hfirst := firstHere_of_splits hk hinitials h hindex
  obtain ⟨c, rest, hspelled, -⟩ := h.spells.exists_initial hregular.lettered hregular.words_ne_nil
  have hquote : isQuote c = false :=
    h.spells.unquoted hregular.lettered c (by simp [hspelled])
  have hsplit : before = before.take start ++ before.drop start :=
    (List.take_append_drop start before).symm
  have hlength : (before.take start).length = start := by
    rw [List.length_take, Nat.min_eq_left hle]
  have htext : text = before.take start ++ (before.drop start ++ c :: (rest ++ after)) := by
    rw [← List.append_assoc, ← hsplit, h.text_eq, hspelled, List.append_assoc, List.cons_append]
  -- The search enters the text behind its first `start` characters.
  have hfind : find keywords text start = findFrom keywords .outside (before.take start).getLast?
      start (before.drop start ++ c :: (rest ++ after)) := by
    have happend := find_append keywords (before.take start)
      (before.drop start ++ c :: (rest ++ after))
    rwa [hlength, ← htext] at happend
  rw [hfind]
  refine findFrom_of_firstHere_append (Quoting.plain_iff.mpr ⟨hclosed, hquote⟩) ?_
  have hposition : start + (before.drop start).length = before.length := by
    rw [List.length_drop]
    omega
  rw [← List.getLast?_append, ← hsplit, hposition]
  rw [hspelled] at hfirst
  exact hfirst

/-- It stops there or before. -/
theorem exists_find_le_of_splits (hinitials : (keywords.map initial).Nodup)
    (h : hit.Splits text before spelled after)
    (hindex : keywords[hit.index]? = some hit.keyword) (hle : start ≤ before.length)
    (hclosed : Closed (before.drop start)) :
    ∃ found, find keywords text start = some found ∧ found.start ≤ hit.start := by
  obtain ⟨found, hfound, hplace⟩ := find_of_splits hk hinitials h hindex hle hclosed
  refine ⟨found, hfound, ?_⟩
  rcases hplace with rfl | hlt
  · exact Nat.le_refl _
  · exact hlt.le

end

/-- A repeated search comes to every keyword that stands outside
literals. -/
theorem mem_findAll (hk : Separate keywords) (h : hit.Splits text before spelled after)
    (hindex : keywords[hit.index]? = some hit.keyword) (hle : start ≤ before.length)
    (hclosed : Closed (before.drop start)) : hit ∈ findAll keywords text start := by
  revert hle hclosed
  refine findAll_induction (motive := fun start hits => start ≤ before.length →
    Closed (before.drop start) → hit ∈ hits) hk.regular ?_ ?_ start
  · intro start hnone hle hclosed
    obtain ⟨found, hfind, -⟩ := find_of_splits hk.regular hk.initials h hindex hle hclosed
    rw [hnone] at hfind
    cases hfind
  · intro start first hfirst ih hle hclosed
    obtain ⟨found, hfind, hfound⟩ := find_of_splits hk.regular hk.initials h hindex hle hclosed
    obtain rfl : first = found := Option.some.inj (hfirst.symm.trans hfind)
    rcases hfound with rfl | hlt
    · exact List.mem_cons_self
    -- The search goes on behind an earlier keyword, which ends outside literals.
    obtain ⟨before', spelled', after', hsplits, hle', hclosed', hindex'⟩ :=
      find_splits hk.regular hfind
    have hmem := List.mem_of_getElem? hindex'
    have hstop := hsplits.stop_lt_start hk h hmem (List.mem_of_getElem? hindex) hlt
    rw [h.start_eq] at hstop
    refine List.mem_cons_of_mem _ (ih hstop.le ?_)
    have hprefix : before' ++ spelled' <+: before := by
      refine List.prefix_of_prefix_length_le ⟨after', hsplits.text_eq.symm⟩
        ⟨spelled ++ after, ?_⟩ ?_
      · rw [h.text_eq, List.append_assoc]
      · rw [List.length_append, ← hsplits.stop_eq]
        exact hstop.le
    obtain ⟨middle, rfl⟩ := hprefix
    have hdrop : (before' ++ spelled' ++ middle).drop start =
        before'.drop start ++ spelled' ++ middle := by
      rw [List.append_assoc, List.drop_append_of_le_length hle', List.append_assoc]
    rw [hdrop, Closed,
      (hclosed'.append (hsplits.spells.unquoted (hk.regular _ hmem).lettered).closed).scan_append] at hclosed
    rw [hsplits.stop_eq, ← List.length_append, List.drop_left]
    exact hclosed

theorem mem_findAll_of_unquoted (hk : Separate keywords) (hquote : Unquoted text)
    (h : hit.Splits text before spelled after)
    (hindex : keywords[hit.index]? = some hit.keyword) (hle : start ≤ before.length) :
    hit ∈ findAll keywords text start :=
  mem_findAll hk h hindex hle (h.closed_drop hquote start)

/-- The hits of a repeated search are in the order of the text. -/
theorem findAll_pairwise (hk : ∀ keyword ∈ keywords, keyword.Regular) (text : Text) (start : Nat) :
    (findAll keywords text start).Pairwise fun hit later => hit.start < later.start := by
  refine findAll_induction (motive := fun _ hits => hits.Pairwise _) hk ?_ ?_ start
  · intro start _
    exact .nil
  · intro start hit hfind ih
    obtain ⟨before, spelled, after, hsplits, -, -, hindex⟩ := find_splits hk hfind
    have hlt := hsplits.start_lt_stop (hk _ (List.mem_of_getElem? hindex))
    refine .cons ?_ ih
    intro later hlater
    obtain ⟨before', _, _, hsplits', hle', -⟩ := findAll_splits hk hlater
    rw [hsplits'.start_eq]
    exact hlt.trans_le hle'

/-- **A repeated search is one scan.** Its hits are the keywords that
stand outside the literals that begin at or after its start. -/
theorem mem_findAll_iff (hk : Separate keywords) :
    hit ∈ findAll keywords text start ↔
      ∃ before spelled after, hit.Splits text before spelled after ∧ start ≤ before.length ∧
        Closed (before.drop start) ∧ keywords[hit.index]? = some hit.keyword := by
  constructor
  · exact findAll_splits hk.regular
  · rintro ⟨before, spelled, after, hsplits, hle, hclosed, hindex⟩
    exact mem_findAll hk hsplits hindex hle hclosed

end Keyword

end SelectOutline
