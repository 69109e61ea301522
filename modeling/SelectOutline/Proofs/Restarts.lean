/-
SelectOutline.Proofs.Restarts — searches that begin anew see what one scan
sees.

The loops over keywords look for the first one, and then look again from
where it ends. Each search forgets that there was one before it: it takes
its own start to lie outside literals, and looks for a blank at what happens
to stand in front of it. `Restarts` is that chain of searches, up to the one
that finds nothing.

For the keywords of a query (`searchedFor`) nothing of this is to be seen in
the hits. A keyword has letters, so that every search begins further on than
the one before it and the chain ends (`restarts_iff`). It has no quotes, so
that its end is outside literals if its beginning is; and it needs a blank
on either side, and no later word of one begins as another does, so that two
of them never overlap. The hits are therefore the places outside the
literals of the whole text at which one of the keywords is seen
(`restarts_exact`).
-/
import SelectOutline.Proofs.Positions

namespace SelectOutline

open Text

/-! ## 1. Keywords that are searched for -/

namespace Keyword

/-- The keywords that are searched for, those of one search in a list. -/
def searchedFor : List (List Keyword) :=
  [kwJoins, kwConnectives, [kwFrom], [kwOn], [kwWhere], [kwGroupBy], [kwOrderBy], [kwLimit],
    [kwLike]]

theorem separate_of_mem {keywords : List Keyword} (h : keywords ∈ searchedFor) :
    Separate keywords := by
  simp only [searchedFor, List.mem_cons, List.not_mem_nil, or_false] at h
  rcases h with rfl | rfl | rfl | rfl | rfl | rfl | rfl | rfl | rfl
  · exact separate_joins
  · exact separate_connectives
  · exact regular_from.separate (by decide)
  · exact separate_on
  · exact regular_where.separate (by decide)
  · exact regular_groupBy.separate (by decide)
  · exact regular_orderBy.separate (by decide)
  · exact separate_limit
  · exact regular_like.separate (by decide)

/-! ## 2. The chain of searches -/

/-- The hits of searches that begin anew: the first search begins at
`start`, each further one where the hit before it ends, and the last one
finds nothing. -/
inductive Restarts (keywords : List Keyword) (text : Text) : (start : Nat) → List Hit → Prop
  | finish {start : Nat} (h : find keywords text start = none) : Restarts keywords text start []
  | again {start : Nat} {hit : Hit} {hits : List Hit} (h : find keywords text start = some hit)
      (rest : Restarts keywords text hit.stop hits) : Restarts keywords text start (hit :: hits)

variable {keywords : List Keyword} {text : Text} {start : Nat} {hits : List Hit}

/-- Every search finds one thing, so that there is one chain at most. -/
theorem Restarts.unique {hits' : List Hit} (h : Restarts keywords text start hits)
    (h' : Restarts keywords text start hits') : hits = hits' := by
  induction h generalizing hits' with
  | finish hnone =>
    cases h' with
    | finish _ => rfl
    | again hsome _ =>
      rw [hnone] at hsome
      cases hsome
  | again hsome _ ih =>
    cases h' with
    | finish hnone =>
      rw [hnone] at hsome
      cases hsome
    | again hsome' hrest =>
      obtain rfl := Option.some.inj (hsome.symm.trans hsome')
      rw [ih hrest]

/-- The chain ends, and its hits are those of the repeated search. -/
theorem restarts_iff (hk : ∀ keyword ∈ keywords, keyword.Regular) :
    Restarts keywords text start hits ↔ hits = findAll keywords text start := by
  have hchain : Restarts keywords text start (findAll keywords text start) :=
    findAll_induction (motive := Restarts keywords text) hk
      (fun _ hnone => .finish hnone) (fun _ _ hsome ih => .again hsome ih) start
  constructor
  · exact fun h => h.unique hchain
  · rintro rfl
    exact hchain

end Keyword

/-! ## 3. Hits and places -/

/-- What a hit says of its position: of the keywords that are seen there it
names the first, and it ends where that keyword does. -/
structure Hit.Reports (hit : Hit) (keywords : List Keyword) (text : Text) : Prop where
  listed : keywords[hit.index]? = some hit.keyword
  seen : ∃ length, hit.keyword.matchAt text hit.start = some length ∧ hit.stop = hit.start + length
  first : ∀ index < hit.index, ∀ keyword ∈ keywords[index]?,
    keyword.matchAt text hit.start = none

namespace Keyword

variable {keywords : List Keyword} {text : Text} {start : Nat}

/-- A repeated search reports the first keyword of each place. -/
theorem reports_of_mem_findAll (h : Separate keywords) {hit : Hit}
    (hmem : hit ∈ findAll keywords text start) : hit.Reports keywords text := by
  obtain ⟨before, spelled, after, hsplits, -, -, hindex⟩ := findAll_splits h.regular hmem
  have hfirst := firstHere_of_splits h.regular h.initials hsplits hindex
  have hplace : ∀ keyword : Keyword, keyword.matchAt text hit.start =
      keyword.matchHere before.getLast? (spelled ++ after) := by
    intro keyword
    rw [hsplits.text_eq, List.append_assoc, hsplits.start_eq, matchAt_append]
  obtain ⟨hstart, -, length, hmatch, hstop⟩ := firstHere_eq_some hfirst
  refine ⟨hindex, ⟨length, ?_, ?_⟩, ?_⟩
  · rw [hplace, hmatch]
  · rw [hstop, hstart]
  · intro index hlt keyword hkeyword
    rw [hplace]
    exact matchHere_of_firstHere hfirst hlt hkeyword

/-- The places of a repeated search are those at which one of the keywords
stands. -/
theorem exists_mem_findAll_iff (h : Separate keywords) {position : Nat} :
    (∃ hit ∈ findAll keywords text start, hit.start = position) ↔
      Stands keywords text start position := by
  rw [stands_iff_splits h.regular]
  constructor
  · rintro ⟨hit, hmem, hstart⟩
    obtain ⟨before, spelled, after, hsplits, hle, hclosed, hindex⟩ :=
      findAll_splits h.regular hmem
    exact ⟨hit, before, spelled, after, hsplits, hstart, List.mem_of_getElem? hindex, hle, hclosed⟩
  · rintro ⟨hit, before, spelled, after, hsplits, hstart, hmem, hle, hclosed⟩
    obtain ⟨index, hindex⟩ := List.mem_iff_getElem?.mp hmem
    have hsplits' := hsplits.withIndex index
    exact ⟨{ hit with index }, mem_findAll h hsplits' hindex hle hclosed, hstart⟩

/-- **Searches that begin anew see what one scan sees.** For the keywords of
any search of a query, the chain of searches from the start of a text ends,
with one list of hits. These stand in the order of the text, each position
once; they are the positions outside the literals of the whole text at which
one of the keywords is seen; and each of them names the first keyword that
is seen there and ends where it does. -/
theorem restarts_exact (h : keywords ∈ searchedFor) (text : Text) :
    (∀ hits, Restarts keywords text 0 hits ↔ hits = findAll keywords text 0) ∧
    (findAll keywords text 0).Pairwise (fun hit later => hit.start < later.start) ∧
    (∀ position, (∃ hit ∈ findAll keywords text 0, hit.start = position) ↔
      Closed (text.take position) ∧
        ∃ keyword ∈ keywords, (keyword.matchAt text position).isSome = true) ∧
    ∀ hit ∈ findAll keywords text 0, hit.Reports keywords text := by
  have hseparate := separate_of_mem h
  refine ⟨fun hits => restarts_iff hseparate.regular,
    findAll_pairwise hseparate.regular text 0, fun position => ?_,
    fun hit hmem => reports_of_mem_findAll hseparate hmem⟩
  rw [exists_mem_findAll_iff hseparate]
  constructor
  · rintro ⟨-, hclosed, hseen⟩
    exact ⟨hclosed, hseen⟩
  · rintro ⟨hclosed, hseen⟩
    exact ⟨Nat.zero_le position, hclosed, hseen⟩

/-- A join keyword in a literal is seen at its position, and no hit. -/
theorem restarts_exact_literal :
    kwJoins ∈ searchedFor ∧
    findAll kwJoins "t 'a INNER JOIN b' LEFT JOIN c RIGHT  JOIN d".toList 0 =
      [⟨19, 28, 1, kwLeftJoin⟩, ⟨31, 42, 2, kwRightJoin⟩] ∧
    (kwInnerJoin.matchAt "t 'a INNER JOIN b' LEFT JOIN c RIGHT  JOIN d".toList 5).isSome = true ∧
    ¬ ∃ hit ∈ findAll kwJoins "t 'a INNER JOIN b' LEFT JOIN c RIGHT  JOIN d".toList 0,
      hit.start = 5 := by
  have hmem : kwJoins ∈ searchedFor := by decide
  obtain ⟨hchain, -, hplaces, -⟩ :=
    restarts_exact hmem "t 'a INNER JOIN b' LEFT JOIN c RIGHT  JOIN d".toList
  have hhits : Restarts kwJoins "t 'a INNER JOIN b' LEFT JOIN c RIGHT  JOIN d".toList 0
      [⟨19, 28, 1, kwLeftJoin⟩, ⟨31, 42, 2, kwRightJoin⟩] :=
    .again (by decide +kernel) (.again (by decide +kernel) (.finish (by decide +kernel)))
  refine ⟨hmem, ((hchain _).mp hhits).symm, by decide +kernel, ?_⟩
  rw [hplaces 5]
  rintro ⟨hclosed, -⟩
  revert hclosed
  decide

end Keyword

end SelectOutline
