/-
SelectOutline.Proofs.Splitting — how a clause is split into conditions.

The reader of a clause looks for a connective, reads the condition before
it, and begins a new search behind it. What it reads is said here without
any search (`Criteria.pieces`): one scan of the whole text marks the places
outside literals at which `AND` or `OR` stands between blanks, and the
pieces are what stands between those places. `Criteria.parse_splits` shows
that the clause is read piece by piece, up to the first one that is no
condition. No place is lost or gained where a search begins anew, since the
hits of a repeated search are those of one scan (`Keyword.mem_findAll_iff`).
-/
import Mathlib.Data.List.Sort
import SelectOutline.Proofs.Grammar
import SelectOutline.Proofs.SingleCondition

namespace SelectOutline

open Text

/-! ## 1. Results in a row -/

section

variable {α β ε : Type} {f : α → Except ε β} {l : List α}

/-- A list of results is one result for each entry. -/
theorem mapM_eq_ok_iff {results : List β} :
    l.mapM f = .ok results ↔ List.Forall₂ (fun a b => f a = .ok b) l results := by
  induction l generalizing results with
  | nil => cases results <;> simp [pure, Except.pure]
  | cons a l ih =>
    rw [List.mapM_cons, List.forall₂_cons_left_iff]
    constructor
    · intro h
      obtain ⟨b, hb, h⟩ := Except.bind_eq_ok_iff.mp h
      obtain ⟨others, hothers, h⟩ := Except.bind_eq_ok_iff.mp h
      exact ⟨b, others, hb, ih.mp hothers, (Except.ok.inj h).symm⟩
    · rintro ⟨b, others, hb, hothers, rfl⟩
      exact Except.bind_eq_ok_iff.mpr
        ⟨b, hb, Except.bind_eq_ok_iff.mpr ⟨others, ih.mpr hothers, rfl⟩⟩

/-- A list of results fails with its first failure. -/
theorem mapM_eq_error_iff {e : ε} :
    l.mapM f = .error e ↔ ∃ earlier a later, l = earlier ++ a :: later ∧
      (∀ b ∈ earlier, ∃ result, f b = .ok result) ∧ f a = .error e := by
  induction l with
  | nil => simp [pure, Except.pure]
  | cons a l ih =>
    rw [List.mapM_cons, Except.bind_eq_error_iff]
    constructor
    · rintro (h | ⟨b, hb, h⟩)
      · exact ⟨[], a, l, rfl, by simp, h⟩
      · have hrest : l.mapM f = .error e := by
          rcases Except.bind_eq_error_iff.mp h with h | ⟨others, -, h⟩
          · exact h
          · cases h
        obtain ⟨earlier, a', later, rfl, hok, hfail⟩ := ih.mp hrest
        exact ⟨a :: earlier, a', later, rfl, List.forall_mem_cons.mpr ⟨⟨b, hb⟩, hok⟩, hfail⟩
    · rintro ⟨earlier, a', later, heq, hok, hfail⟩
      cases earlier with
      | nil =>
        obtain ⟨rfl, rfl⟩ := List.cons.inj heq
        exact .inl hfail
      | cons b earlier =>
        obtain ⟨rfl, rfl⟩ := List.cons.inj heq
        obtain ⟨⟨result, hresult⟩, hearlier⟩ := List.forall_mem_cons.mp hok
        refine .inr ⟨result, hresult, Except.bind_eq_error_iff.mpr (.inl ?_)⟩
        exact ih.mpr ⟨earlier, a', later, rfl, hearlier, hfail⟩

/-- A list has results exactly if each of its entries has one. -/
theorem exists_mapM_eq_ok_iff :
    (∃ results, l.mapM f = .ok results) ↔ ∀ a ∈ l, ∃ result, f a = .ok result := by
  induction l with
  | nil => simp [pure, Except.pure]
  | cons a l ih =>
    rw [List.mapM_cons, List.forall_mem_cons, ← ih]
    constructor
    · rintro ⟨results, h⟩
      obtain ⟨b, hb, h⟩ := Except.bind_eq_ok_iff.mp h
      obtain ⟨others, hothers, -⟩ := Except.bind_eq_ok_iff.mp h
      exact ⟨⟨b, hb⟩, others, hothers⟩
    · rintro ⟨⟨b, hb⟩, others, hothers⟩
      exact ⟨b :: others, Except.bind_eq_ok_iff.mpr
        ⟨b, hb, Except.bind_eq_ok_iff.mpr ⟨others, hothers, rfl⟩⟩⟩

end

/-! ## 2. The places of connectives -/

namespace Connective

/-- The word of a connective, in capital letters. -/
def word (connective : Connective) : Text :=
  connective.name.toList

/-- Its place in `kwConnectives`. -/
def index : Connective → Nat
  | and => 0
  | or => 1

theorem words_keyword (connective : Connective) : connective.keyword.words = [connective.word] := by
  cases connective <;> rfl

theorem ofIndex_index (connective : Connective) : ofIndex connective.index = connective := by
  cases connective <;> rfl

theorem getElem?_index (connective : Connective) :
    kwConnectives[connective.index]? = some connective.keyword := by
  cases connective <;> rfl

theorem regular_keyword (connective : Connective) : connective.keyword.Regular :=
  regular_connectives _ (List.mem_of_getElem? connective.getElem?_index)

theorem exists_of_getElem? {place : Nat} {keyword : Keyword}
    (h : kwConnectives[place]? = some keyword) :
    ∃ connective : Connective, connective.index = place ∧ connective.keyword = keyword := by
  rcases place with _ | _ | place
  · exact ⟨and, rfl, Option.some.inj h⟩
  · exact ⟨or, rfl, Option.some.inj h⟩
  · cases h

/-- The hit of a connective at a position. -/
def hit (position : Nat) (connective : Connective) : Hit :=
  ⟨position, position + connective.word.length, connective.index, connective.keyword⟩

/-- The connective that stands at a position, between blanks and outside
the literals of the whole text. -/
def at? (text : Text) (position : Nat) : Option Connective :=
  if Closed (text.take position) then
    [and, or].find? fun connective => wordAt connective.word text position
  else none

/-- The two connectives begin with different letters. -/
theorem unique_of_wordAt {text : Text} {position : Nat} {connective connective' : Connective}
    (h : wordAt connective.word text position = true)
    (h' : wordAt connective'.word text position = true) : connective = connective' := by
  have hhead := (wordAt_head? h (by cases connective <;> decide)).symm.trans
    (wordAt_head? h' (by cases connective' <;> decide))
  revert hhead
  cases connective <;> cases connective' <;> decide

theorem at?_eq_some_iff {text : Text} {position : Nat} {connective : Connective} :
    at? text position = some connective ↔
      Closed (text.take position) ∧ wordAt connective.word text position = true := by
  rw [at?]
  split
  · next hclosed =>
    constructor
    · intro h
      exact ⟨hclosed, by simpa using List.find?_some h⟩
    · rintro ⟨-, hat⟩
      cases hfind : [and, or].find? fun connective => wordAt connective.word text position with
      | some found =>
        rw [unique_of_wordAt hat (by simpa using List.find?_some hfind)]
      | none =>
        have := List.find?_eq_none.mp hfind connective (by cases connective <;> simp)
        exact absurd hat this
  · next hopen => simp [hopen]

theorem at?_eq_some_iff_splits {text : Text} {position : Nat} {connective : Connective} :
    at? text position = some connective ↔
      ∃ before spelled after, (hit position connective).Splits text before spelled after ∧
        Closed before := by
  rw [at?_eq_some_iff]
  constructor
  · rintro ⟨hclosed, hat⟩
    exact ⟨_, _, _, splits_of_wordAt connective.regular_keyword connective.words_keyword hat
      connective.index, hclosed⟩
  · rintro ⟨before, spelled, after, hsplits, hclosed⟩
    have htake : text.take position = before := hsplits.take_start
    rw [htake]
    exact ⟨hclosed, hsplits.wordAt connective.words_keyword⟩

end Connective

namespace Criteria

/-- The places of the connectives of a text, in their order. -/
def places (text : Text) : List (Nat × Connective) :=
  (List.range text.length).filterMap fun position => (Connective.at? text position).map (position, ·)

theorem mem_places_iff {text : Text} {position : Nat} {connective : Connective} :
    (position, connective) ∈ places text ↔ Connective.at? text position = some connective := by
  simp only [places, List.mem_filterMap, List.mem_range, Option.map_eq_some_iff, Prod.mk.injEq]
  constructor
  · rintro ⟨_, -, _, hat, rfl, rfl⟩
    exact hat
  · intro hat
    obtain ⟨before, spelled, after, hsplits, -⟩ := Connective.at?_eq_some_iff_splits.mp hat
    have hlt : position < text.length :=
      (hsplits.start_lt_stop connective.regular_keyword).trans hsplits.stop_le
    exact ⟨position, hlt, connective, hat, rfl, rfl⟩

theorem places_pairwise (text : Text) :
    (places text).Pairwise fun place later => place.1 < later.1 := by
  rw [places, List.pairwise_filterMap]
  refine List.pairwise_lt_range.imp ?_
  intro position later hlt place hplace place' hplace'
  obtain ⟨connective, -, rfl⟩ := Option.map_eq_some_iff.mp hplace
  obtain ⟨connective', -, rfl⟩ := Option.map_eq_some_iff.mp hplace'
  exact hlt

/-- A repeated search for connectives comes to their places and no
others. -/
theorem findAll_eq_map_places (text : Text) :
    Keyword.findAll kwConnectives text 0 =
      (places text).map fun place => place.2.hit place.1 := by
  have : Std.Irrefl fun hit later : Hit => hit.start < later.start := ⟨fun hit => by simp⟩
  have : Std.Antisymm fun hit later : Hit => hit.start < later.start :=
    ⟨fun hit later hlt hgt => absurd (hlt.trans hgt) (Nat.lt_irrefl _)⟩
  refine List.Pairwise.eq_of_mem_iff (Keyword.findAll_pairwise regular_connectives text 0)
    (List.pairwise_map.mpr (places_pairwise text)) ?_
  intro hit
  rw [Keyword.mem_findAll_iff separate_connectives]
  constructor
  · rintro ⟨before, spelled, after, hsplits, -, hclosed, hindex⟩
    obtain ⟨connective, hconnective, hkeyword⟩ := Connective.exists_of_getElem? hindex
    have hstop := hsplits.stop_eq_of_word (hkeyword ▸ connective.words_keyword)
    have hhit : connective.hit hit.start = hit := by
      rw [Connective.hit, ← hstop, hconnective, hkeyword]
    have hat := Connective.at?_eq_some_iff_splits.mpr
      ⟨before, spelled, after, hhit ▸ hsplits, hclosed⟩
    exact List.mem_map.mpr ⟨(hit.start, connective), mem_places_iff.mpr hat, hhit⟩
  · intro hmem
    obtain ⟨⟨position, connective⟩, hplace, rfl⟩ := List.mem_map.mp hmem
    obtain ⟨before, spelled, after, hsplits, hclosed⟩ :=
      Connective.at?_eq_some_iff_splits.mp (mem_places_iff.mp hplace)
    exact ⟨before, spelled, after, hsplits, Nat.zero_le _, hclosed, connective.getElem?_index⟩

/-! ## 3. The pieces of a clause -/

/-- A part of a clause that is read as one condition, and the connective
before it. -/
structure Piece where
  connective : Option Connective
  text : Text

/-- What the reader of conditions makes of a piece. -/
def Piece.outcome (piece : Piece) : Except Fault Condition :=
  (Condition.parse piece.text piece.connective).outcome

/-- The pieces of a text from `start` on, where `connective` stands before
the first of them. -/
def piecesFrom (text : Text) (start : Nat) (connective : Option Connective) :
    List (Nat × Connective) → List Piece
  | [] => [⟨connective, text.drop start⟩]
  | (position, next) :: places =>
    ⟨connective, slice text start position⟩ ::
      piecesFrom text (position + next.word.length) (some next) places

/-- The pieces of a text: what stands between its connectives. -/
def pieces (text : Text) : List Piece :=
  piecesFrom text 0 none (places text)

/-- The pieces have the connectives of the places between them. -/
theorem connectives_piecesFrom (text : Text) (start : Nat) (connective : Option Connective)
    (places : List (Nat × Connective)) :
    (piecesFrom text start connective places).map (·.connective) =
      connective :: places.map (some ·.2) := by
  induction places generalizing start connective with
  | nil => rfl
  | cons place places ih => simp [piecesFrom, ih]

theorem outcome_parseFrom_hits (text : Text) (start : Nat) (connective : Option Connective)
    (places : List (Nat × Connective)) :
    (parseFrom text start connective (places.map fun place => place.2.hit place.1)).outcome =
      (piecesFrom text start connective places).mapM Piece.outcome := by
  induction places generalizing start connective with
  | nil =>
    rw [List.map_nil, outcome_parseFrom_nil, piecesFrom, List.mapM_cons, List.mapM_nil]
    rfl
  | cons place places ih =>
    rw [List.map_cons, outcome_parseFrom_cons, Connective.hit, Connective.ofIndex_index, ih,
      piecesFrom, List.mapM_cons]
    rfl

/-- A clause is read piece by piece. -/
theorem outcome_parse_eq_mapM (text : Text) :
    (parse text).outcome = (pieces text).mapM Piece.outcome := by
  rw [parse, findAll_eq_map_places, outcome_parseFrom_hits, pieces]

/-- A piece that is no condition is refused as a whole. -/
theorem Piece.fault_eq {piece : Piece} {fault : Fault} (h : piece.outcome = .error fault) :
    fault.kind = .criteria ∧ fault.text = trim piece.text := by
  have hreads := Condition.reads_outcome piece.text piece.connective
  rw [Piece.outcome] at h
  rw [h] at hreads
  cases hreads with
  | malformed plain bare kind message whole => exact ⟨kind, whole⟩

/-- A condition keeps the connective of its piece. -/
theorem connectives_of_forall₂ {pieces : List Piece} {conditions : List Condition}
    (h : List.Forall₂ (fun piece condition => piece.outcome = .ok condition) pieces conditions) :
    conditions.map (·.connective) = pieces.map (·.connective) := by
  induction h with
  | nil => rfl
  | cons hfirst _ ih =>
    rw [List.map_cons, List.map_cons, ih, (Condition.wellFormed_of_parse hfirst).2]

/-- **A clause is split at its connectives.** It is read if each of its
pieces is a condition, and gives these conditions in their order, each with
the connective before it; else it is refused for the first piece that is no
condition. -/
theorem parse_splits (text : Text) :
    (∀ conditions, (parse text).outcome = .ok conditions ↔
      List.Forall₂ (fun piece condition => piece.outcome = .ok condition) (pieces text)
        conditions) ∧
    ((∃ conditions, (parse text).outcome = .ok conditions) ↔
      ∀ piece ∈ pieces text, ∃ condition, piece.outcome = .ok condition) ∧
    (∀ conditions, (parse text).outcome = .ok conditions →
      conditions.map (·.connective) = none :: (places text).map (some ·.2)) ∧
    (∀ fault, (parse text).outcome = .error fault ↔ ∃ earlier piece later,
      pieces text = earlier ++ piece :: later ∧
        (∀ other ∈ earlier, ∃ condition, other.outcome = .ok condition) ∧
        piece.outcome = .error fault ∧ fault.kind = .criteria ∧ fault.text = trim piece.text) := by
  rw [outcome_parse_eq_mapM]
  refine ⟨fun conditions => mapM_eq_ok_iff, exists_mapM_eq_ok_iff, ?_, ?_⟩
  · intro conditions h
    rw [connectives_of_forall₂ (mapM_eq_ok_iff.mp h), pieces, connectives_piecesFrom]
  · intro fault
    rw [mapM_eq_error_iff]
    constructor
    · rintro ⟨earlier, piece, later, hsplit, hearlier, hfault⟩
      exact ⟨earlier, piece, later, hsplit, hearlier, hfault, Piece.fault_eq hfault⟩
    · rintro ⟨earlier, piece, later, hsplit, hearlier, hfault, -⟩
      exact ⟨earlier, piece, later, hsplit, hearlier, hfault⟩

/-- Connectives that share a blank leave a piece without text between them,
and one inside a literal separates nothing. -/
example :
    (pieces "a = 1 and or b = ' OR ' Or c".toList).map (·.text) =
      ["a = 1 ".toList, " ".toList, " b = ' OR ' ".toList, " c".toList] := by
  decide +kernel

end Criteria

end SelectOutline
