/-
SelectOutline.Proofs.Uppercase — upper case is reached in one step.

The upper case of a character consists of characters that are their own
upper case, so that taking the upper case twice is the same as taking it
once. For a run of the table this is a matter of ranges: the images of a
run and the characters that some run starts from do not overlap, or they
are interleaved and of different parity (`CaseRun.apart`).

No character that is not blank has a blank in its upper case
(`isBlank_of_mem_upper`): the images of the runs lie beside the ranges of
the blanks.
-/
import SelectOutline.Proofs.Spelling

namespace SelectOutline.Text

/-! ## 1. Runs -/

/-- A character that is its own upper case. -/
abbrev Settled (c : Char) : Prop :=
  upperChar c = [c]

theorem CaseRun.covers_iff {run : CaseRun} {code : Nat} :
    run.covers code = true ↔
      run.first ≤ code ∧ code ≤ run.last ∧ (code - run.first) % run.step = 0 := by
  simp [covers, and_assoc]

/-- No image of `run` is one of the characters that `other` starts from:
the two lie apart, or they alternate. -/
def CaseRun.apart (run other : CaseRun) : Bool :=
  Nat.blt (run.image + (run.last - run.first)) other.first || Nat.blt other.last run.image ||
    (run.step == 2 || run.first == run.last) && other.step == 2 &&
      (run.image + other.first) % 2 == 1

theorem CaseRun.covers_image {run other : CaseRun} (h : run.apart other = true) {code : Nat}
    (hcode : run.covers code = true) :
    other.covers (run.image + (code - run.first)) = false := by
  obtain ⟨hfirst, hlast, hstep⟩ := covers_iff.mp hcode
  rw [Bool.eq_false_iff]
  intro hcovers
  obtain ⟨hfirst', hlast', hstep'⟩ := covers_iff.mp hcovers
  simp only [apart, Bool.or_eq_true, Bool.and_eq_true, Nat.blt_eq, beq_iff_eq] at h
  rcases h with (h | h) | ⟨⟨hsingle, htwo⟩, hparity⟩
  · omega
  · omega
  · rw [htwo] at hstep'
    -- An even distance from `run.image` is an odd one from `other.first`.
    have heven : (code - run.first) % 2 = 0 := by
      rcases hsingle with h | h
      · rwa [h] at hstep
      · omega
    omega

/-- The lower-case letters of ASCII. -/
def asciiRun : CaseRun := ⟨0x61, 0x7A, 1, 0x41⟩

/-- All that is not its own upper case, as runs. -/
def unsettledRuns : List CaseRun :=
  asciiRun :: expandingCases.map (fun entry => ⟨entry.1, entry.1, 1, entry.1⟩) ++ caseRuns

theorem apart_unsettledRuns :
    ∀ other ∈ unsettledRuns, ∀ run ∈ caseRuns, run.apart other = true := by
  simp only [← List.all_eq_true]
  decide +kernel

/-! ## 2. Characters -/

theorem asciiRun_covers {c : Char} (h : c.isLower = true) :
    asciiRun.covers c.toNat = true :=
  CaseRun.covers_iff.mpr ⟨(isLower_bounds h).1, (isLower_bounds h).2, Nat.mod_one _⟩

/-- What no run covers is its own upper case. -/
theorem settled_of_not_covers {c : Char}
    (h : ∀ run ∈ unsettledRuns, run.covers c.toNat = false) : Settled c := by
  have hlookup : expandingCases.lookup c.toNat = none := by
    rw [List.lookup_eq_none_iff]
    intro entry hmem
    have hentry : (CaseRun.mk entry.1 entry.1 1 entry.1).covers c.toNat = false := by
      apply h
      simp only [unsettledRuns, List.cons_append, List.mem_cons, List.mem_append]
      exact .inr (.inl (List.mem_map_of_mem hmem))
    rw [bne_iff_ne]
    intro heq
    rw [CaseRun.covers_iff.mpr ⟨Nat.le_of_eq heq.symm, Nat.le_of_eq heq, Nat.mod_one _⟩] at hentry
    cases hentry
  have hfind : caseRuns.find? (·.covers c.toNat) = none := by
    rw [List.find?_eq_none]
    intro run hmem
    rw [h run (by simp [unsettledRuns, hmem])]
    exact Bool.noConfusion
  have hlower : ¬ c.isLower = true := by
    intro hc
    have := h asciiRun (by simp [unsettledRuns])
    rw [asciiRun_covers hc] at this
    cases this
  simp only [Settled, upperChar, hlookup, hfind, toUpper_of_not_isLower hlower, ite_self]

theorem settled_ascii : ∀ code < 0x80, ∀ d ∈ upperChar (Char.ofNat code), Settled d := by
  decide +kernel

theorem settled_expanding :
    ∀ entry ∈ expandingCases, entry.2 ≠ [] ∧ ∀ code ∈ entry.2, Settled (Char.ofNat code) := by
  decide +kernel

/-- Where no character has a code, NUL stands for it. -/
theorem toNat_ofNat_or_nul (code : Nat) :
    (Char.ofNat code).toNat = code ∨ Char.ofNat code = '\x00' := by
  by_cases hvalid : code.isValidChar
  · rw [Char.ofNat, dif_pos hvalid]
    exact .inl rfl
  · rw [Char.ofNat, dif_neg hvalid]
    exact .inr rfl

/-- The image of a run is its own upper case; where there is no such
character, it is NUL. -/
theorem settled_image {run : CaseRun} (hmem : run ∈ caseRuns) {code : Nat}
    (hcode : run.covers code = true) : Settled (Char.ofNat (run.image + (code - run.first))) := by
  rcases toNat_ofNat_or_nul (run.image + (code - run.first)) with hnat | hnul
  · apply settled_of_not_covers
    intro other hother
    rw [hnat]
    exact CaseRun.covers_image (apart_unsettledRuns other hother run hmem) hcode
  · rw [hnul]
    decide +kernel

theorem mem_of_lookup_eq_some {α β : Type} [BEq α] [LawfulBEq α] {l : List (α × β)} {a : α} {b : β}
    (h : l.lookup a = some b) : (a, b) ∈ l := by
  obtain ⟨u, v, rfl, -⟩ := List.lookup_eq_some_iff.mp h
  simp

/-- A character has an upper case, and all of it is settled. -/
theorem upperChar_settled (c : Char) : upperChar c ≠ [] ∧ ∀ d ∈ upperChar c, Settled d := by
  by_cases hascii : c.toNat < 0x80
  · refine ⟨by simp [upperChar, hascii], ?_⟩
    have := settled_ascii c.toNat hascii
    rwa [Char.ofNat_toNat] at this
  cases hlookup : expandingCases.lookup c.toNat with
  | some codes =>
    obtain ⟨hne, hcodes⟩ := settled_expanding _ (mem_of_lookup_eq_some hlookup)
    simp only [upperChar, if_neg hascii, hlookup]
    exact ⟨by simpa using hne, by simpa using hcodes⟩
  | none =>
    cases hfind : caseRuns.find? (·.covers c.toNat) with
    | some run =>
      have hcovers : run.covers c.toNat = true := by simpa using List.find?_some hfind
      simp only [upperChar, if_neg hascii, hlookup, hfind, List.mem_singleton, forall_eq]
      exact ⟨by simp, settled_image (List.mem_of_find?_eq_some hfind) hcovers⟩
    | none =>
      have hself : upperChar c = [c] := by
        simp only [upperChar, if_neg hascii, hlookup, hfind]
      rw [hself]
      exact ⟨by simp, by simpa using hself⟩

/-! ## 3. Texts -/

theorem upper_of_settled {text : Text} (h : ∀ c ∈ text, Settled c) : upper text = text := by
  induction text with
  | nil => rfl
  | cons c rest ih =>
    rw [upper, List.flatMap_cons, h c (by simp)]
    exact congrArg (c :: ·) (ih fun d hd => h d (by simp [hd]))

/-- Upper case is idempotent. -/
theorem upper_upper (text : Text) : upper (upper text) = upper text := by
  apply upper_of_settled
  intro d hd
  obtain ⟨c, -, hc⟩ := List.mem_flatMap.mp hd
  exact (upperChar_settled c).2 d hc

theorem upper_ne_nil {text : Text} (h : text ≠ []) : upper text ≠ [] := by
  obtain ⟨c, rest, rfl⟩ := List.exists_cons_of_ne_nil h
  rw [upper, List.flatMap_cons]
  exact List.append_ne_nil_of_left_ne_nil (upperChar_settled c).1 _

/-! ## 4. Blanks -/

/-- No image of the run lies in one of the ranges. -/
def CaseRun.misses (run : CaseRun) (ranges : List (Nat × Nat)) : Bool :=
  ranges.all fun range =>
    Nat.blt (run.image + (run.last - run.first)) range.1 || Nat.blt range.2 run.image

theorem misses_blankRanges : ∀ run ∈ caseRuns, run.misses blankRanges = true := by
  simp only [← List.all_eq_true]
  decide +kernel

theorem isBlank_ascii : ∀ code < 0x80, isBlank (Char.ofNat code) = false →
    isBlank (Char.ofNat code).toUpper = false := by
  decide +kernel

theorem isBlank_expanding :
    ∀ entry ∈ expandingCases, ∀ code ∈ entry.2, isBlank (Char.ofNat code) = false := by
  decide +kernel

/-- The image of a run is no blank; where there is no such character, it
is NUL. -/
theorem isBlank_image {run : CaseRun} (hmem : run ∈ caseRuns) {code : Nat}
    (hcode : run.covers code = true) :
    isBlank (Char.ofNat (run.image + (code - run.first))) = false := by
  rcases toNat_ofNat_or_nul (run.image + (code - run.first)) with hnat | hnul
  · have hlast := (CaseRun.covers_iff.mp hcode).2.1
    rw [Bool.eq_false_iff]
    intro hblank
    obtain ⟨range, hrange, hlow, hhigh⟩ := inRanges_iff.mp hblank
    rw [hnat] at hlow hhigh
    have hmisses := List.all_eq_true.mp (misses_blankRanges run hmem) range hrange
    simp only [Bool.or_eq_true, Nat.blt_eq] at hmisses
    omega
  · rw [hnul]
    decide +kernel

/-- The upper case of a character that is no blank holds none. -/
theorem isBlank_of_mem_upperChar {c d : Char} (hc : isBlank c = false) (hd : d ∈ upperChar c) :
    isBlank d = false := by
  unfold upperChar at hd
  split at hd
  · next hascii =>
    obtain rfl := List.mem_singleton.mp hd
    have := isBlank_ascii c.toNat hascii
    rw [Char.ofNat_toNat] at this
    exact this hc
  · split at hd
    · next codes hlookup =>
      obtain ⟨code, hcode, rfl⟩ := List.mem_map.mp hd
      exact isBlank_expanding _ (mem_of_lookup_eq_some hlookup) code hcode
    · split at hd
      · next run hfind =>
        obtain rfl := List.mem_singleton.mp hd
        exact isBlank_image (List.mem_of_find?_eq_some hfind) (by simpa using List.find?_some hfind)
      · obtain rfl := List.mem_singleton.mp hd
        exact hc

theorem isBlank_of_mem_upper {text : Text} (h : ∀ c ∈ text, isBlank c = false) :
    ∀ d ∈ upper text, isBlank d = false := by
  intro d hd
  obtain ⟨c, hmem, hc⟩ := List.mem_flatMap.mp hd
  exact isBlank_of_mem_upperChar (h c hmem) hc

end SelectOutline.Text
