/-
SelectOutline.Proofs.SingleCondition — what one condition means.

A condition is read by two searches, one for the word `LIKE` and one for a
symbol, each with its own track of the literals. Here its meaning is said
without them (`Condition.Reads`): the first `LIKE` outside literals
separates a field from a pattern, and without one it is the first symbol
outside literals, the longest that begins there, that separates a field
from a value. `Condition.parse_reads` shows that nothing else is read.

Much of the reader is never used. The text of a condition is trimmed, and
`LIKE` needs a blank on either side, so that there is always a field
before it and a pattern behind it; a symbol lacks one of its sides only if
it stands at an end of the text. And each symbol that is found spells an
operator.
-/
import SelectOutline.Proofs.Likeness
import SelectOutline.Proofs.Phrases
import SelectOutline.Proofs.WellFormed

namespace SelectOutline

open Text

/-! ## 1. Sides of a trimmed text -/

theorem Text.StartsBare.trim_eq_nil_iff {text : Text} (h : StartsBare text) :
    trim text = [] ↔ text = [] := by
  rw [Text.trim_eq_nil_iff]
  constructor
  · intro hblank
    exact hblank.eq_nil_of_startsBare h
  · rintro rfl
    exact allBlank_nil

theorem Text.EndsBare.trim_eq_nil_iff {text : Text} (h : EndsBare text) :
    trim text = [] ↔ text = [] := by
  constructor
  · intro hnil
    by_contra hne
    exact trimStart_ne_nil h hne (trimStart_eq_nil_iff.mpr (Text.trim_eq_nil_iff.mp hnil))
  · rintro rfl
    rfl

/-- What stands before a place of a trimmed text is blank only at its
start. -/
theorem Text.Trimmed.trim_take_eq_nil_iff {text : Text} (h : Trimmed text) {position : Nat}
    (hlt : position < text.length) : trim (text.take position) = [] ↔ position = 0 := by
  have hstarts : StartsBare (text.take position) :=
    StartsBare.of_append (t := text.drop position) (by simpa using h.starts)
  have hne : text ≠ [] := List.ne_nil_of_length_pos (by omega)
  rw [hstarts.trim_eq_nil_iff, List.take_eq_nil_iff]
  simp [hne]

/-- What stands behind a place of a trimmed text is blank only at its
end. -/
theorem Text.Trimmed.trim_drop_eq_nil_iff {text : Text} (h : Trimmed text) {position : Nat} :
    trim (text.drop position) = [] ↔ text.length ≤ position := by
  have hends : EndsBare (text.drop position) :=
    EndsBare.of_append (s := text.take position) (by simpa using h.ends)
  rw [hends.trim_eq_nil_iff, List.drop_eq_nil_iff]

/-- A word between blanks stands at neither end of a trimmed text, so that
there is something on both sides of it. -/
theorem Text.Trimmed.sides_of_wordAt {word text : Text} (h : Trimmed text)
    (hword : Keyword.Lettered [word]) {position : Nat} (hat : wordAt word text position = true) :
    trim (text.take position) ≠ [] ∧ trim (text.drop (position + word.length)) ≠ [] := by
  have hphrase := wordAt_iff.mp hat
  obtain ⟨hlt, hstop⟩ := hphrase.bounds hword (by simp)
  have hzero : position ≠ 0 := by
    rintro rfl
    have hblank := hphrase.blank_before
    rw [charBefore] at hblank
    cases hblank
  constructor
  · rw [ne_eq, h.trim_take_eq_nil_iff (by omega)]
    exact hzero
  · rw [ne_eq, h.trim_drop_eq_nil_iff]
    omega

/-! ## 2. Symbols -/

namespace Comparison

/-- The symbols of the operators, two of them for `!=`. -/
inductive Sign : Text → Comparison → Prop
  | greaterOrEqual : Sign ">=".toList .greaterOrEqual
  | lessOrEqual : Sign "<=".toList .lessOrEqual
  | different : Sign "!=".toList .different
  | apart : Sign "<>".toList .different
  | equal : Sign "=".toList .equal
  | greater : Sign ">".toList .greater
  | less : Sign "<".toList .less

/-- The table of symbols has them all and no others. -/
theorem mem_symbols_iff {symbol : Text} {comparison : Comparison} :
    (symbol, comparison) ∈ symbols ↔ Sign symbol comparison := by
  constructor
  · intro h
    simp only [symbols, List.mem_cons, List.not_mem_nil, or_false, Prod.mk.injEq] at h
    rcases h with ⟨rfl, rfl⟩ | ⟨rfl, rfl⟩ | ⟨rfl, rfl⟩ | ⟨rfl, rfl⟩ | ⟨rfl, rfl⟩ | ⟨rfl, rfl⟩ |
      ⟨rfl, rfl⟩
    · exact .greaterOrEqual
    · exact .lessOrEqual
    · exact .different
    · exact .apart
    · exact .equal
    · exact .greater
    · exact .less
  · intro h
    cases h <;> decide

theorem mem_map_symbols_iff {symbol : Text} :
    symbol ∈ symbols.map (·.1) ↔ ∃ comparison, Sign symbol comparison := by
  simp [← mem_symbols_iff]

/-- A symbol of an operator stands at a position. -/
structure SymbolAt (text : Text) (position : Nat) (symbol : Text) : Prop where
  known : ∃ comparison, Sign symbol comparison
  stands : symbol <+: text.drop position

/-- The symbol that counts: the longest one at the first place outside
literals at which there is any. -/
structure FirstSymbol (text : Text) (position : Nat) (symbol : Text) : Prop where
  here : SymbolAt text position symbol
  closed : Closed (text.take position)
  longest : ∀ other, SymbolAt text position other → other.length ≤ symbol.length
  first : ∀ earlier < position, Closed (text.take earlier) →
    ∀ other, ¬ SymbolAt text earlier other

theorem FirstSymbol.unique {text symbol symbol' : Text} {position position' : Nat}
    (h : FirstSymbol text position symbol) (h' : FirstSymbol text position' symbol') :
    position = position' ∧ symbol = symbol' := by
  obtain rfl : position = position' := by
    rcases Nat.lt_trichotomy position position' with hlt | heq | hlt
    · exact absurd h.here (h'.first position hlt h.closed symbol)
    · exact heq
    · exact absurd h'.here (h.first position' hlt h'.closed symbol')
  have hlength : symbol.length = symbol'.length :=
    Nat.le_antisymm (h'.longest symbol h.here) (h.longest symbol' h'.here)
  exact ⟨rfl, (List.prefix_of_prefix_length_le h.here.stands h'.here.stands hlength.le).eq_of_length
    hlength⟩

/-- A longer symbol stands before a shorter one in the table. -/
theorem symbols_pairwise : symbols.Pairwise fun entry later => later.1.length ≤ entry.1.length := by
  decide

/-- Every symbol spells its operator. -/
theorem Sign.ofText?_eq {symbol : Text} {comparison : Comparison} (h : Sign symbol comparison) :
    ofText? symbol = some comparison := by
  cases h <;> decide

theorem Sign.unique {symbol : Text} {comparison comparison' : Comparison}
    (h : Sign symbol comparison) (h' : Sign symbol comparison') : comparison = comparison' :=
  Option.some.inj (h.ofText?_eq.symm.trans h'.ofText?_eq)

theorem ne_nil_of_mem_symbols : ∀ entry ∈ symbols, entry.1 ≠ [] := by
  decide

/-- The symbol that is seen at the start of a text. -/
def symbolHere (text : Text) : Option (Text × Comparison) :=
  symbols.find? (·.1.isPrefixOf text)

theorem symbolHere_eq_none_iff {text : Text} :
    symbolHere text = none ↔ ∀ symbol ∈ symbols.map (·.1), ¬ symbol <+: text := by
  simp [symbolHere, List.isPrefixOf_iff_prefix]

theorem symbolHere_drop_eq_none_iff {text : Text} {position : Nat} :
    symbolHere (text.drop position) = none ↔ ∀ symbol, ¬ SymbolAt text position symbol := by
  rw [symbolHere_eq_none_iff]
  constructor
  · intro hnone symbol hsymbol
    exact hnone symbol (mem_map_symbols_iff.mpr hsymbol.known) hsymbol.stands
  · intro hnone symbol hmem hstands
    exact hnone symbol ⟨mem_map_symbols_iff.mp hmem, hstands⟩

/-- Of several symbols that begin a text the longest is seen. -/
theorem symbolHere_eq_some {text symbol : Text} {comparison : Comparison}
    (h : symbolHere text = some (symbol, comparison)) :
    (symbol, comparison) ∈ symbols ∧ symbol <+: text ∧
      ∀ other ∈ symbols.map (·.1), other <+: text → other.length ≤ symbol.length := by
  obtain ⟨hbegins, before, after, hsplit, hnone⟩ := List.find?_eq_some_iff_append.mp h
  have hmem : (symbol, comparison) ∈ symbols := by simp [hsplit]
  refine ⟨hmem, List.isPrefixOf_iff_prefix.mp hbegins, ?_⟩
  intro other hother hstands
  obtain ⟨⟨other, comparison'⟩, hentry, rfl⟩ := List.mem_map.mp hother
  have hpairwise := symbols_pairwise
  rw [hsplit] at hentry hpairwise
  rcases List.mem_append.mp hentry with hentry | hentry
  · have hfits := List.isPrefixOf_iff_prefix.mpr hstands
    have := hnone _ hentry
    simp [hfits] at this
  rcases List.mem_cons.mp hentry with heq | hentry
  · exact (congrArg (·.1.length) heq).le
  · exact (List.pairwise_cons.mp (List.pairwise_append.mp hpairwise).2.1).1 _ hentry

/-- No symbol begins with a quote. -/
theorem symbolHere_quote {c : Char} (hc : isQuote c = true) (rest : Text) :
    symbolHere (c :: rest) = none := by
  rw [symbolHere_eq_none_iff]
  rintro symbol hmem ⟨after, hafter⟩
  obtain ⟨entry, hentry, rfl⟩ := List.mem_map.mp hmem
  obtain ⟨d, tail, hsymbol⟩ := List.exists_cons_of_ne_nil (ne_nil_of_mem_symbols entry hentry)
  have hquote := unquoted_of_mem_symbols entry hentry d (by simp [hsymbol])
  rw [hsymbol] at hafter
  obtain rfl := (List.cons.inj hafter).1
  rw [hc] at hquote
  cases hquote

/-- A search looks at each place outside literals. -/
theorem findFrom_cons (quoting : Quoting) (position : Nat) (c : Char) (rest : Text) :
    findFrom quoting position (c :: rest) =
      match if quoting = .outside then symbolHere (c :: rest) else none with
      | some (symbol, comparison) => some ⟨position, position + symbol.length, comparison⟩
      | none => findFrom (quoting.step c) (position + 1) rest := by
  have hsame : (if quoting.plain c then symbols.find? (·.1.isPrefixOf (c :: rest)) else none) =
      if quoting = .outside then symbolHere (c :: rest) else none := by
    by_cases hc : isQuote c = true
    · simp [Quoting.plain, hc, symbolHere_quote hc]
    · simp [Quoting.plain, hc, symbolHere]
  rw [← hsame]
  rfl

/-- What a search finds is the symbol at the first place outside literals
at which one is seen. -/
theorem findFrom_eq_some {quoting : Quoting} {position : Nat} {text : Text} {found : Found}
    (h : findFrom quoting position text = some found) :
    ∃ n symbol, found.start = position + n ∧ found.stop = position + n + symbol.length ∧
      quoting.scan (text.take n) = .outside ∧
      symbolHere (text.drop n) = some (symbol, found.comparison) ∧
      ∀ m < n, quoting.scan (text.take m) = .outside → symbolHere (text.drop m) = none := by
  induction text generalizing quoting position with
  | nil => cases h
  | cons c rest ih =>
    rw [findFrom_cons] at h
    split at h
    · next symbol comparison hhere =>
      obtain rfl := Option.some.inj h
      split at hhere
      · next hout =>
        refine ⟨0, symbol, rfl, rfl, hout, hhere, ?_⟩
        intro m hm
        cases hm
      · cases hhere
    · next hhere =>
      obtain ⟨n, symbol, hstart, hstop, hscan, hsymbol, hfirst⟩ := ih h
      refine ⟨n + 1, symbol, by omega, by omega, hscan, hsymbol, ?_⟩
      intro m hm hclosed
      cases m with
      | zero => simpa [show quoting = .outside from hclosed] using hhere
      | succ m => exact hfirst m (by omega) hclosed

theorem findFrom_eq_none {quoting : Quoting} {position : Nat} {text : Text}
    (h : findFrom quoting position text = none) (n : Nat)
    (hscan : quoting.scan (text.take n) = .outside) : symbolHere (text.drop n) = none := by
  induction text generalizing quoting position n with
  | nil =>
    rw [List.drop_nil]
    decide
  | cons c rest ih =>
    rw [findFrom_cons] at h
    split at h
    · cases h
    · next hhere =>
      cases n with
      | zero => simpa [show quoting = .outside from hscan] using hhere
      | succ n => exact ih h n hscan

/-- A search for a symbol finds the first one. -/
theorem firstSymbol_of_find {text : Text} {found : Found} (h : find text = some found) :
    ∃ symbol, FirstSymbol text found.start symbol ∧
      found.stop = found.start + symbol.length ∧ Sign symbol found.comparison := by
  obtain ⟨n, symbol, hstart, hstop, hscan, hsymbol, hfirst⟩ := findFrom_eq_some h
  obtain rfl : found.start = n := by omega
  obtain ⟨hmem, hbegins, hlongest⟩ := symbolHere_eq_some hsymbol
  have hsign := mem_symbols_iff.mp hmem
  refine ⟨symbol, ⟨⟨⟨_, hsign⟩, hbegins⟩, hscan, ?_, ?_⟩, by omega, hsign⟩
  · intro other hother
    exact hlongest other (mem_map_symbols_iff.mpr hother.known) hother.stands
  · intro earlier hlt hclosed
    exact symbolHere_drop_eq_none_iff.mp (hfirst earlier hlt hclosed)

theorem find_eq_none {text : Text} (h : find text = none) (position : Nat) (symbol : Text) :
    ¬ FirstSymbol text position symbol := by
  intro hfirst
  exact symbolHere_drop_eq_none_iff.mp (findFrom_eq_none h position hfirst.closed) symbol hfirst.here

/-- The first symbol is found. -/
theorem exists_find_of_firstSymbol {text symbol : Text} {position : Nat}
    (h : FirstSymbol text position symbol) :
    ∃ comparison, Sign symbol comparison ∧
      find text = some ⟨position, position + symbol.length, comparison⟩ := by
  cases hfind : find text with
  | none => exact absurd h (find_eq_none hfind position symbol)
  | some found =>
    obtain ⟨symbol', hfirst, hstop, hsign⟩ := firstSymbol_of_find hfind
    obtain ⟨rfl, rfl⟩ := h.unique hfirst
    refine ⟨found.comparison, hsign, ?_⟩
    rw [← hstop]

end Comparison

/-! ## 3. The meaning of a condition -/

namespace Condition

/-- A pattern without its first and its last character if there are two of
them and both are single quotes. -/
def withoutQuotes (pattern : Text) : Text :=
  if 2 ≤ pattern.length ∧ pattern.head? = some '\'' ∧ pattern.getLast? = some '\'' then
    (pattern.drop 1).dropLast
  else pattern

theorem unquote_eq_withoutQuotes (pattern : Text) : unquote pattern = withoutQuotes pattern := by
  match pattern with
  | [] => rfl
  | [c] =>
    by_cases hc : c = '\''
    · rw [hc]
      decide
    · simp [unquote, withoutQuotes, hc]
  | c :: d :: rest =>
    by_cases hc : c = '\''
    · simp [unquote, withoutQuotes, hc]
    · simp [unquote, withoutQuotes, hc]

/-- The word `LIKE`. -/
abbrev likeWord : Text := "LIKE".toList

/-- What a trimmed text means as a condition, by the places of words and
symbols in it. -/
inductive Reads (text : Text) (connective : Option Connective) : Except Fault Condition → Prop
  /-- The first `LIKE` outside literals has the field before it and the
  pattern behind it, whatever else stands there. -/
  | like {position : Nat} (first : FirstWord likeWord text position) :
    Reads text connective (.ok ⟨trim (text.take position), .like,
      withoutQuotes (trim (text.drop (position + likeWord.length))), connective⟩)
  /-- Without `LIKE`, the first symbol has the field before it and the value
  behind it. -/
  | compare {position : Nat} {symbol : Text} {comparison : Comparison}
    (plain : ∀ place, Closed (text.take place) → wordAt likeWord text place = false)
    (first : Comparison.FirstSymbol text position symbol) (starts : 0 < position)
    (ends : position + symbol.length < text.length)
    (sign : Comparison.Sign symbol comparison) :
    Reads text connective (.ok ⟨trim (text.take position), comparison,
      trim (text.drop (position + symbol.length)), connective⟩)
  /-- Every other text is refused. -/
  | malformed {fault : Fault}
    (plain : ∀ place, Closed (text.take place) → wordAt likeWord text place = false)
    (bare : ∀ position symbol, Comparison.FirstSymbol text position symbol →
      position = 0 ∨ text.length ≤ position + symbol.length)
    (kind : fault.kind = .criteria) (message : fault.message = "Invalid WHERE clause format")
    (whole : fault.text = text) :
    Reads text connective (.error fault)

theorem words_like : kwLike.words = [likeWord] := rfl

theorem lettered_likeWord : Keyword.Lettered [likeWord] := words_like ▸ regular_like.lettered

/-- A text with `LIKE` is read, whatever stands on its sides. -/
theorem outcome_parse_like {text : Text} {position : Nat}
    (h : FirstWord likeWord (trim text) position) (connective : Option Connective) :
    (parse text connective).outcome = .ok ⟨trim ((trim text).take position), .like,
      withoutQuotes (trim ((trim text).drop (position + likeWord.length))), connective⟩ := by
  have hfind := Keyword.find_of_firstWord regular_like words_like h
  obtain ⟨hfield, hpattern⟩ := (trimmed_trim text).sides_of_wordAt lettered_likeWord h.stands
  rw [outcome_parse, hfind]
  simp [hfield, hpattern, unquote_eq_withoutQuotes]

/-- A text whose first symbol has something on both sides is read. -/
theorem outcome_parse_compare {text symbol : Text} {position : Nat} {comparison : Comparison}
    (hplain : Keyword.find [kwLike] (trim text) 0 = none)
    (h : Comparison.FirstSymbol (trim text) position symbol) (hstarts : 0 < position)
    (hends : position + symbol.length < (trim text).length)
    (hsign : Comparison.Sign symbol comparison) (connective : Option Connective) :
    (parse text connective).outcome = .ok ⟨trim ((trim text).take position), comparison,
      trim ((trim text).drop (position + symbol.length)), connective⟩ := by
  obtain ⟨comparison', hsign', hfind⟩ := Comparison.exists_find_of_firstSymbol h
  obtain rfl := hsign.unique hsign'
  have htrimmed := trimmed_trim text
  have hfield : trim ((trim text).take position) ≠ [] := by
    rw [ne_eq, htrimmed.trim_take_eq_nil_iff (by omega)]
    omega
  have hvalue : trim ((trim text).drop (position + symbol.length)) ≠ [] := by
    rw [ne_eq, htrimmed.trim_drop_eq_nil_iff]
    omega
  rw [outcome_parse, hplain, hfind]
  simp [hfield, hvalue]

/-- A text whose first symbol, if it has one, stands at an end of it is
refused. -/
theorem outcome_parse_malformed {text : Text}
    (hplain : Keyword.find [kwLike] (trim text) 0 = none)
    (hbare : ∀ position symbol, Comparison.FirstSymbol (trim text) position symbol →
      position = 0 ∨ (trim text).length ≤ position + symbol.length)
    (connective : Option Connective) :
    (parse text connective).outcome = .error (.malformedCondition (trim text)) := by
  rw [outcome_parse, hplain]
  cases hfind : Comparison.find (trim text) with
  | none => rfl
  | some found =>
    obtain ⟨symbol, hfirst, hstop, -⟩ := Comparison.firstSymbol_of_find hfind
    have hside : trim ((trim text).take found.start) = [] ∨
        trim ((trim text).drop found.stop) = [] := by
      rcases hbare _ _ hfirst with hzero | hlength
      · left
        rw [hzero]
        rfl
      · right
        rwa [(trimmed_trim text).trim_drop_eq_nil_iff, hstop]
    simp [hside]

/-- A condition is read as its meaning says. -/
theorem outcome_parse_of_reads {text : Text} {connective : Option Connective}
    {result : Except Fault Condition} (h : Reads (trim text) connective result) :
    (parse text connective).outcome = result := by
  cases h with
  | like first => exact outcome_parse_like first connective
  | compare plain first starts ends sign =>
    have hplain := (Keyword.find_word_eq_none_iff regular_like words_like).mpr plain
    exact outcome_parse_compare hplain first starts ends sign connective
  | malformed plain bare kind message whole =>
    have hplain := (Keyword.find_word_eq_none_iff regular_like words_like).mpr plain
    rw [outcome_parse_malformed hplain bare connective]
    rename_i fault
    cases fault with
    | malformedCondition text' =>
      rw [← whole]
      rfl
    | _ => cases kind

/-- Every text has a meaning. -/
theorem exists_reads (text : Text) (connective : Option Connective) :
    ∃ result, Reads text connective result := by
  cases hlike : Keyword.find [kwLike] text 0 with
  | some hit =>
    exact ⟨_, .like (Keyword.firstWord_of_find regular_like words_like hlike).1⟩
  | none =>
    have plain := (Keyword.find_word_eq_none_iff regular_like words_like).mp hlike
    by_cases hinside : ∃ position symbol, Comparison.FirstSymbol text position symbol ∧
        0 < position ∧ position + symbol.length < text.length
    · obtain ⟨position, symbol, hfirst, hstarts, hends⟩ := hinside
      obtain ⟨comparison, hsign⟩ := hfirst.here.known
      exact ⟨_, .compare plain hfirst hstarts hends hsign⟩
    · refine ⟨.error (.malformedCondition text), .malformed plain ?_ rfl rfl rfl⟩
      intro position symbol hfirst
      by_contra hsides
      exact hinside ⟨position, symbol, hfirst, by omega, by omega⟩

/-- What is read is what the text means. -/
theorem reads_outcome (text : Text) (connective : Option Connective) :
    Reads (trim text) connective (parse text connective).outcome := by
  obtain ⟨result, hreads⟩ := exists_reads (trim text) connective
  rwa [outcome_parse_of_reads hreads]

/-- **The meaning of one condition.** A text is read as the places of its
words and symbols say. `LIKE` always has something on both sides, each
symbol spells an operator, and neither a field nor a compared value is
ever empty. -/
theorem parse_reads (text : Text) (connective : Option Connective) :
    (∀ result, (parse text connective).outcome = result ↔
      Reads (trim text) connective result) ∧
    (∀ position, FirstWord likeWord (trim text) position →
      trim ((trim text).take position) ≠ [] ∧
        trim ((trim text).drop (position + likeWord.length)) ≠ []) ∧
    (∀ position symbol, Comparison.FirstSymbol (trim text) position symbol →
      ∃ comparison, Comparison.Sign symbol comparison ∧
        Comparison.ofText? symbol = some comparison) ∧
    ∀ condition, (parse text connective).outcome = .ok condition →
      condition.field ≠ [] ∧ (condition.comparison ≠ .like → condition.value ≠ []) := by
  refine ⟨?_, ?_, ?_, ?_⟩
  · intro result
    constructor
    · rintro rfl
      exact reads_outcome text connective
    · exact outcome_parse_of_reads
  · intro position hfirst
    exact (trimmed_trim text).sides_of_wordAt lettered_likeWord hfirst.stands
  · intro position symbol hfirst
    obtain ⟨comparison, hsign⟩ := hfirst.here.known
    exact ⟨comparison, hsign, hsign.ofText?_eq⟩
  · intro condition hparse
    have hwell := (wellFormed_of_parse hparse).1
    exact ⟨hwell.field_ne_nil, fun hlike => (hwell.value hlike).1⟩

/-- `LIKE` takes precedence over a symbol before it, and a symbol inside its
pattern is none. -/
example : (parse " a>b like '<=' ".toList (some .or)).outcome =
    .ok ⟨"a>b".toList, .like, "<=".toList, some .or⟩ := by
  decide +kernel

end Condition

end SelectOutline
