/-
SelectOutline.Proofs.Grammar — queries as they are written.

A `Query` is the tree of a written query: its names, literals and
operators, and with them every choice a writer has, that is the blanks
between the parts, the case of keywords and the spelling of operators.
`Query.text` writes it out. What a part means stands beside it, and is
said from the tree alone, without a reader.

The parts carry what makes them well formed. A name (`Atom`) is a run
of characters that mean nothing else and is no reserved word; an entry
of a list (`Item`) may also have parentheses that match, with all its
commas between them; a literal may hold anything but its quote.
-/
import SelectOutline.Outline.Parse
import SelectOutline.Proofs.Joins
import SelectOutline.Proofs.Reading

namespace SelectOutline

open Text

/-- The keyword of a connective. -/
def Connective.keyword : Connective → Keyword
  | and => kwAnd
  | or => kwOr

namespace Grammar

/-! ## 1. Blanks and keywords -/

/-- Blanks that may be missing. -/
structure Space where
  text : Text
  blank : AllBlank text

/-- Blanks, at least one. -/
structure Gap extends Space where
  ne_nil : text ≠ []

/-- A keyword in any case, with any blanks between its words. -/
structure Spelled (keyword : Keyword) where
  text : Text
  spells : Keyword.Spells keyword.words text

/-! ## 2. Names -/

/-- The words that are no names. -/
def reserved : List Text :=
  ["SELECT", "DISTINCT", "FROM", "INNER", "LEFT", "RIGHT", "JOIN", "ON", "WHERE", "GROUP", "ORDER",
   "BY", "LIMIT", "AND", "OR", "LIKE"].map String.toList

/-- A name: no blanks, quotes, commas, parentheses or characters of
operators, and not a reserved word in any case. -/
structure Atom where
  text : Text
  ne_nil : text ≠ []
  plain : ∀ c ∈ text, isBlank c = false ∧ isQuote c = false ∧ c ∉ [',', '(', ')', '=', '<', '>', '!']
  free : text.map Char.toUpper ∉ reserved

/-- Whether the parentheses of a text match, where `depth` of them are
open before it, and all its commas are between parentheses. -/
def balanced : (depth : Nat) → Text → Bool
  | depth, [] => depth == 0
  | depth, c :: rest =>
    if c = '(' then balanced (depth + 1) rest
    else if c = ')' then depth != 0 && balanced (depth - 1) rest
    else if c = ',' then depth != 0 && balanced depth rest
    else balanced depth rest

/-- An entry of a list. Without parentheses it has no commas either, and
is a name; with parentheses it is a call such as `COUNT(a,b)`. -/
structure Item where
  text : Text
  ne_nil : text ≠ []
  plain : ∀ c ∈ text, isBlank c = false ∧ isQuote c = false ∧ c ∉ ['=', '<', '>', '!']
  free : text.map Char.toUpper ∉ reserved
  closes : balanced 0 text = true

/-- A name of identifier characters. -/
structure Identifier extends Atom where
  chars : ∀ c ∈ text, isIdentifierChar c = true

/-- A table, perhaps with a second name: names with single spaces
between them. -/
structure Table where
  first : Atom
  others : List Atom

def Table.text (table : Table) : Text :=
  table.first.text ++ table.others.flatMap fun atom => ' ' :: atom.text

/-! ## 3. Lists -/

/-- A list with commas, and with the blanks before and after each. -/
structure Listed (α : Type) where
  first : α
  others : List (Space × Space × α)

namespace Listed

variable {α : Type}

def tailText (write : α → Text) (others : List (Space × Space × α)) : Text :=
  others.flatMap fun (before, after, a) => before.text ++ ',' :: (after.text ++ write a)

def text (write : α → Text) (list : Listed α) : Text :=
  write list.first ++ tailText write list.others

/-- The entries without the blanks around them. -/
def toList (list : Listed α) : List α :=
  list.first :: list.others.map fun (_, _, a) => a

end Listed

/-! ## 4. Conditions -/

/-- A value: a name, or any text in single quotes. -/
inductive Value where
  | atom (name : Atom)
  | literal (body : Text) (unquoted : '\'' ∉ body)

namespace Value

def text : Value → Text
  | .atom name => name.text
  | .literal body _ => '\'' :: body ++ ['\'']

/-- The value without its quotes. -/
def pattern : Value → Text
  | .atom name => name.text
  | .literal body _ => body

end Value

/-- A condition: a symbol may stand without blanks, `LIKE` may not. -/
inductive Test where
  | compare (field : Atom) (before : Space) (symbol : Text) (comparison : Comparison)
      (mem : (symbol, comparison) ∈ Comparison.symbols) (after : Space) (value : Value)
  | like (field : Atom) (before : Gap) (keyword : Spelled kwLike) (after : Gap) (value : Value)

namespace Test

def text : Test → Text
  | compare field before symbol _ _ after value =>
    field.text ++ (before.text ++ (symbol ++ (after.text ++ value.text)))
  | like field before keyword after value =>
    field.text ++ (before.text ++ (keyword.text ++ (after.text ++ value.text)))

/-- What the condition means. A symbol leaves the quotes of a literal
where they are. -/
def condition (connective : Option Connective) : Test → Condition
  | compare field _ _ comparison _ _ value =>
    ⟨field.text, comparison, value.text, connective⟩
  | like field _ _ _ value => ⟨field.text, .like, value.pattern, connective⟩

end Test

/-- A further condition and the word that ties it to the one before. -/
structure Link where
  before : Gap
  connective : Connective
  keyword : Spelled connective.keyword
  after : Gap
  test : Test

namespace Link

def text (link : Link) : Text :=
  link.before.text ++ (link.keyword.text ++ (link.after.text ++ link.test.text))

def condition (link : Link) : Condition :=
  link.test.condition (some link.connective)

end Link

/-! ## 5. Clauses -/

/-- A join. -/
structure JoinClause where
  before : Gap
  kind : JoinKind
  keyword : Spelled kind.keyword
  after : Gap
  table : Table
  onBefore : Gap
  on : Spelled kwOn
  onAfter : Gap
  left : Identifier
  equalsBefore : Space
  equalsAfter : Space
  right : Identifier

namespace JoinClause

def text (clause : JoinClause) : Text :=
  clause.before.text ++ (clause.keyword.text ++ (clause.after.text ++ (clause.table.text ++
    (clause.onBefore.text ++ (clause.on.text ++ (clause.onAfter.text ++ (clause.left.text ++
      (clause.equalsBefore.text ++ '=' :: (clause.equalsAfter.text ++ clause.right.text)))))))))

def join (clause : JoinClause) : Join :=
  ⟨clause.kind, clause.table.text, clause.left.text, clause.right.text⟩

end JoinClause

/-- Conditions with their connectives. -/
structure WhereClause where
  before : Gap
  keyword : Spelled kwWhere
  after : Gap
  first : Test
  others : List Link

namespace WhereClause

def body (clause : WhereClause) : Text :=
  clause.first.text ++ clause.others.flatMap Link.text

def text (clause : WhereClause) : Text :=
  clause.before.text ++ (clause.keyword.text ++ (clause.after.text ++ clause.body))

def conditions (clause : WhereClause) : List Condition :=
  clause.first.condition none :: clause.others.map Link.condition

end WhereClause

/-- Groups. -/
structure GroupClause where
  before : Gap
  keyword : Spelled kwGroupBy
  after : Gap
  list : Listed Item

namespace GroupClause

def text (clause : GroupClause) : Text :=
  clause.before.text ++ (clause.keyword.text ++ (clause.after.text ++ clause.list.text Item.text))

def groups (clause : GroupClause) : List Text :=
  clause.list.toList.map Item.text

end GroupClause

/-- A word that stands where a direction does: `ASC` or `DESC` in any case,
or another word, which is the direction itself. -/
inductive DirectionWord where
  | ascending (word : Atom) (means : upper word.text = "ASC".toList)
  | descending (word : Atom) (means : upper word.text = "DESC".toList)
  | other (word : Atom) (notAsc : upper word.text ≠ "ASC".toList)
      (notDesc : upper word.text ≠ "DESC".toList)

namespace DirectionWord

/-- The word as it is written. -/
def word : DirectionWord → Atom
  | ascending word _ => word
  | descending word _ => word
  | other word _ _ => word

/-- The direction that it stands for. -/
def direction : DirectionWord → Direction
  | ascending _ _ => .ascending
  | descending _ _ => .descending
  | other word _ _ => .other (upper word.text)

/-- Every name can stand there. -/
theorem exists_word (atom : Atom) : ∃ written : DirectionWord, written.word = atom := by
  by_cases hasc : upper atom.text = "ASC".toList
  · exact ⟨.ascending atom hasc, rfl⟩
  by_cases hdesc : upper atom.text = "DESC".toList
  · exact ⟨.descending atom hdesc, rfl⟩
  · exact ⟨.other atom hasc hdesc, rfl⟩

end DirectionWord

/-- A field to sort by and the word for the direction, if there is one. -/
structure SortEntry where
  item : Item
  direction : Option (Gap × DirectionWord)

namespace SortEntry

def directionText (direction : Option (Gap × DirectionWord)) : Text :=
  direction.elim [] fun (gap, written) => gap.text ++ written.word.text

def text (entry : SortEntry) : Text :=
  entry.item.text ++ directionText entry.direction

def key (entry : SortEntry) : SortKey where
  field := entry.item.text
  direction := entry.direction.elim .ascending fun (_, written) => written.direction

/-- The policy takes the direction of the entry. -/
def Admitted (policy : Policy) (entry : SortEntry) : Prop :=
  policy.directions = .lenient ∨ ∀ word, entry.key.direction ≠ .other word

end SortEntry

/-- Sort keys. -/
structure SortClause where
  before : Gap
  keyword : Spelled kwOrderBy
  after : Gap
  list : Listed SortEntry

namespace SortClause

def text (clause : SortClause) : Text :=
  clause.before.text ++ (clause.keyword.text ++ (clause.after.text ++
    clause.list.text SortEntry.text))

def keys (clause : SortClause) : List SortKey :=
  clause.list.toList.map SortEntry.key

end SortClause

/-- A limit of at most 64 bits, in decimal digits. -/
structure LimitClause where
  before : Gap
  keyword : Spelled kwLimit
  after : Gap
  digits : Text
  ne_nil : digits ≠ []
  decimal : ∀ c ∈ digits, isDigit c = true
  fits : decimalValue digits < UInt64.size

namespace LimitClause

def text (clause : LimitClause) : Text :=
  clause.before.text ++ (clause.keyword.text ++ (clause.after.text ++ clause.digits))

def value (clause : LimitClause) : UInt64 :=
  .ofNatLT (decimalValue clause.digits) clause.fits

end LimitClause

/-! ## 6. Queries -/

/-- The text of a clause that may be missing. -/
def optional {α : Type} (write : α → Text) (clause : Option α) : Text :=
  clause.elim [] write

/-- A written query. -/
structure Query where
  leading : Space
  select : Spelled kwSelect
  selectAfter : Gap
  distinct : Option (Spelled kwDistinct × Gap)
  fields : Listed Item
  fromBefore : Gap
  fromWord : Spelled kwFrom
  fromAfter : Gap
  table : Table
  join : Option JoinClause
  criteria : Option WhereClause
  groups : Option GroupClause
  sorting : Option SortClause
  limit : Option LimitClause
  trailing : Space

namespace Query

/-- The fields and the table. -/
def source (query : Query) : Text :=
  query.fields.text Item.text ++ (query.fromBefore.text ++ (query.fromWord.text ++
    (query.fromAfter.text ++ query.table.text)))

/-- All but the start of the query and its limit. -/
def body (query : Query) : Text :=
  query.source ++ optional JoinClause.text query.join ++
    optional WhereClause.text query.criteria ++ optional GroupClause.text query.groups ++
    optional SortClause.text query.sorting

def text (query : Query) : Text :=
  query.leading.text ++ (query.select.text ++ (query.selectAfter.text ++
    (optional (fun (word, gap) => word.text ++ gap.text) query.distinct ++
      (query.body ++ optional LimitClause.text query.limit)))) ++ query.trailing.text

/-- The start of the query when `DISTINCT` has been taken out. -/
def start (query : Query) : Text :=
  query.distinct.elim (query.select.text ++ query.selectAfter.text) fun _ => "SELECT ".toList

/-- The text in which aggregate calls are looked for: all up to the
groups. -/
def ungrouped (query : Query) : Text :=
  query.start ++ query.source ++ optional JoinClause.text query.join ++
    optional WhereClause.text query.criteria

/-- The policy takes all directions of the query. -/
def Admitted (policy : Policy) (query : Query) : Prop :=
  ∀ clause ∈ query.sorting, ∀ entry ∈ clause.list.toList, entry.Admitted policy

end Query

end Grammar

end SelectOutline
