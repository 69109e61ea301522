/-
SelectOutline.Json — JSON values, their compact text and the reading of
their parts.

Members keep their order, which the text shows. Of the numbers only
those written as plain natural numbers have a meaning here; any other
one is kept as it is written.
-/
import SelectOutline.Text.Basic

namespace SelectOutline

/-- A JSON value. -/
inductive Json where
  | null
  | bool (value : Bool)
  /-- A number written with digits alone. -/
  | nat (value : Nat)
  /-- Any other number, as it is written. -/
  | number (literal : String)
  | str (value : String)
  | arr (items : List Json)
  | obj (members : List (String × Json))

namespace Json

/-! ## 1. Text -/

/-- A hexadecimal digit in lower case. -/
def hexDigit (digit : Nat) : Char :=
  if digit < 10 then Char.ofNat (0x30 + digit) else Char.ofNat (0x57 + digit)

/-- A character of a string as it is written. Quotes, backslashes and
control characters are escaped, all others stand for themselves. -/
def escapeChar (c : Char) : Text :=
  if c = '"' then ['\\', '"']
  else if c = '\\' then ['\\', '\\']
  else if c = '\x08' then ['\\', 'b']
  else if c = '\x0c' then ['\\', 'f']
  else if c = '\n' then ['\\', 'n']
  else if c = '\r' then ['\\', 'r']
  else if c = '\t' then ['\\', 't']
  else if c.toNat < 0x20 then
    ['\\', 'u', '0', '0', hexDigit (c.toNat / 0x10), hexDigit (c.toNat % 0x10)]
  else [c]

/-- A string as it is written, with the quotes around it. -/
def quote (value : String) : String :=
  String.ofList ('"' :: value.toList.flatMap escapeChar ++ ['"'])

mutual

/-- The text of a value, without blanks between its parts. -/
def render : Json → String
  | null => "null"
  | bool true => "true"
  | bool false => "false"
  | nat value => value.repr
  | number literal => literal
  | str value => quote value
  | arr items => "[" ++ renderItems items ++ "]"
  | obj members => "\x7b" ++ renderMembers members ++ "\x7d"

/-- The text of the items of an array. -/
def renderItems : List Json → String
  | [] => ""
  | [item] => render item
  | item :: next :: items => render item ++ "," ++ renderItems (next :: items)

/-- The text of the members of an object. -/
def renderMembers : List (String × Json) → String
  | [] => ""
  | [(key, value)] => quote key ++ ":" ++ render value
  | (key, value) :: next :: members =>
    quote key ++ ":" ++ render value ++ "," ++ renderMembers (next :: members)

end

/-! ## 2. Making values -/

/-- A text as a string value. -/
def ofText (text : Text) : Json :=
  .str (String.ofList text)

/-- A list as an array. -/
def ofList {α : Type} (encode : α → Json) (items : List α) : Json :=
  .arr (items.map encode)

/-- A value that may be absent, as `null` when it is. -/
def ofOption {α : Type} (encode : α → Json) : Option α → Json
  | none => .null
  | some value => encode value

/-! ## 3. Reading parts -/

/-- The text of a string value. -/
def text? : Json → Option Text
  | str value => some value.toList
  | _ => none

/-- The truth value of a Boolean. -/
def bool? : Json → Option Bool
  | bool value => some value
  | _ => none

/-- A natural number that fits into 64 bits. -/
def uint64? : Json → Option UInt64
  | nat value => if fits : value < UInt64.size then some (UInt64.ofNatLT value fits) else none
  | _ => none

/-- The items of an array, if all of them can be read. -/
def list? {α : Type} (decode : Json → Option α) : Json → Option (List α)
  | arr items => items.mapM decode
  | _ => none

/-- The value of a member of an object. -/
def member? (json : Json) (key : String) : Option Json :=
  match json with
  | obj members => members.lookup key
  | _ => none

/-- A member that has to be there and to be readable. -/
def required {α : Type} (json : Json) (key : String) (decode : Json → Option α) : Option α :=
  (json.member? key).bind decode

/-- A member that may be missing or `null`, and has to be readable
otherwise. -/
def optional {α : Type} (json : Json) (key : String) (decode : Json → Option α) :
    Option (Option α) :=
  match json.member? key with
  | none => some none
  | some null => some none
  | some value => (decode value).map some

end Json

end SelectOutline
