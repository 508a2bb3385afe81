import PocketSql.Number.Shortest

/-!
# JSON

JSON values and their text, with one field or element a line and two spaces for each level. Names of
fields keep their order.
-/

namespace PocketSql

/-- A JSON value. A natural number is written digit by digit, a number as `Number.json` says. -/
inductive Json where
  | null
  | boolean (b : Bool)
  | natural (n : Nat)
  | number (x : Number)
  | string (s : String)
  | array (items : List Json)
  | object (fields : List (String × Json))
  deriving Inhabited

/-- A number in JSON. A whole number below `10 ^ 15` is written as an integer. Any other finite
number has the shortest digits that read back, in positional notation from `10 ^ (-5)` up to
`10 ^ 16`. There is no text for a NaN or an infinity, and `null` stands for it. -/
def Number.json (x : Number) : List Char :=
  if !x.isFinite then "null".toList
  else
    match x.whole? with
    | some n => (toString n).toList
    | none =>
      let d := x.shortest .toEven
      let unsigned :=
        if -5 ≤ d.leading && d.leading < 16 then d.positional ['.', '0'] else d.scientific
      if x.negative then '-' :: unsigned else unsigned

namespace Json

/-- A character between quotes. Quotes, backslashes and the control characters below U+0020 are
escaped. -/
def escaped (c : Char) : List Char :=
  match c with
  | '"' => ['\\', '"']
  | '\\' => ['\\', '\\']
  | '\n' => ['\\', 'n']
  | '\r' => ['\\', 'r']
  | '\t' => ['\\', 't']
  | '\x08' => ['\\', 'b']
  | '\x0c' => ['\\', 'f']
  | c =>
    if c.toNat < 0x20 then
      ['\\', 'u', '0', '0', Nat.digitChar (c.toNat / 16), Nat.digitChar (c.toNat % 16)]
    else [c]

/-- A text between quotes. -/
def quotedText (s : String) : List Char := '"' :: s.toList.flatMap escaped ++ ['"']

/-- A line break, and the indentation of a level. -/
def lineAt (level : Nat) : List Char := '\n' :: List.replicate (2 * level) ' '

mutual

/-- The text of a value that stands at a level of indentation. -/
def textAt (level : Nat) : Json → List Char
  | null => "null".toList
  | boolean b => if b then "true".toList else "false".toList
  | natural n => (toString n).toList
  | number x => x.json
  | string s => quotedText s
  | array [] => ['[', ']']
  | array (v :: items) =>
    '[' :: lineAt (level + 1) ++ textAt (level + 1) v ++ itemsAt (level + 1) items
      ++ lineAt level ++ [']']
  | object [] => ['\x7b', '\x7d']
  | object (field :: fields) =>
    '\x7b' :: lineAt (level + 1) ++ fieldAt (level + 1) field ++ fieldsAt (level + 1) fields
      ++ lineAt level ++ ['\x7d']

/-- The text of the elements after the first. -/
def itemsAt (level : Nat) : List Json → List Char
  | [] => []
  | v :: items => ',' :: lineAt level ++ textAt level v ++ itemsAt level items

/-- The text of a field. -/
def fieldAt (level : Nat) : String × Json → List Char
  | (name, v) => quotedText name ++ ':' :: ' ' :: textAt level v

/-- The text of the fields after the first. -/
def fieldsAt (level : Nat) : List (String × Json) → List Char
  | [] => []
  | field :: fields => ',' :: lineAt level ++ fieldAt level field ++ fieldsAt level fields

end

/-- The text of a value. -/
def text (v : Json) : String := String.ofList (v.textAt 0)

end Json
end PocketSql
