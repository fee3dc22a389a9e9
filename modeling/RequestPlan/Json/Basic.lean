import RequestPlan.Text.Split
import RequestPlan.Decimal.Layout

/-!
# JSON values

* `Json`: the values, with the members of an object in the order they were written, and
  a mark for what is spelled without a fault but has no value.
* `Json.isReadable`: whether a value is free of such marks.
* `Json.compact`, `Json.pretty`: a value as text, on one line and over indented lines.
-/

namespace RequestPlan

/-- A number of a JSON text: integers of 64 bits are told from other numbers. -/
inductive JsonNumber where
  | int (n : Int)
  | float (x : Float)

/-- The text of a number. -/
def JsonNumber.text : JsonNumber → String
  | .int n => toString n
  | .float x => Decimal.Layout.json.text x

/-- A JSON value. -/
inductive Json where
  | null
  | bool (b : Bool)
  | number (n : JsonNumber)
  | string (s : String)
  | array (items : List Json)
  | object (members : List (String × Json))
  /-- What a text spells and no value stands for: a number too large, a string with half of
  a surrogate pair, an object with such a name, an array or object nested too deep. Where
  nothing reads it, it does no harm. -/
  | unreadable
deriving Inhabited

namespace Json

/-- The value for an integer. -/
abbrev int (n : Int) : Json := .number (.int n)

/-- Whether the value is null. -/
def isNull : Json → Bool
  | .null => true
  | _ => false

mutual

/-- Whether all of the value can be read. -/
def isReadable : Json → Bool
  | .unreadable => false
  | .array items => allReadable items
  | .object members => allMembersReadable members
  | _ => true

/-- Whether all of the values can be read. -/
def allReadable : List Json → Bool
  | [] => true
  | item :: items => isReadable item && allReadable items

/-- Whether the values of all members can be read. -/
def allMembersReadable : List (String × Json) → Bool
  | [] => true
  | (_, value) :: members => isReadable value && allMembersReadable members

end

/-- A character inside the quotation marks of a JSON string. -/
def escapedChar (c : Char) : List Char :=
  match c with
  | '"' => ['\\', '"']
  | '\\' => ['\\', '\\']
  | '\n' => ['\\', 'n']
  | '\r' => ['\\', 'r']
  | '\t' => ['\\', 't']
  | '\x08' => ['\\', 'b']
  | '\x0c' => ['\\', 'f']
  | c =>
    if c.toNat < 0x20 then
      let ds := Nat.toDigits 16 c.toNat
      ['\\', 'u'] ++ List.replicate (4 - ds.length) '0' ++ ds
    else [c]

/-- A text as a JSON string. -/
def escaped (s : String) : String :=
  String.ofList ('"' :: s.toList.flatMap escapedChar ++ ['"'])

mutual

/-- The value on one line without spaces. -/
def compact : Json → String
  | .null | .unreadable => "null"
  | .bool true => "true"
  | .bool false => "false"
  | .number n => n.text
  | .string s => escaped s
  | .array items => "[" ++ Text.joinWith "," (compactItems items) ++ "]"
  | .object members => "\x7b" ++ Text.joinWith "," (compactMembers members) ++ "\x7d"

/-- The values of an array, each on one line. -/
def compactItems : List Json → List String
  | [] => []
  | item :: items => compact item :: compactItems items

/-- The members of an object, each on one line. -/
def compactMembers : List (String × Json) → List String
  | [] => []
  | (name, value) :: members =>
    (escaped name ++ ":" ++ compact value) :: compactMembers members

end

/-- The start of a line at a depth of nesting. -/
def indent (depth : Nat) : String := String.ofList ('\n' :: List.replicate (2 * depth) ' ')

/-- Parts between two brackets, each on its own line unless there is none. -/
def bracketed (first last : String) (depth : Nat) (parts : List String) : String :=
  if parts.isEmpty then first ++ last
  else
    first ++ indent (depth + 1) ++ Text.joinWith ("," ++ indent (depth + 1)) parts ++
      indent depth ++ last

mutual

/-- The value over indented lines, at a depth of nesting. -/
def prettyAt (depth : Nat) : Json → String
  | .array items => bracketed "[" "]" depth (prettyItems (depth + 1) items)
  | .object members => bracketed "\x7b" "\x7d" depth (prettyMembers (depth + 1) members)
  | .null | .unreadable => "null"
  | .bool true => "true"
  | .bool false => "false"
  | .number n => n.text
  | .string s => escaped s

/-- The values of an array, each over indented lines. -/
def prettyItems (depth : Nat) : List Json → List String
  | [] => []
  | item :: items => prettyAt depth item :: prettyItems depth items

/-- The members of an object, each over indented lines. -/
def prettyMembers (depth : Nat) : List (String × Json) → List String
  | [] => []
  | (name, value) :: members =>
    (escaped name ++ ": " ++ prettyAt depth value) :: prettyMembers depth members

end

/-- The value over lines indented by two spaces. -/
def pretty (j : Json) : String := prettyAt 0 j

end Json
end RequestPlan
