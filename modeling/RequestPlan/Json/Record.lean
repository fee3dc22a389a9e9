import RequestPlan.Json.Basic

/-!
# Records in JSON

* `Json.record?`: the fields of a record, written as an object or as an array in the
  order of the fields. Members that are no fields are passed over, a field written twice
  is refused.
* `Json.variant?`: a record whose fields depend on the kind written with them. All of it is
  kept until the kind is known, so all of it has to be readable.
* `Json.name?`: a name out of a fixed list, alone or as the only member of an object.
* `Json.text?`, `Json.flag?`, …: scalars, lists and optional values.

What is kept until something behind it is known is read with `kept` set: there an empty
object does for null behind a name.
-/

namespace RequestPlan.Json

/-- A field of a record and whether it has to be there. -/
structure Field where
  name : String
  required : Bool

/-- A field that has to be there. -/
def needed (name : String) : Field := ⟨name, true⟩

/-- A field that may be left out. -/
def optional (name : String) : Field := ⟨name, false⟩

/-- The values of a member, in the order they were written. -/
def valuesOf (name : String) (members : List (String × Json)) : List Json :=
  (members.filter (·.1 = name)).map Prod.snd

/-- A field of an object: absent, present, or refused. -/
def Field.of? (f : Field) (members : List (String × Json)) : Option (Option Json) :=
  match valuesOf f.name members with
  | [] => if f.required then none else some none
  | [j] => some (some j)
  | _ => none

/-- The fields of an object. -/
def ofMembers? (fields : List Field) (members : List (String × Json)) :
    Option (List (Option Json)) :=
  fields.mapM fun f => f.of? members

/-- The fields of an array, in order; those that may be left out may be missing at the
end. -/
def ofItems? : List Field → List Json → Option (List (Option Json))
  | [], [] => some []
  | [], _ :: _ => none
  | f :: fs, [] => if f.required then none else (ofItems? fs []).map (none :: ·)
  | _ :: fs, j :: js => (ofItems? fs js).map (some j :: ·)

/-- The fields of a record. -/
def record? (fields : List Field) : Json → Option (List (Option Json))
  | .object members => ofMembers? fields members
  | .array items => ofItems? fields items
  | _ => none

/-- A text. -/
def text? : Json → Option String
  | .string s => some s
  | _ => none

/-- A truth value. -/
def flag? : Json → Option Bool
  | .bool b => some b
  | _ => none

/-- A natural number of 64 bits. -/
def word? : Json → Option UInt64
  | .number (.int n) => if 0 ≤ n ∧ n < UInt64.size then some (UInt64.ofNat n.toNat) else none
  | _ => none

/-- A list of values. -/
def list? {α : Type} (read? : Json → Option α) : Json → Option (List α)
  | .array items => items.mapM read?
  | _ => none

/-- A value, or null for none. -/
def nullable? {α : Type} (read? : Json → Option α) : Json → Option (Option α)
  | .null => some none
  | j => (read? j).map some

/-- A field that is there. -/
def given? {α : Type} (read? : Json → Option α) (j : Option Json) : Option α := j.bind read?

/-- A field that may be left out or null. -/
def option? {α : Type} (read? : Json → Option α) : Option Json → Option (Option α)
  | none => some none
  | some j => nullable? read? j

/-- A field with a value of its own when it is left out. -/
def orElse? {α : Type} (default : α) (read? : Json → Option α) : Option Json → Option α
  | none => some default
  | some j => read? j

/-- The name of a choice: alone, or in front of null. -/
def name? (kept : Bool) : Json → Option String
  | .string s => some s
  | .object [(s, .null)] => some s
  | .object [(s, .object [])] => if kept then some s else none
  | _ => none

/-- A choice by its name. -/
def choice? {α : Type} (kept : Bool) (choices : List (String × α)) (j : Json) : Option α :=
  (name? kept j).bind fun s => choices.lookup s

/-- A choice by its name alone, or, in what is kept, by its number. -/
def numbered? {α : Type} (kept : Bool) (choices : List (String × α)) : Json → Option α
  | .string s => choices.lookup s
  | .number (.int n) => if kept && 0 ≤ n then choices[n.toNat]?.map Prod.snd else none
  | _ => none

/-- A value whose kind is one of its members, or the first item of an array: the kind and
the fields of the rest. -/
def variant? (tag : String) (fieldsOf : String → Option (List Field)) (j : Json) :
    Option (String × List (Option Json)) :=
  if !j.isReadable then none else
  match j with
  | .object members => do
    let [some kind] ← ofMembers? [needed tag] members | none
    let name ← text? kind
    return (name, ← ofMembers? (← fieldsOf name) members)
  | .array (kind :: items) => do
    let name ← text? kind
    return (name, ← ofItems? (← fieldsOf name) items)
  | _ => none

/-- A text or null. -/
def ofText? : Option String → Json
  | none => .null
  | some s => .string s

/-- The members that are there. -/
def ofFields (members : List (Option (String × Json))) : Json := .object (members.filterMap id)

/-- A member that is always there. -/
def field (name : String) (j : Json) : Option (String × Json) := some (name, j)

/-- A member that is left out when there is no value. -/
def field? (name : String) (j : Option Json) : Option (String × Json) := j.map (name, ·)

/-- A member that is left out when the list is empty. -/
def listField {α : Type} (name : String) (write : α → Json) (xs : List α) :
    Option (String × Json) :=
  if xs.isEmpty then none else some (name, .array (xs.map write))

end RequestPlan.Json
