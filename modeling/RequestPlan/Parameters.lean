import RequestPlan.Error
import RequestPlan.Json.Plan
import RequestPlan.Json.Reader
import RequestPlan.Text.Blank
import RequestPlan.Text.Percent

/-!
# Request parameters

* `Params`: names and values in the order of the request, every name once.
* `Params.ofQuery`, `Params.ofJson`: the parameters of a query string and of a flat JSON
  object.
* `Params.first?`: the first value that is given under one of several names.
* `Value.names`: the names that a value lists.
-/

namespace RequestPlan

/-- Names and values in the order of the request. -/
structure Params where
  entries : List (String × Value)

/-- The texts that a value lists, between commas or as items, without blank ones. -/
def Value.names (v : Value) : List String :=
  let texts := match v with
    | .list items => items.filterMap Value.text?
    | .string s => Text.splitOn ',' s
    | v => v.text?.toList
  texts.filterMap Text.nonBlank?

namespace Params

/-- No parameters. -/
def empty : Params := ⟨[]⟩

instance : EmptyCollection Params := ⟨empty⟩
instance : Inhabited Params := ⟨empty⟩

/-- The entries with the value of a name changed; a name that is not there comes last, with
a value of its own. -/
def change (name : String) (fresh : Value) (f : Value → Value) :
    List (String × Value) → List (String × Value)
  | [] => [(name, fresh)]
  | (n, v) :: es => if n = name then (n, f v) :: es else (n, v) :: change name fresh f es

/-- A value for a name, in place of the one there was. -/
def insert (ps : Params) (name : String) (v : Value) : Params :=
  ⟨change name v (fun _ => v) ps.entries⟩

/-- A list with a value more; what is no list becomes one. -/
def appendTo (v : Value) : Value → Value
  | .list items => .list (items ++ [v])
  | .null => .list [v]
  | old => .list [old, v]

/-- A value more for a name. -/
def append (ps : Params) (name : String) (v : Value) : Params :=
  ⟨change name (.list [v]) (appendTo v) ps.entries⟩

/-- The value of a name. -/
def find? (ps : Params) (name : String) : Option Value := Entries.find? name ps.entries

/-- The first value other than null under one of several names. -/
def first? (ps : Params) (names : List String) : Option Value :=
  (names.filterMap ps.find?).find? fun v => !v.isNull

/-- The texts that the value of a name lists. -/
def list (ps : Params) (name : String) : List String :=
  match ps.find? name with
  | some v => v.names
  | none => []

/-- The parameters with all of others, which replace those of the same name. -/
def update (ps others : Params) : Params :=
  others.entries.foldl (fun ps e => ps.insert e.1 e.2) ps

/-- The number of parameters. -/
def size (ps : Params) : Nat := ps.entries.length

/-- Whether there are no parameters. -/
def isEmpty (ps : Params) : Bool := ps.entries.isEmpty

theorem find?_change (name n : String) (fresh : Value) (f : Value → Value)
    (es : List (String × Value)) :
    Entries.find? n (change name fresh f es) =
      if n = name then some (((Entries.find? name es).map f).getD fresh)
      else Entries.find? n es := by
  induction es with
  | nil =>
    by_cases h : n = name <;> simp [change, Entries.find?, h]
  | cons e es ih =>
    obtain ⟨m, v⟩ := e
    by_cases hm : m = name
    · subst hm
      by_cases h : n = m <;> simp [change, Entries.find?, h]
    · by_cases h : n = m
      · subst h
        simp [change, Entries.find?, hm]
      · simp [change, Entries.find?, hm, h, ih, Ne.symm hm]

/-- **A value that is put in is found under its own name only.** -/
theorem find?_insert (ps : Params) (name n : String) (v : Value) :
    (ps.insert name v).find? n = if n = name then some v else ps.find? n := by
  unfold find? insert
  rw [find?_change]
  cases Entries.find? name ps.entries <;> rfl

/-! ## Query strings -/

/-- The parameters with a pair of a query string. A name with `[]` behind it collects the
values of all its pairs, and an empty value is null. -/
def addPair (ps : Params) (pair : String) : Params :=
  let (rawName, rawValue) := match Text.cut? '=' pair with
    | some sides => sides
    | none => (pair, "")
  let name := String.ofList (Text.decodeQuery rawName.toList)
  let value := String.ofList (Text.decodeQuery rawValue.toList)
  match Text.dropSuffix? "[]" name with
  | some listName => ps.append listName (.string value)
  | none => ps.insert name (if value.isEmpty then .null else .string value)

/-- The parameters of a query string, with or without a question mark in front. -/
def ofQuery (query : String) : Params :=
  let query := (Text.dropPrefix? "?" query).getD query
  ((Text.splitOn '&' query).filter fun pair => !pair.isEmpty).foldl addPair ∅

/-! ## JSON -/

/-- The parameters with a member of a JSON object. -/
def addMember (ps : Params) (member : String × Json) : Except Error Params :=
  match member.2 with
  | .object _ => .error (.invalidFilterValue member.1 .nested)
  | j =>
    match Value.ofJson? j with
    | some v => .ok (ps.insert member.1 v)
    | none => .error .schema

/-- The parameters of a JSON object, in the order of their names. -/
def ofJson (text : String) : Except Error Params :=
  match (Json.parse? text).filter Json.isReadable with
  | some (.object members) => (Dict.ofList members).entries.foldlM addMember ∅
  | _ => .error .schema

end Params
end RequestPlan
