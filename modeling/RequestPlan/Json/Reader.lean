import RequestPlan.Json.Token

/-!
# Reading JSON

* `Json.parse?`: the value that a text spells. Objects keep the members they were written
  with, in their order. Arrays and objects can be read when they nest less than 128 deep.
-/

namespace RequestPlan.Json

/-- An array or object that is not closed yet; what it holds is in reverse order. -/
inductive Frame where
  | array (items : List Json)
  /-- The members, unless one of their names has no value, and the name before a value. -/
  | object (members : Option (List (String × Json))) (name : Option String)

/-- What may come next. -/
inductive Due where
  | value
  /-- A value, or the end of an array that has none yet. -/
  | valueOrEnd
  | name
  /-- A name, or the end of an object that has none yet. -/
  | nameOrEnd
  | colon
  | commaOrEnd
  /-- The text is over. -/
  | nothing (result : Json)

/-- The open arrays and objects around the place that is being read. -/
structure Nest where
  frames : List Frame
  /-- How many frames there are. -/
  depth : Nat
  due : Due

/-- Arrays and objects that can be read nest less deep than this. -/
def depthLimit : Nat := 128

/-- A finished value at its place in so many frames. -/
def place (frames : List Frame) (depth : Nat) (j : Json) : Nest :=
  match frames with
  | [] => ⟨[], depth, .nothing j⟩
  | .array items :: fs => ⟨.array (j :: items) :: fs, depth, .commaOrEnd⟩
  | .object members name :: fs =>
    let members := members.bind fun ms => name.map fun n => (n, j) :: ms
    ⟨.object members none :: fs, depth, .commaOrEnd⟩

/-- One more frame. -/
def Nest.opened (n : Nest) (f : Frame) (due : Due) : Nest := ⟨f :: n.frames, n.depth + 1, due⟩

/-- The array or object of a frame. -/
def Frame.value : Frame → Json
  | .array items => .array items.reverse
  | .object (some members) _ => .object members.reverse
  | .object none _ => .unreadable

/-- The innermost frame `f` of a nest closed; its value can be read unless it lies too deep. -/
def Nest.closed (n : Nest) (f : Frame) (fs : List Frame) : Nest :=
  place fs (n.depth - 1) (if n.depth < depthLimit then f.value else .unreadable)

/-- One token. -/
def Nest.step? (n : Nest) (t : Token) : Option Nest :=
  match n.due, t with
  | .value, .scalar j | .valueOrEnd, .scalar j => some (place n.frames n.depth j)
  | .value, .text s | .valueOrEnd, .text s =>
    some (place n.frames n.depth ((s.map Json.string).getD .unreadable))
  | .value, .mark c | .valueOrEnd, .mark c =>
    if c = '[' then some (n.opened (.array []) .valueOrEnd)
    else if c = '\x7b' then some (n.opened (.object (some []) none) .nameOrEnd)
    else if c = ']' then
      match n.due, n.frames with
      | .valueOrEnd, .array items :: fs => some (n.closed (.array items) fs)
      | _, _ => none
    else none
  | .name, .text s | .nameOrEnd, .text s =>
    match n.frames with
    | .object members _ :: fs => some { n with frames := .object members s :: fs, due := .colon }
    | _ => none
  | .nameOrEnd, .mark '\x7d' =>
    match n.frames with
    | .object members name :: fs => some (n.closed (.object members name) fs)
    | _ => none
  | .colon, .mark ':' => some { n with due := .value }
  | .commaOrEnd, .mark c =>
    match n.frames with
    | .array items :: fs =>
      if c = ',' then some { n with due := .value }
      else if c = ']' then some (n.closed (.array items) fs)
      else none
    | .object members name :: fs =>
      if c = ',' then some { n with due := .name }
      else if c = '\x7d' then some (n.closed (.object members name) fs)
      else none
    | [] => none
  | _, _ => none

/-- The value that the tokens spell. -/
def ofTokens? (ts : List Token) : Option Json :=
  (ts.foldlM Nest.step? ⟨[], 0, .value⟩).bind fun n =>
    match n.due with
    | .nothing j => some j
    | _ => none

/-- The value that a text spells. -/
def parse? (s : String) : Option Json := (tokens? s).bind ofTokens?

end RequestPlan.Json
