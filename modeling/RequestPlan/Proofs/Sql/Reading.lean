import RequestPlan.Sql.Condition

/-!
# Reading conditions

Conditions in SQL, read back from their text, and what they mean.

* `items?`: the words of a text, nested by the parentheses around them.
* `Condition.read?`: the condition that a text spells, over the values of its placeholders.
  Parentheses come first, `AND` binds tighter than `OR`, and `TRUE` and `FALSE` are constants.
* `Condition.holds`: whether a condition is true, for any truth of the atomic conditions and
  of the subqueries.
-/

namespace RequestPlan.Sql

/-! ## Words -/

/-- The white space of SQL. -/
def isSpace (c : Char) : Bool :=
  c = ' ' || c = '\t' || c = '\n' || c = '\r' || c = '\x0b' || c = '\x0c'

/-- Whether a character ends a word. -/
def isBreak (c : Char) : Bool := isSpace c || c = '(' || c = ')'

/-- The words that are no names. -/
inductive Keyword where
  | and | or | not
  | true | false
  /-- `EXISTS` -/
  | existing
  /-- `IN` -/
  | among
  | is | null | like
  | select
  /-- `FROM` -/
  | source
  /-- `WHERE` -/
  | filter
deriving DecidableEq

namespace Keyword

/-- A keyword as it is written, in upper case. -/
def spelling : Keyword → List Char
  | .and => ['A', 'N', 'D']
  | .or => ['O', 'R']
  | .not => ['N', 'O', 'T']
  | .true => ['T', 'R', 'U', 'E']
  | .false => ['F', 'A', 'L', 'S', 'E']
  | .existing => ['E', 'X', 'I', 'S', 'T', 'S']
  | .among => ['I', 'N']
  | .is => ['I', 'S']
  | .null => ['N', 'U', 'L', 'L']
  | .like => ['L', 'I', 'K', 'E']
  | .select => ['S', 'E', 'L', 'E', 'C', 'T']
  | .source => ['F', 'R', 'O', 'M']
  | .filter => ['W', 'H', 'E', 'R', 'E']

/-- All keywords. -/
def all : List Keyword :=
  [.and, .or, .not, .true, .false, .existing, .among, .is, .null, .like, .select, .source, .filter]

/-- The keyword that a word is, in whatever case. -/
def of? (word : List Char) : Option Keyword := all.find? fun k => k.spelling = word.map Char.toUpper

end Keyword

/-- A part of a text. -/
inductive Item where
  | key (k : Keyword)
  | word (text : String)
  /-- What stands between two parentheses. -/
  | group (items : List Item)

/-- A word as an item. -/
def Item.ofWord (word : List Char) : Item :=
  match Keyword.of? word with
  | some k => .key k
  | none => .word (String.ofList word)

/-- The items in front of each parenthesis that is open, the innermost first, those behind the
last one, and the characters of a word that is not at its end. -/
structure Scan where
  outer : List (List Item)
  items : List Item
  word : List Char

namespace Scan

/-- The end of a word, if there is one. -/
def flush (s : Scan) : Scan :=
  if s.word = [] then s else ⟨s.outer, s.items ++ [.ofWord s.word], []⟩

/-- The items of the characters that follow. A parenthesis that is not matched has none. -/
def finish? (s : Scan) : List Char → Option (List Item)
  | [] => if s.outer = [] then some s.flush.items else none
  | c :: cs =>
    if isSpace c then finish? s.flush cs
    else if c = '(' then finish? ⟨s.flush.items :: s.outer, [], []⟩ cs
    else if c = ')' then
      match s.outer with
      | [] => none
      | before :: outer => finish? ⟨outer, before ++ [.group s.flush.items], []⟩ cs
    else finish? ⟨s.outer, s.items, s.word ++ [c]⟩ cs

end Scan

/-- The items of a text. -/
def items? (t : String) : Option (List Item) := Scan.finish? ⟨[], [], []⟩ t.toList

/-! ## Conditions -/

/-- What an atomic condition speaks of: a column by its name, or a value. -/
inductive Term where
  | name (s : String)
  | value (v : Value)

/-- A condition that is not made of others. -/
inductive Atom where
  | compare (left : Term) (op : Comparison) (right : Term)
  | among (left : Term) (values : List Value)
  | isNull (left : Term)
  | isNotNull (left : Term)
  /-- The lower case of a column matches a pattern. -/
  | like (left : Term) (pattern : Term) (negated : Bool)

/-- A condition on the rows of a statement. -/
inductive Condition where
  | const (b : Bool)
  | atom (a : Atom)
  /-- A subquery over a table has a row. -/
  | anyRow (table : String) (c : Condition)
  | not (c : Condition)
  | and (c d : Condition)
  | or (c d : Condition)

/-- What decides the truth of atomic conditions and of subqueries, for rows of type `ρ`: a
subquery over a table has a row or not, according to the rows that its condition holds of. -/
structure Interpretation (ρ : Type) where
  atom : ρ → Atom → Prop
  anyRow : ρ → String → (ρ → Prop) → Prop

/-- Whether a condition is true for a row. -/
def Condition.holds {ρ : Type} (I : Interpretation ρ) (r : ρ) : Condition → Prop
  | .const b => b = true
  | .atom a => I.atom r a
  | .anyRow table c => I.anyRow r table fun r' => c.holds I r'
  | .not c => ¬c.holds I r
  | .and c d => c.holds I r ∧ d.holds I r
  | .or c d => c.holds I r ∨ d.holds I r

/-! ## Reading atomic conditions -/

/-- The number of a placeholder. -/
def placeNumber? : List Char → Option Nat
  | '$' :: ds => if ds ≠ [] ∧ ds.all Char.isDigit then some (Nat.ofDigitChars 10 ds 0) else none
  | _ => none

/-- The value that a word stands for, if it is a placeholder. They are counted from one. -/
def placed? (params : List Value) (word : List Char) : Option Value :=
  match placeNumber? word with
  | some (n + 1) => params[n]?
  | _ => none

/-- A word as what it stands for: a value if it is a placeholder, or else a column. -/
def Term.ofWord (params : List Value) (word : String) : Term :=
  match placed? params word.toList with
  | some v => .value v
  | none => .name word

/-- The values of a list of placeholders with commas behind all but the last. -/
def placedList? (params : List Value) : List Item → Option (List Value)
  | [.word w] => (placed? params w.toList).map fun v => [v]
  | .word w :: rest =>
    if w.toList.getLast? = some ',' then
      match placed? params w.toList.dropLast, placedList? params rest with
      | some v, some vs => some (v :: vs)
      | _, _ => none
    else none
  | _ => none

/-- The comparison that is written so. -/
def comparison? (op : String) : Option Comparison :=
  [Comparison.eq, .ne, .lt, .le, .gt, .ge].find? fun c => c.sql = op

/-- The atomic condition that starts with a word, and what is behind it. -/
def atom? (params : List Value) (word : String) : List Item → Option (Atom × List Item)
  | .key .is :: .key .null :: rest => some (.isNull (.ofWord params word), rest)
  | .key .is :: .key .not :: .key .null :: rest => some (.isNotNull (.ofWord params word), rest)
  | .key .among :: .group list :: rest =>
    (placedList? params list).map fun vs => (.among (.ofWord params word) vs, rest)
  | .group [.word c] :: .key .like :: .word d :: rest =>
    if word = "LOWER" then some (.like (.ofWord params c) (.ofWord params d) false, rest) else none
  | .group [.word c] :: .key .not :: .key .like :: .word d :: rest =>
    if word = "LOWER" then some (.like (.ofWord params c) (.ofWord params d) true, rest) else none
  | .word op :: .word d :: rest =>
    (comparison? op).map fun op => (.compare (.ofWord params word) op (.ofWord params d), rest)
  | _ => none

theorem sizeOf_of_atom? {params : List Value} {word : String} {is rest : List Item} {a : Atom}
    (h : atom? params word is = some (a, rest)) : sizeOf rest < sizeOf is := by
  unfold atom? at h
  split at h
  · cases h
    simp +arith
  · cases h
    simp +arith
  · obtain ⟨vs, -, hvs⟩ := Option.map_eq_some_iff.1 h
    cases hvs
    simp +arith
  · split at h
    · cases h
      simp +arith
    · cases h
  · split at h
    · cases h
      simp +arith
    · cases h
  · obtain ⟨op, -, hop⟩ := Option.map_eq_some_iff.1 h
    cases hop
    simp +arith
  · cases h

/-! ## Reading conditions -/

/-- A condition behind those that `AND` joins it to. -/
def Condition.meet (cs : Option Condition) (c : Condition) : Condition :=
  match cs with
  | some b => .and b c
  | none => c

/-- A condition behind those that `OR` joins it to. -/
def Condition.join (cs : Option Condition) (c : Condition) : Condition :=
  match cs with
  | some b => .or b c
  | none => c

mutual

/-- Reads on where a condition has to start: `ors` is what was read up to the last `OR`, and
`ands` what was read since then, up to the last `AND`. -/
def operand? (params : List Value) (ors ands : Option Condition) : List Item → Option Condition
  | .key .true :: rest => operator? params ors (.meet ands (.const true)) rest
  | .key .false :: rest => operator? params ors (.meet ands (.const false)) rest
  | .group inner :: rest =>
    match operand? params none none inner with
    | some c => operator? params ors (.meet ands c) rest
    | none => none
  | .key .existing :: .group (.key .select :: .word _ :: .key .source :: .word table ::
      .key .filter :: inner) :: rest =>
    match operand? params none none inner with
    | some c => operator? params ors (.meet ands (.anyRow table c)) rest
    | none => none
  | .key .not :: .key .existing :: .group (.key .select :: .word _ :: .key .source ::
      .word table :: .key .filter :: inner) :: rest =>
    match operand? params none none inner with
    | some c => operator? params ors (.meet ands (.not (.anyRow table c))) rest
    | none => none
  | .word word :: rest =>
    match hatom : atom? params word rest with
    | some (a, behind) =>
      have : sizeOf behind < sizeOf rest := sizeOf_of_atom? hatom
      operator? params ors (.meet ands (.atom a)) behind
    | none => none
  | _ => none
termination_by is => sizeOf is
decreasing_by
  all_goals
    simp only [List.cons.sizeOf_spec, Item.group.sizeOf_spec]
    omega

/-- Reads on behind a condition `c`, which is joined to what was read since the last `OR`. -/
def operator? (params : List Value) (ors : Option Condition) (c : Condition) :
    List Item → Option Condition
  | [] => some (.join ors c)
  | .key .and :: rest => operand? params ors (some c) rest
  | .key .or :: rest => operand? params (some (.join ors c)) none rest
  | _ => none
termination_by is => sizeOf is
decreasing_by
  all_goals
    simp only [List.cons.sizeOf_spec]
    omega

end

/-- The condition that a text spells. -/
def Condition.read? (params : List Value) (t : String) : Option Condition :=
  (items? t).bind (operand? params none none)

/-- `AND` binds tighter than `OR`. -/
example : Condition.read? [] "TRUE OR FALSE AND (FALSE OR TRUE)" =
    some (.or (.const true) (.and (.const false) (.or (.const false) (.const true)))) := by
  cbv

end RequestPlan.Sql

