import RequestPlan.Selection.Glob
import RequestPlan.Text.Blank

/-!
# Patterns for paths of aliases

* `PatternTree`: dotted patterns by their segments, a level for each. A pattern that ends
  at a level covers whatever lies below the aliases that it accepts.
* `PatternTree.parse`: the tree of a list of dotted patterns.
* `PatternTree.accepts`, `PatternTree.covers`, `PatternTree.below`: whether a pattern goes
  through an alias, whether one ends there, and the patterns that go on below it. They are
  `acceptsBy`, `coversBy` and `belowBy` with aliases matched by globs.
-/

namespace RequestPlan

/-- A segment of patterns that end with it or go on. -/
inductive PatternNode where
  | stop (glob : Glob)
  | more (glob : Glob) (below : List PatternNode)

/-- The pattern of the segment. -/
def PatternNode.glob : PatternNode → Glob
  | .stop g | .more g _ => g

/-- A level of patterns. -/
abbrev PatternTree := List PatternNode

namespace PatternTree

/-- The pattern of a segment; a fault is told with the whole path. -/
def compileSegment (path segment : String) : Except Error Glob :=
  match Glob.parse segment with
  | .ok g => .ok g
  | .error f => .error (.invalidPattern path f.position f.fault)

/-- Changes the first node with a segment's text, or a fresh one behind all. -/
def change (segment : String) (fresh : Except Error PatternNode)
    (f : PatternNode → Except Error PatternNode) : PatternTree → Except Error PatternTree
  | [] => do return [← f (← fresh)]
  | n :: ns =>
    if n.glob.text = segment then (f n).map (· :: ns)
    else (change segment fresh f ns).map (n :: ·)

/-- The tree with a pattern more, given by its segments. Behind a pattern that ends, none
goes on. -/
def insert (path : String) : List String → PatternTree → Except Error PatternTree
  | [], t => .ok t
  | [segment], t =>
    change segment ((compileSegment path segment).map fun g => .more g []) (fun n =>
      .ok (.stop n.glob)) t
  | segment :: rest, t =>
    change segment ((compileSegment path segment).map fun g => .more g []) (fun n =>
      match n with
      | .stop g => .ok (.stop g)
      | .more g below => (insert path rest below).map (.more g)) t

/-- The tree of dotted patterns; blank ones are left out. -/
def parse (paths : List String) : Except Error PatternTree :=
  (paths.filterMap Text.nonBlank?).foldlM (fun t path => insert path (Text.splitOn '.' path) t) []

section Matching

variable (matching : Glob → String → Bool)

/-- Whether a pattern goes through an alias that its segment is matched with. -/
def acceptsBy (t : PatternTree) (aliasName : String) : Bool :=
  t.any fun n => matching n.glob aliasName

/-- Whether a pattern ends at an alias that its segment is matched with. -/
def coversBy (t : PatternTree) (aliasName : String) : Bool :=
  t.any fun
    | .stop g => matching g aliasName
    | .more _ _ => false

/-- The patterns that go on below an alias that their segments are matched with. -/
def belowBy (t : PatternTree) (aliasName : String) : PatternTree :=
  t.flatMap fun
    | .stop _ => []
    | .more g ns => if matching g aliasName then ns else []

theorem acceptsBy_of_coversBy {t : PatternTree} {aliasName : String}
    (h : t.coversBy matching aliasName = true) : t.acceptsBy matching aliasName = true := by
  simp only [coversBy, List.any_eq_true] at h
  obtain ⟨n, hn, h⟩ := h
  simp only [acceptsBy, List.any_eq_true]
  refine ⟨n, hn, ?_⟩
  cases n <;> simp_all [PatternNode.glob]

end Matching

/-- Whether a pattern goes through an alias. -/
def accepts (t : PatternTree) (aliasName : String) : Bool := t.acceptsBy Glob.accepts aliasName

/-- Whether a pattern ends at an alias. -/
def covers (t : PatternTree) (aliasName : String) : Bool := t.coversBy Glob.accepts aliasName

/-- The patterns that go on below an alias. -/
def below (t : PatternTree) (aliasName : String) : PatternTree := t.belowBy Glob.accepts aliasName

end PatternTree
end RequestPlan
