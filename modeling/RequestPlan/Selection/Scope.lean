import RequestPlan.Selection.Pattern

/-!
# Scopes

* `Scope`: which aliases a request may name, level by level.
* `Scope.allows`, `Scope.child`: at a level, and on the level below an alias.
* `Scope.allowsPath`: along a whole path.

They are `allowsBy`, `childBy` and `allowsPathBy` with aliases matched by globs.
-/

namespace RequestPlan

/-- Which aliases a request may name. -/
inductive Scope where
  | all
  /-- Those that the patterns go through. -/
  | only (patterns : PatternTree)
  /-- Those at which no pattern ends. -/
  | except (patterns : PatternTree)

namespace Scope

/-- The scope of the paths that are of a pattern. -/
def parseOnly (patterns : List String) : Except Error Scope :=
  (PatternTree.parse patterns).map .only

/-- The scope of the paths that are of no pattern. -/
def parseExcept (patterns : List String) : Except Error Scope :=
  (PatternTree.parse patterns).map .except

section Matching

variable (matching : Glob → String → Bool)

/-- Whether a request may name an alias at this level, with segments matched by `matching`. -/
def allowsBy : Scope → String → Bool
  | .all, _ => true
  | .only t, aliasName => t.acceptsBy matching aliasName
  | .except t, aliasName => !t.coversBy matching aliasName

/-- The scope below an alias, with segments matched by `matching`. -/
def childBy : Scope → String → Scope
  | .all, _ => .all
  | .only t, aliasName =>
    if t.coversBy matching aliasName then .all else .only (t.belowBy matching aliasName)
  | .except t, aliasName =>
    match t.belowBy matching aliasName with
    | [] => .all
    | n :: ns => .except (n :: ns)

/-- Whether a request may name every alias along a path, with segments matched by
`matching`. -/
def allowsPathBy : Scope → List String → Bool
  | _, [] => true
  | s, aliasName :: rest =>
    s.allowsBy matching aliasName && (s.childBy matching aliasName).allowsPathBy rest

@[simp] theorem allowsPathBy_all (path : List String) :
    Scope.all.allowsPathBy matching path = true := by
  induction path with
  | nil => rfl
  | cons a path ih => simp [allowsPathBy, allowsBy, childBy, ih]

end Matching

/-- Whether a request may name an alias at this level. -/
def allows (s : Scope) (aliasName : String) : Bool := s.allowsBy Glob.accepts aliasName

/-- The scope below an alias. -/
def child (s : Scope) (aliasName : String) : Scope := s.childBy Glob.accepts aliasName

/-- Whether a request may name every alias along a path. -/
def allowsPath (s : Scope) (path : List String) : Bool := s.allowsPathBy Glob.accepts path

/-- **What is allowed below an alias needs the alias.** -/
theorem allowsPath_cons (s : Scope) (a : String) (path : List String) :
    s.allowsPath (a :: path) = (s.allows a && (s.child a).allowsPath path) := rfl

theorem allowsPath_singleton (s : Scope) (a : String) : s.allowsPath [a] = s.allows a :=
  Bool.and_true _

end Scope
end RequestPlan
