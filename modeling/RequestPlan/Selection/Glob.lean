import RequestPlan.Error
import RequestPlan.Text.Split

/-!
# Globs

* `Glob.parse`: the pattern that a text spells, or its first fault with the character at
  which it is.
* `Glob.accepts`: whether a text as a whole is of the pattern; by `accepts_eq` it is so when
  the text can be split among the tokens (`acceptsChars`).

Besides `?`, `*` and classes of characters in brackets there is `**`, which stands for whole
components between slashes only.
-/

namespace RequestPlan

/-- Some characters in a class: from one to another, both included. -/
structure CharSpan where
  low : Char
  high : Char
deriving DecidableEq, Repr

/-- A part of a pattern. -/
inductive GlobToken where
  | char (c : Char)
  | any
  | oneOf (spans : List CharSpan)
  | noneOf (spans : List CharSpan)
  /-- Any text. -/
  | star
  /-- Any text up to a slash, the empty text, or all that is left. -/
  | deep
deriving DecidableEq, Repr

/-- A pattern with its text. -/
structure Glob where
  text : String
  tokens : List GlobToken
deriving DecidableEq, Repr

/-- What is wrong with a text as a pattern, and where. -/
structure GlobFault where
  position : Nat
  fault : PatternFault
deriving DecidableEq, Repr

namespace Glob

/-! ## Reading -/

/-- The spans of a class: a dash between two characters spans from one to the other. -/
def spans : List Char → List CharSpan
  | low :: '-' :: high :: cs => ⟨low, high⟩ :: spans cs
  | c :: cs => ⟨c, c⟩ :: spans cs
  | [] => []

/-- The class behind an opening bracket, and how many characters it takes there. Its first
character may be the closing bracket. -/
def readClass? : List Char → Option (GlobToken × Nat)
  | [] => none
  | '!' :: [] => none
  | '!' :: c :: cs =>
    (Text.cutChars? ']' cs).map fun p => (.noneOf (spans (c :: p.1)), p.1.length + 3)
  | c :: cs => (Text.cutChars? ']' cs).map fun p => (.oneOf (spans (c :: p.1)), p.1.length + 2)

/-- The token of a star, and how many of the characters `cs` behind it belong to it. Two
stars stand between slashes or ends. -/
def readStar (position : Nat) (prior : Option Char) (cs : List Char) :
    Except GlobFault (GlobToken × Nat) :=
  match cs with
  | '*' :: '*' :: _ => .error ⟨position + 2, .wildcards⟩
  | '*' :: cs =>
    if prior = none ∨ prior = some '/' then
      match cs with
      | [] => .ok (.deep, 1)
      | '/' :: _ => .ok (.deep, 2)
      | _ => .error ⟨position + 2, .recursive⟩
    else .error ⟨position - 1, .recursive⟩
  | _ => .ok (.star, 0)

/-- The token that starts with a character behind the character `prior` if there is one, and
how many of the characters `cs` behind it belong to it. -/
def readToken (position : Nat) (prior : Option Char) (c : Char) (cs : List Char) :
    Except GlobFault (GlobToken × Nat) :=
  match c with
  | '?' => .ok (.any, 0)
  | '*' => readStar position prior cs
  | '[' =>
    match readClass? cs with
    | some read => .ok read
    | none => .error ⟨position, .range⟩
  | c => .ok (.char c, 0)

/-- The tokens of characters of which the first few, so many as `inside`, belong to a token
that is read already. -/
def readTokens (position : Nat) (prior : Option Char) :
    (inside : Nat) → List Char → Except GlobFault (List GlobToken)
  | _, [] => .ok []
  | inside + 1, c :: cs => readTokens (position + 1) (some c) inside cs
  | 0, c :: cs =>
    match readToken position prior c cs with
    | .error f => .error f
    | .ok (token, inside) =>
      (readTokens (position + 1) (some c) inside cs).map (token :: ·)

/-- The pattern that a text spells. -/
def parse (s : String) : Except GlobFault Glob :=
  (readTokens 0 none 0 s.toList).map fun tokens => ⟨s, tokens⟩

/-! ## Matching -/

/-- Whether a class has a character. -/
def spanned (spans : List CharSpan) (c : Char) : Bool :=
  spans.any fun s => s.low ≤ c && c ≤ s.high

/-- The ends of a text, itself and the empty one included. -/
def ends : List Char → List (List Char)
  | [] => [[]]
  | c :: cs => (c :: cs) :: ends cs

/-- The ends of a text that follow a slash. -/
def endsAfterSlash : List Char → List (List Char)
  | [] => []
  | c :: cs => if c = '/' then cs :: endsAfterSlash cs else endsAfterSlash cs

/-- Whether a text as a whole is of the tokens. -/
def acceptsChars : List GlobToken → List Char → Bool
  | [], cs => cs.isEmpty
  | .star :: ts, cs => (ends cs).any fun e => acceptsChars ts e
  | .deep :: ts, cs =>
    acceptsChars ts cs || (endsAfterSlash cs).any (fun e => acceptsChars ts e) ||
      acceptsChars ts []
  | .char d :: ts, cs =>
    match cs with
    | [] => false
    | c :: cs => c = d && acceptsChars ts cs
  | .any :: ts, cs =>
    match cs with
    | [] => false
    | _ :: cs => acceptsChars ts cs
  | .oneOf spans :: ts, cs =>
    match cs with
    | [] => false
    | c :: cs => spanned spans c && acceptsChars ts cs
  | .noneOf spans :: ts, cs =>
    match cs with
    | [] => false
    | c :: cs => !spanned spans c && acceptsChars ts cs

/-- For each end of a text whether one of its ends, itself included, is marked. -/
def markStar : List Bool → List Bool
  | [] => []
  | m :: ms =>
    let rest := markStar ms
    (m || rest.headD false) :: rest

/-- For each end of a text whether one of its ends that follow a slash is marked. -/
def markAfterSlash : List Char → List Bool → List Bool
  | c :: cs, _ :: ms =>
    let rest := markAfterSlash cs ms
    ((c = '/' && ms.headD false) || rest.headD false) :: rest
  | _, ms => ms.map fun _ => false

/-- For each end of a text whether its first character will do and what follows is marked. -/
def markNext (accepted : Char → Bool) : List Char → List Bool → List Bool
  | c :: cs, _ :: ms => (accepted c && ms.headD false) :: markNext accepted cs ms
  | _, ms => ms.map fun _ => false

/-- For each end of a text, the longest first, whether it is of the tokens. Every token looks
at every end once, whatever the stars before it. -/
def marks (cs : List Char) : List GlobToken → List Bool
  | [] => (ends cs).map List.isEmpty
  | .star :: ts => markStar (marks cs ts)
  | .deep :: ts =>
    let ms := marks cs ts
    let last := ms.getLastD false
    List.zipWith (fun here later => here || later || last) ms (markAfterSlash cs ms)
  | .char d :: ts => markNext (· = d) cs (marks cs ts)
  | .any :: ts => markNext (fun _ => true) cs (marks cs ts)
  | .oneOf spans :: ts => markNext (spanned spans) cs (marks cs ts)
  | .noneOf spans :: ts => markNext (fun c => !spanned spans c) cs (marks cs ts)

/-- Whether a text as a whole is of the pattern. -/
def accepts (g : Glob) (s : String) : Bool := (marks s.toList g.tokens).headD false

/-! ### Marks are right -/

theorem headD_map_ends (f : List Char → Bool) (cs : List Char) :
    ((ends cs).map f).headD false = f cs := by
  cases cs <;> rfl

theorem getLastD_map_ends (f : List Char → Bool) (cs : List Char) :
    ((ends cs).map f).getLastD false = f [] := by
  induction cs with
  | nil => rfl
  | cons c cs ih =>
    cases cs with
    | nil => rfl
    | cons d ds => simpa [ends, List.getLastD] using ih

theorem markStar_map (f : List Char → Bool) (cs : List Char) :
    markStar ((ends cs).map f) = (ends cs).map fun e => (ends e).any f := by
  induction cs with
  | nil => simp [ends, markStar]
  | cons c cs ih =>
    simp only [ends, List.map_cons, markStar, ih, headD_map_ends, List.any_cons]

theorem markAfterSlash_map (f : List Char → Bool) (cs : List Char) :
    markAfterSlash cs ((ends cs).map f) =
      (ends cs).map fun e => (endsAfterSlash e).any f := by
  induction cs with
  | nil => simp [ends, markAfterSlash, endsAfterSlash]
  | cons c cs ih =>
    simp only [ends, List.map_cons, markAfterSlash, ih, headD_map_ends, endsAfterSlash]
    by_cases h : c = '/' <;> simp [h]

theorem markNext_map (accepted : Char → Bool) (f : List Char → Bool) (cs : List Char) :
    markNext accepted cs ((ends cs).map f) =
      (ends cs).map fun e =>
        match e with
        | [] => false
        | c :: cs => accepted c && f cs := by
  induction cs with
  | nil => simp [ends, markNext]
  | cons c cs ih => simp only [ends, List.map_cons, markNext, ih, headD_map_ends]

/-- **The marks of a text's ends say which of them are of the tokens.** -/
theorem marks_eq (cs : List Char) (ts : List GlobToken) :
    marks cs ts = (ends cs).map (acceptsChars ts) := by
  induction ts with
  | nil => rfl
  | cons t ts ih =>
    cases t <;> simp only [marks, ih]
    case star => rw [markStar_map]; rfl
    case deep =>
      rw [markAfterSlash_map, getLastD_map_ends, List.zipWith_map, List.zipWith_self]
      rfl
    all_goals rw [markNext_map]; rfl

/-- A text is of a pattern when it is of its tokens. -/
theorem accepts_eq (g : Glob) (s : String) : g.accepts s = acceptsChars g.tokens s.toList := by
  unfold accepts
  rw [marks_eq, headD_map_ends]

/-! ### The text of a pattern -/

/-- **A pattern keeps the text that it was read from.** -/
theorem text_parse {s : String} {g : Glob} (h : parse s = .ok g) : g.text = s := by
  unfold parse at h
  cases hr : readTokens 0 none 0 s.toList with
  | error e => rw [hr] at h; cases h
  | ok ts => rw [hr] at h; cases h; rfl

end Glob
end RequestPlan
