/-!
# White space around a text

* `trim`: a text without the white space at either end.
* `trim_eq_self`: a text that neither starts nor ends with white space is kept.
-/

namespace RequestPlan.Text

/-- White space: the property `White_Space` of the Unicode standard. -/
def isBlank (c : Char) : Bool :=
  let n := c.toNat
  (0x9 ≤ n && n ≤ 0xD) || n == 0x20 || n == 0x85 || n == 0xA0 || n == 0x1680 ||
    (0x2000 ≤ n && n ≤ 0x200A) || n == 0x2028 || n == 0x2029 || n == 0x202F ||
    n == 0x205F || n == 0x3000

/-- The characters without the white space at either end. -/
def trimChars (cs : List Char) : List Char :=
  ((cs.dropWhile isBlank).reverse.dropWhile isBlank).reverse

/-- The text without the white space at either end. -/
def trim (s : String) : String := String.ofList (trimChars s.toList)

/-- The trimmed text, unless nothing is left of it. -/
def nonBlank? (s : String) : Option String :=
  let t := trim s
  if t.isEmpty then none else some t

theorem isBlank_of_isWhitespace {c : Char} (h : c.isWhitespace = true) : isBlank c = true := by
  simp only [Char.isWhitespace, Bool.or_eq_true, decide_eq_true_eq] at h
  rcases h with ((h | h) | h) | h <;> subst h <;> rfl

theorem dropWhile_eq_self {cs : List Char} (h : ∀ c, cs.head? = some c → isBlank c = false) :
    cs.dropWhile isBlank = cs := by
  cases cs with
  | nil => rfl
  | cons c cs => simp [h c rfl]

/-- **Only the ends are trimmed.** -/
theorem trimChars_eq_self {cs : List Char} (hd : ∀ c, cs.head? = some c → isBlank c = false)
    (tl : ∀ c, cs.getLast? = some c → isBlank c = false) : trimChars cs = cs := by
  unfold trimChars
  rw [dropWhile_eq_self hd, dropWhile_eq_self, List.reverse_reverse]
  intro c hc
  exact tl c (by simpa using hc)

theorem trim_eq_self {s : String} (hd : ∀ c, s.toList.head? = some c → isBlank c = false)
    (tl : ∀ c, s.toList.getLast? = some c → isBlank c = false) : trim s = s := by
  simp [trim, trimChars_eq_self hd tl]

end RequestPlan.Text
