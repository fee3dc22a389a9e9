import RequestPlan.Text.CaseTable

/-!
# Lower case

* `asciiLower`: the ASCII capitals in lower case, all else kept.
* `lower`: a text in lower case by the default mapping of the Unicode standard,
  where a capital sigma at the end of a word has a form of its own.
-/

namespace RequestPlan.Text

/-- The ASCII capitals in lower case, all else kept. -/
def asciiLower (s : String) : String := String.ofList (s.toList.map Char.toLower)

/-- Lower case of a character outside ASCII, by the runs of the table. -/
def LowerRun.lowered? (r : LowerRun) (c : Char) : Option Char :=
  let n := c.toNat
  if r.first ≤ n && n ≤ r.last && (n - r.first) % r.stride == 0 then
    some (Char.ofNat (Int.toNat (n + r.offset)))
  else
    none

/-- Lower case of one character; the dotted capital I becomes two characters. -/
def lowerChar (c : Char) : List Char :=
  if c.toNat < 0x80 then [c.toLower]
  else if c.toNat == 0x130 then ['i', Char.ofNat 0x307]
  else [(lowerRuns.findSome? (·.lowered? c)).getD c]

/-- Whether the first character that marks do not hide is a letter with a case. -/
def meetsCased (cs : List Char) : Bool :=
  match cs.dropWhile caseIgnorable.has with
  | [] => false
  | c :: _ => cased.has c

/-- Lower case of the characters, with those before them in reverse order: a capital
sigma after a letter and before none is final. -/
def lowerFrom (before : List Char) : List Char → List Char
  | [] => []
  | c :: cs =>
    let here :=
      if c.toNat == 0x3A3 then
        [Char.ofNat (if meetsCased before && !meetsCased cs then 0x3C2 else 0x3C3)]
      else lowerChar c
    here ++ lowerFrom (c :: before) cs

/-- The text in lower case. -/
def lower (s : String) : String := String.ofList (lowerFrom [] s.toList)

end RequestPlan.Text
