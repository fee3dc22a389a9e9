import RequestPlan.Text.WidthTable

/-!
# Width of a text on a terminal

* `width`: the columns that a text takes. The characters are taken from the last to the
  first, since what stands behind a character decides whether it shares its columns: an
  emoji with a skin tone, emoji joined to one sign, letters that form a ligature.
* `alone`: the columns of a character by itself.
* `before?`: the columns of a character in front of something that it combines with.
-/

namespace RequestPlan.Text

/-- The end of a ligature. A letter may be `joined` to what comes in front of it by a
zero-width joiner. -/
inductive Ligature where
  | alef
  | lamed (joined : Bool)
  | ya (joined : Bool)
  /-- A ya joined to the vowel i in front of it. -/
  | yaWithVowel
  | tifinagh (joined : Bool)
  /-- A Tifinagh consonant behind a consonant joiner. -/
  | tifinaghPair
  | lisuTone
  | orkhonI (joined : Bool)
  /-- A Khmer letter that may stand below another. -/
  | coengLetter
deriving DecidableEq

/-- What a character is in front of. -/
inductive Behind where
  | nothing
  | lineEnd
  | skinTone
  | flagLetter
  | flagLetters
  | emoji
  | joinedEmoji
  | joinedKeycap
  | joinedFlagLetter
  | joinedFlag
  /-- A joined flag with one more letter in front of it. -/
  | joinedFlagAndLetter
  | tagEnd
  /-- So many tag letters in front of the end of the tag. -/
  | tagLetters (count : Nat)
  /-- So many tag digits in front of the end of the tag or its letters. -/
  | tagDigits (count : Nat)
  | vowelE
  | vowelAi
  | ligature (l : Ligature)
deriving DecidableEq

/-- What a character is in front of, and the variation selectors in between. -/
structure Context where
  behind : Behind
  emojiStyle : Bool
  textStyle : Bool
  quoteStyle : Bool
deriving DecidableEq

/-- Nothing and no selector. -/
def Context.empty : Context := ⟨.nothing, false, false, false⟩

/-- What a character is in front of, without a selector. -/
def Context.plain (b : Behind) : Context := ⟨b, false, false, false⟩

/-- Whether a code point is that of a regional indicator. -/
def isFlagLetter (n : Nat) : Bool := 0x1F1E6 ≤ n && n ≤ 0x1F1FF

/-- Whether a code point is that of a skin tone. -/
def isSkinTone (n : Nat) : Bool := 0x1F3FB ≤ n && n ≤ 0x1F3FF

/-- Whether a code point is that of a Tifinagh consonant. -/
def isTifinagh (n : Nat) : Bool := (0x2D31 ≤ n && n ≤ 0x2D65) || n = 0x2D6F

/-- The letters of the group lam. -/
def lams : Ranges :=
  [(0x644, 0x644), (0x6b5, 0x6b8), (0x76a, 0x76a), (0x8a6, 0x8a6), (0x8c7, 0x8c7)]

/-- The letters of the group alef. -/
def alefs : Ranges :=
  [(0x622, 0x623), (0x625, 0x625), (0x627, 0x627), (0x671, 0x673), (0x675, 0x675),
   (0x773, 0x774), (0x870, 0x882)]

/-- The Khmer letters that have a form below another letter. -/
def coengLetters : Ranges :=
  [(0x1780, 0x1782), (0x1784, 0x1787), (0x1789, 0x178c), (0x178e, 0x1793), (0x1795, 0x1798),
   (0x179b, 0x179d), (0x17a0, 0x17a0), (0x17a2, 0x17a2), (0x17a7, 0x17a7), (0x17ab, 0x17ac),
   (0x17af, 0x17af)]

/-- The ignorable marks that no ligature but the Arabic one minds. -/
def ignorableMarks : Ranges :=
  [(0x34f, 0x34f), (0x17b4, 0x17b5), (0x180b, 0x180d), (0x180f, 0x180f), (0xfe00, 0xfe0f),
   (0xe0100, 0xe01ef)]

/-- Whether Arabic letters join across the character. -/
def isTransparent (c : Char) : Bool := zeroWidth.has c && !solidMarks.has c

/-- Whether a selector behind the character shows it as text in one column. -/
def hasTextStyle (c : Char) : Bool :=
  styled.has c && emojis.has c && !(0x1F200 ≤ c.toNat && c.toNat ≤ 0x1F2FF)

/-- Whether a character ends a ligature, and which. -/
def ligatureEnd? (c : Char) : Option Ligature :=
  let n := c.toNat
  if n = 0x5DC then some (.lamed false)
  else if alefs.has c then some .alef
  else if coengLetters.has c then some .coengLetter
  else if n = 0x1A10 then some (.ya false)
  else if isTifinagh n then some (.tifinagh false)
  else if n = 0xA4FC || n = 0xA4FD then some .lisuTone
  else if n = 0x10C03 then some (.orkhonI false)
  else none

/-- The columns of a character by itself, and what it is for the one in front of it. -/
def alone (c : Char) : Int × Context :=
  let n := c.toNat
  if n ≤ 0xA0 then (1, .plain (if n = 0xA then .lineEnd else .nothing))
  else if n = 0xFE01 then (0, { Context.empty with quoteStyle := true })
  else if n = 0xFE0E then (0, { Context.empty with textStyle := true })
  else if n = 0xFE0F then (0, { Context.empty with emojiStyle := true })
  else if zeroWidth.has c then (0, .empty)
  else if n = 0x17D8 then (3, .empty)
  else if n = 0x16D67 then (1, .plain .vowelE)
  else if n = 0x16D68 then (1, .plain .vowelAi)
  else if isFlagLetter n then (1, .plain .flagLetter)
  else if isSkinTone n then (2, .plain .skinTone)
  else if emojis.has c then (2, .plain .emoji)
  else if wide.has c then (2, .empty)
  else (1, .plain ((ligatureEnd? c).elim .nothing .ligature))

/-- The columns that a character adds in front of the end of a ligature. -/
def Ligature.before? (l : Ligature) (c : Char) : Option (Int × Behind) :=
  let n := c.toNat
  match l with
  | .alef =>
    if lams.has c then some (0, .nothing)
    else if isTransparent c then some (0, .ligature .alef)
    else none
  | .lamed joined => if joined && n = 0x5D0 then some (0, .nothing) else none
  | .ya joined => if joined && n = 0x1A17 then some (0, .ligature .yaWithVowel) else none
  | .yaWithVowel => if n = 0x1A15 then some (0, .nothing) else none
  | .tifinagh joined =>
    if n = 0x2D7F then some (1, .ligature .tifinaghPair)
    else if joined && isTifinagh n then some (0, .nothing)
    else none
  | .tifinaghPair => if isTifinagh n then some (-1, .nothing) else none
  | .lisuTone => if 0xA4F8 ≤ n && n ≤ 0xA4FB then some (0, .nothing) else none
  | .orkhonI joined => if joined && n = 0x10C32 then some (0, .nothing) else none
  | .coengLetter => if n = 0x17D2 then some (-1, .nothing) else none

/-- The end of a ligature behind a zero-width joiner. -/
def Ligature.join : Ligature → Ligature
  | .lamed _ => .lamed true
  | .ya _ => .ya true
  | .tifinagh _ => .tifinagh true
  | .orkhonI _ => .orkhonI true
  | l => l

/-- The character in front of a tag of so many letters: more of the tag, or its flag, which
takes three letters or more. -/
def tagLetterBefore? (count : Nat) (n : Nat) : Option (Int × Behind) :=
  if count < 6 && 0xE0061 ≤ n && n ≤ 0xE007A then some (0, .tagLetters (count + 1))
  else if count < 5 && 0xE0030 ≤ n && n ≤ 0xE0039 then some (0, .tagDigits 1)
  else if 3 ≤ count && n = 0x1F3F4 then some (0, .emoji)
  else none

/-- The character in front of a tag of so many digits: more of them, or the flag, which takes
three. -/
def tagDigitBefore? (count : Nat) (n : Nat) : Option (Int × Behind) :=
  if count < 3 && 0xE0030 ≤ n && n ≤ 0xE0039 then some (0, .tagDigits (count + 1))
  else if count = 3 && n = 0x1F3F4 then some (0, .emoji)
  else none

/-- The columns that a character adds in front of an emoji with a joiner before it. -/
def beforeJoinedEmoji? (c : Char) : Option (Int × Behind) :=
  let n := c.toNat
  if n = 0x20E3 then some (0, .joinedKeycap)
  else if isFlagLetter n then some (1, .joinedFlagLetter)
  else if isSkinTone n then some (0, .skinTone)
  else if n = 0xE007F then some (0, .tagEnd)
  else if emojis.has c then some (0, .emoji)
  else none

/-- The columns that a character adds in front of something it combines with. -/
def Behind.before? (b : Behind) (c : Char) : Option (Int × Behind) :=
  let n := c.toNat
  let joiner : Option (Int × Behind) := if n = 0x200D then some (0, .joinedEmoji) else none
  match b with
  | .nothing | .lineEnd | .joinedKeycap => none
  | .ligature l => l.before? c
  | .skinTone => if modifierBases.has c then some (0, .emoji) else joiner
  | .flagLetter => if isFlagLetter n then some (1, .flagLetters) else none
  | .flagLetters => if isFlagLetter n then some (1, .flagLetters) else joiner
  | .emoji => joiner
  | .joinedEmoji => beforeJoinedEmoji? c
  | .joinedFlagLetter => if isFlagLetter n then some (-1, .joinedFlag) else none
  | .joinedFlag => if isFlagLetter n then some (3, .joinedFlagAndLetter) else joiner
  | .joinedFlagAndLetter => if isFlagLetter n then some (-1, .joinedFlag) else joiner
  | .tagEnd => tagLetterBefore? 0 n
  | .tagLetters count => tagLetterBefore? count n
  | .tagDigits count => tagDigitBefore? count n
  | .vowelE =>
    if n = 0x16D63 || n = 0x16D69 then some (0, .nothing)
    else if n = 0x16D67 then some (0, .vowelAi)
    else if n = 0x16D68 then some (1, .vowelE)
    else none
  | .vowelAi => if n = 0x16D63 then some (0, .nothing) else none

/-- Whether selectors in front of it leave the end of a ligature in place. -/
def Behind.isLigature : Behind → Bool
  | .ligature _ => true
  | _ => false

/-- The context in front of an emoji selector. -/
def Context.withEmojiStyle (s : Context) : Context :=
  match s.behind with
  | .ligature _ | .joinedEmoji | .joinedKeycap => { s with emojiStyle := true }
  | _ => { Context.empty with emojiStyle := true }

/-- The context in front of a text selector. -/
def Context.withTextStyle (s : Context) : Context :=
  if s.behind.isLigature then { s with textStyle := true }
  else { Context.empty with textStyle := true }

/-- The context in front of a selector for wide quotation marks. -/
def Context.withQuoteStyle (s : Context) : Context :=
  if s.behind.isLigature then { s with quoteStyle := true }
  else { Context.empty with quoteStyle := true }

/-- The ignorable characters that stay inside of a ligature. -/
def Context.within? (s : Context) (c : Char) : Option Context :=
  match s.behind with
  | .ligature .alef => none
  | .ligature l =>
    if c.toNat = 0x200D then some { s with behind := .ligature l.join }
    else if ignorableMarks.has c then some s
    else none
  | _ => none

/-- The columns of a character in front of what it may form a ligature or an emoji with. -/
def Context.combined (s : Context) (c : Char) : Int × Context :=
  match s.within? c with
  | some s => (0, s)
  | none =>
    match s.behind.before? c with
    | some (columns, b) => (columns, .plain b)
    | none => alone c

/-- Whether a selector makes the quotation mark wide. -/
def isQuotationMark (c : Char) : Bool :=
  c = '\u2018' || c = '\u2019' || c = '\u201C' || c = '\u201D'

/-- The columns of a character in front of a text selector, one for quotation marks, both in
any order, or none. A selector that says nothing of the character is passed over. -/
def Context.selected (s : Context) (c : Char) : Int × Context :=
  if s.textStyle && hasTextStyle c then (1, .empty)
  else if s.quoteStyle && isQuotationMark c then (2, .empty)
  else Context.combined { s with textStyle := false, quoteStyle := false } c

/-- The columns of a character that no emoji selector applies to. -/
def Context.unstyled (s : Context) (c : Char) : Int × Context :=
  let n := c.toNat
  if n ≤ 0xA0 then if n = 0xD && s = .plain .lineEnd then (0, .empty) else alone c
  else if n = 0xFE0F then (0, s.withEmojiStyle)
  else if n = 0xFE0E then (0, s.withTextStyle)
  else if n = 0xFE01 then (0, s.withQuoteStyle)
  else s.selected c

/-- The columns that a character adds in its context, and the context that it makes. -/
def Context.add (s : Context) (c : Char) : Int × Context :=
  if s.emojiStyle then
    if styled.has c then
      match s.behind with
      | .joinedEmoji | .joinedKeycap => (0, .plain .emoji)
      | _ => (2, .plain .emoji)
    else if s.behind.isLigature then Context.unstyled { s with emojiStyle := false } c
    else Context.empty.unstyled c
  else s.unstyled c

/-- The columns of a text and the context that it makes for what is in front of it. -/
def columns : List Char → Int × Context
  | [] => (0, .empty)
  | c :: cs =>
    let (after, s) := columns cs
    let (here, s) := s.add c
    (here + after, s)

/-- The columns of a text. -/
def width (s : String) : Nat := (columns s.toList).1.toNat

end RequestPlan.Text
