import RequestPlan.Proofs.Sql.Places
import RequestPlan.Proofs.Sql.Reading

/-!
# Words of a rendered condition

How pieces of a text are cut into words and groups, each piece on its own.

* `Scans`: a piece has these items, wherever it stands before the end of a word.
* `Scans.word`, `Scans.spaced`, `Scans.group`: a word, two pieces with a blank between them,
  and a piece in parentheses.
* `Identifier`: the texts that are read as a name.
* `placed?_slot`, `placedList?_slots`: the places that a clause writes are read as the values
  behind those of the clauses before it.
-/

namespace RequestPlan.Sql

/-! ## Pieces of a text -/

/-- What follows a word. -/
def EndsWord (cs : List Char) : Prop := ∀ c ∈ cs.head?, isBreak c = true

/-- The items of a piece of text, whatever was read before it and whatever follows, as long as
that does not go on with its last word. -/
def Scans (cs : List Char) (is : List Item) : Prop :=
  ∀ outer items rest, EndsWord rest →
    Scan.finish? ⟨outer, items, []⟩ (cs ++ rest) = Scan.finish? ⟨outer, items ++ is, []⟩ rest

@[simp] theorem flush_outer (s : Scan) : s.flush.outer = s.outer := by
  unfold Scan.flush
  split <;> rfl

@[simp] theorem flush_flush (s : Scan) : s.flush.flush = s.flush := by
  unfold Scan.flush
  split
  · rfl
  · simp

/-- A word ends before a break, whether it is taken there or here. -/
theorem finish?_flush (s : Scan) {rest : List Char} (h : EndsWord rest) :
    Scan.finish? s.flush rest = Scan.finish? s rest := by
  cases rest with
  | nil => simp [Scan.finish?]
  | cons c rest =>
    have hc : isBreak c = true := h c rfl
    -- whatever the break is, the word is taken before it, and a second time nothing is left
    unfold Scan.finish?
    simp only [flush_flush, flush_outer]
    by_cases hspace : isSpace c = true
    · simp [hspace]
    · by_cases hopen : c = '('
      · simp [hopen]
      · by_cases hclose : c = ')'
        · simp [hclose]
        · simp [isBreak, hspace, hopen, hclose] at hc

theorem finish?_word (outer : List (List Item)) (items : List Item) {w : List Char}
    (hw : w.any isBreak = false) (done rest : List Char) :
    Scan.finish? ⟨outer, items, done⟩ (w ++ rest) =
      Scan.finish? ⟨outer, items, done ++ w⟩ rest := by
  induction w generalizing done with
  | nil => simp
  | cons c w ih =>
    rw [List.any_cons, Bool.or_eq_false_iff] at hw
    obtain ⟨hc, hw⟩ := hw
    simp only [isBreak, Bool.or_eq_false_iff, decide_eq_false_iff_not] at hc
    obtain ⟨⟨hspace, hopen⟩, hclose⟩ := hc
    rw [List.cons_append, Scan.finish?]
    simp only [hspace, hopen, hclose, if_false, Bool.false_eq_true]
    rw [ih hw, List.append_assoc, List.singleton_append]

theorem EndsWord.append {cs rest : List Char} (hc : EndsWord cs) (hr : EndsWord rest) :
    EndsWord (cs ++ rest) := by
  cases cs with
  | nil => exact hr
  | cons c cs => exact hc

namespace Scans

variable {cs ds : List Char} {is js : List Item}

/-- A word is one item. -/
theorem word {w : List Char} (hne : w ≠ []) (hw : w.any isBreak = false) :
    Scans w [.ofWord w] := by
  intro outer items rest hr
  rw [finish?_word outer items hw, ← finish?_flush _ hr]
  simp [Scan.flush, hne]

theorem append (hc : Scans cs is) (hd : Scans ds js) (h : EndsWord ds) :
    Scans (cs ++ ds) (is ++ js) := by
  intro outer items rest hr
  rw [List.append_assoc, hc _ _ _ (h.append hr), hd _ _ _ hr, List.append_assoc]

theorem blank (hd : Scans ds js) : Scans (' ' :: ds) js := by
  intro outer items rest hr
  rw [List.cons_append, Scan.finish?, if_pos (by decide)]
  exact hd outer items rest hr

/-- Two pieces with a blank between them. -/
theorem spaced (hc : Scans cs is) (hd : Scans ds js) : Scans (cs ++ ' ' :: ds) (is ++ js) :=
  hc.append hd.blank (by intro c hc; cases hc; decide)

/-- A piece in parentheses. -/
theorem group (hc : Scans cs is) : Scans ('(' :: (cs ++ [')'])) [.group is] := by
  intro outer items rest hr
  have hclose : EndsWord (')' :: rest) := by intro c hc; cases hc; decide
  rw [List.cons_append, List.append_assoc, Scan.finish?, if_neg (by decide), if_pos rfl]
  simp only [List.singleton_append, Scan.flush, if_true]
  -- what was read before is set aside until the parenthesis is closed
  rw [hc _ _ _ hclose, Scan.finish?, if_neg (by decide), if_neg (by decide), if_pos rfl]
  simp [Scan.flush]

theorem items?_eq {t : String} (h : Scans t.toList is) : items? t = some is := by
  have hend := h [] [] [] (by intro c hc; cases hc)
  simpa [items?, Scan.finish?, Scan.flush] using hend

end Scans

/-! ## Names -/

/-- A text that is read as a name: it is not empty, has no white space and no parenthesis, and
is no keyword. -/
def Identifier (t : String) : Prop :=
  t ≠ "" ∧ t.toList.any isBreak = false ∧ Keyword.of? t.toList = none

instance (t : String) : Decidable (Identifier t) :=
  inferInstanceAs (Decidable (_ ∧ _ ∧ _))

theorem Identifier.scans {t : String} (h : Identifier t) : Scans t.toList [.word t] := by
  obtain ⟨hne, hbreak, hkey⟩ := h
  have hword := Scans.word (by simpa using hne) hbreak
  rwa [Item.ofWord, hkey, String.ofList_toList] at hword

theorem of?_spelling (k : Keyword) : Keyword.of? k.spelling = some k := by
  cases k <;> decide

theorem any_isBreak_spelling (k : Keyword) : k.spelling.any isBreak = false := by
  cases k <;> decide

/-- A keyword is one item. -/
theorem scans_keyword (k : Keyword) : Scans k.spelling [.key k] := by
  have hne : k.spelling ≠ [] := by cases k <;> exact List.cons_ne_nil _ _
  have hword := Scans.word hne (any_isBreak_spelling k)
  rwa [Item.ofWord, of?_spelling] at hword

/-! ## Places -/

/-- The values that stand behind so many others. -/
def Bound (params : List Value) (bound : Nat) (vs : List Value) : Prop :=
  vs <+: params.drop bound

theorem Bound.left {params us vs : List Value} {bound : Nat} (h : Bound params bound (us ++ vs)) :
    Bound params bound us :=
  (List.prefix_append us vs).trans h

theorem Bound.right {params us vs : List Value} {bound : Nat} (h : Bound params bound (us ++ vs)) :
    Bound params (bound + us.length) vs := by
  obtain ⟨ws, hws⟩ := h
  refine ⟨ws, ?_⟩
  rw [← List.drop_drop, ← hws, List.append_assoc, List.drop_left]

theorem Bound.head {params vs : List Value} {bound : Nat} {v : Value}
    (h : Bound params bound (v :: vs)) : params[bound]? = some v := by
  obtain ⟨ws, hws⟩ := h
  rw [← Nat.add_zero bound, ← List.getElem?_drop, ← hws]
  rfl

theorem Bound.tail {params vs : List Value} {bound : Nat} {v : Value}
    (h : Bound params bound (v :: vs)) : Bound params (bound + 1) vs :=
  (show Bound params bound ([v] ++ vs) from h).right

theorem isBreak_eq_false_of_isDigit {c : Char} (h : c.isDigit = true) : isBreak c = false := by
  rw [Bool.eq_false_iff]
  intro hbreak
  simp only [isBreak, isSpace, Bool.or_eq_true, decide_eq_true_eq] at hbreak
  rcases hbreak with ((((((rfl | rfl) | rfl) | rfl) | rfl) | rfl) | rfl) | rfl <;>
    exact absurd h (by decide)

/-- A place is a word that is no keyword, and so it is with a comma behind it. -/
theorem identifier_slot_append (n : Nat) (tail : String)
    (htail : tail.toList.any isBreak = false := by decide) : Identifier (slot n ++ tail) := by
  have htext : (slot n ++ tail).toList = '$' :: (Nat.toDigits 10 (n + 1) ++ tail.toList) := by
    rw [String.toList_append, slot_toList, List.cons_append]
  refine ⟨?_, ?_, ?_⟩
  · intro hempty
    rw [hempty] at htext
    simp at htext
  · have hdigits : (Nat.toDigits 10 (n + 1)).any isBreak = false :=
      List.any_eq_false.2 fun c hc => by
        have hdigit : c.isDigit = true := Nat.isDigit_of_mem_toDigits (by decide) (by decide) hc
        simp [isBreak_eq_false_of_isDigit hdigit]
    rw [htext, List.any_cons, List.any_append, hdigits, htail]
    rfl
  · rw [htext]
    simp [Keyword.of?, Keyword.all, Keyword.spelling]

theorem identifier_slot (n : Nat) : Identifier (slot n) := by
  have h := identifier_slot_append n ""
  rwa [String.append_empty] at h

/-- A place is read as the value behind so many others. -/
theorem placed?_slot (params : List Value) (n : Nat) :
    placed? params (slot n).toList = params[n]? := by
  have hall : (Nat.toDigits 10 (n + 1)).all Char.isDigit = true :=
    List.all_eq_true.2 fun c hc => Nat.isDigit_of_mem_toDigits (by decide) (by decide) hc
  have hnumber : placeNumber? (slot n).toList = some (n + 1) := by
    rw [slot_toList, placeNumber?, if_pos ⟨Nat.toDigits_ne_nil, hall⟩,
      Nat.ofDigitChars_toDigits (by decide) (by decide)]
  rw [placed?, hnumber]

theorem ofWord_slot {params vs : List Value} {bound : Nat} {v : Value}
    (h : Bound params bound (v :: vs)) : Term.ofWord params (slot bound) = .value v := by
  rw [Term.ofWord, placed?_slot, h.head]

/-- The places of a list are read as its values. -/
theorem placedList?_slots {params : List Value} (v : Value) (vs : List Value) {bound : Nat}
    (h : Bound params bound (v :: vs)) :
    ∃ is, Scans (Text.joinWith ", " (slots bound (vs.length + 1))).toList is ∧
      placedList? params is = some (v :: vs) := by
  induction vs generalizing v bound with
  | nil =>
    refine ⟨[.word (slot bound)], (identifier_slot bound).scans, ?_⟩
    rw [placedList?, placed?_slot, h.head, Option.map_some]
  | cons w vs ih =>
    obtain ⟨is, hscan, hread⟩ := ih w h.tail
    -- a comma belongs to the word in front of it
    refine ⟨.word (slot bound ++ ",") :: is, ?_, ?_⟩
    · have hspaced := (identifier_slot_append bound ",").scans.spaced hscan
      rw [slots, List.length_cons, slots, Text.joinWith_cons_cons, ← slots]
      simpa [String.toList_append] using hspaced
    · rw [placedList?, String.toList_append]
      · simp [placed?_slot, h.head, hread]
      · intro hnil
        rw [hnil] at hread
        simp [placedList?] at hread

end RequestPlan.Sql
