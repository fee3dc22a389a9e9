/-!
# Texts in parts

* `splitOn`, `splitOnMark`: the parts of a text between the occurrences of a separator, or of
  a longer mark; there is always at least one.
* `joinWith`: parts with a separator between them; `joinWith_splitOn` undoes the split.
* `cut?`, `cutLast?`: the two sides of the first and of the last separator.
* `dropPrefix?`, `dropSuffix?`: what is left of a text after a known start or end.
-/

namespace RequestPlan.Text

/-- The parts between the separators. -/
def splitChars (sep : Char) : List Char → List (List Char)
  | [] => [[]]
  | c :: cs =>
    if c = sep then [] :: splitChars sep cs
    else
      match splitChars sep cs with
      | [] => [[c]]
      | part :: parts => (c :: part) :: parts

/-- The parts of a text between the occurrences of a separator. -/
def splitOn (sep : Char) (s : String) : List String :=
  (splitChars sep s.toList).map String.ofList

/-- The parts with the separator between each two. -/
def joinWith (sep : String) : List String → String
  | [] => ""
  | [part] => part
  | part :: parts => part ++ sep ++ joinWith sep parts

/-- What stands before and after the first separator. -/
def cutChars? (sep : Char) : List Char → Option (List Char × List Char)
  | [] => none
  | c :: cs =>
    if c = sep then some ([], cs) else (cutChars? sep cs).map fun p => (c :: p.1, p.2)

/-- The two sides of the first separator. -/
def cut? (sep : Char) (s : String) : Option (String × String) :=
  (cutChars? sep s.toList).map fun p => (String.ofList p.1, String.ofList p.2)

/-- The two sides of the last separator. -/
def cutLast? (sep : Char) (s : String) : Option (String × String) :=
  (cutChars? sep s.toList.reverse).map fun p =>
    (String.ofList p.2.reverse, String.ofList p.1.reverse)

/-- What follows a start in the characters that begin with it. -/
def after? : (start : List Char) → List Char → Option (List Char)
  | [], cs => some cs
  | _ :: _, [] => none
  | d :: start, c :: cs => if d = c then after? start cs else none

/-- The rest of a text that starts with `start`. -/
def dropPrefix? (start s : String) : Option String :=
  (after? start.toList s.toList).map String.ofList

/-- The rest of a text that ends with `stop`. -/
def dropSuffix? (stop s : String) : Option String :=
  (after? stop.toList.reverse s.toList.reverse).map fun cs => String.ofList cs.reverse

/-- The parts between the occurrences of a mark, of characters of which the first few, so
many as `inside`, belong to an occurrence that is found already. -/
def splitMark (mark : List Char) : (inside : Nat) → List Char → List (List Char)
  | _, [] => [[]]
  | inside + 1, _ :: cs => splitMark mark inside cs
  | 0, c :: cs =>
    match after? mark (c :: cs) with
    | some _ => [] :: splitMark mark (mark.length - 1) cs
    | none =>
      match splitMark mark 0 cs with
      | [] => [[c]]
      | part :: parts => (c :: part) :: parts

/-- The parts of a text between the occurrences of a mark of one character or more. -/
def splitOnMark (mark s : String) : List String :=
  (splitMark mark.toList 0 s.toList).map String.ofList

theorem splitChars_ne_nil (sep : Char) (cs : List Char) : splitChars sep cs ≠ [] := by
  cases cs with
  | nil => simp [splitChars]
  | cons c cs =>
    unfold splitChars
    split
    · simp
    · split <;> simp

theorem splitOn_ne_nil (sep : Char) (s : String) : splitOn sep s ≠ [] := by
  simp [splitOn, splitChars_ne_nil]

theorem append_of_after? {p s r : List Char} (h : after? p s = some r) : p ++ r = s := by
  induction p generalizing s with
  | nil => simpa [after?] using h.symm
  | cons d p ih =>
    cases s with
    | nil => simp [after?] at h
    | cons c s =>
      simp only [after?] at h
      split at h
      · rename_i hc
        rw [List.cons_append, ih h, hc]
      · cases h

/-- **What is dropped is the start.** -/
theorem append_of_dropPrefix? {start s r : String} (h : dropPrefix? start s = some r) :
    start ++ r = s := by
  obtain ⟨cs, hcs, rfl⟩ := Option.map_eq_some_iff.1 h
  apply String.toList_inj.1
  simp [append_of_after? hcs]

theorem joinWith_cons_cons (sep a b : String) (r : List String) :
    joinWith sep (a :: b :: r) = a ++ sep ++ joinWith sep (b :: r) := rfl

/-- Writing a character in front of the first part writes it in front of the whole. -/
theorem joinWith_push (sep a : String) (b : String) (r : List String) :
    joinWith sep ((a ++ b) :: r) = a ++ joinWith sep (b :: r) := by
  cases r with
  | nil => rfl
  | cons c r => simp [joinWith, String.append_assoc]

/-- **Joining the parts gives the text back.** -/
theorem joinWith_splitOn (sep : Char) (s : String) :
    joinWith (String.singleton sep) (splitOn sep s) = s := by
  have key : ∀ cs : List Char,
      joinWith (String.singleton sep) ((splitChars sep cs).map String.ofList) =
        String.ofList cs := by
    intro cs
    induction cs with
    | nil => rfl
    | cons c cs ih =>
      unfold splitChars
      split
      · rename_i h
        subst h
        cases hp : splitChars c cs with
        | nil => exact absurd hp (splitChars_ne_nil c cs)
        | cons p ps =>
          rw [hp] at ih
          rw [List.map_cons, List.map_cons, joinWith_cons_cons, ← List.map_cons, ih]
          apply String.toList_inj.1
          simp
      · cases hp : splitChars sep cs with
        | nil => exact absurd hp (splitChars_ne_nil sep cs)
        | cons p ps =>
          rw [hp] at ih
          have hc : String.ofList (c :: p) = String.singleton c ++ String.ofList p := by
            apply String.toList_inj.1; simp
          have hcs : String.ofList (c :: cs) = String.singleton c ++ String.ofList cs := by
            apply String.toList_inj.1; simp
          rw [List.map_cons] at ih
          simp only [List.map_cons]
          rw [hc, hcs, joinWith_push, ih]
  simpa [splitOn] using key s.toList

end RequestPlan.Text
