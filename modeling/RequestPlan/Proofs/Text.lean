import RequestPlan.Text.Split

/-!
# Splitting and joining

* `not_mem_of_mem_splitOn`: no part of a text has the separator.
* `splitOn_joinWith`: **parts without the separator are the parts of the joined text**, so that
  different parts have different texts.
* `mem_joinWith`: what stands in the joined text stands in a part or in the separator.
* `cut?_append`, `cutLast?_append`: a text is cut at the first separator, or at the last one;
  `append_of_cutLast?`: what stands on both sides is all of a text; `cutLast?_of_not_mem`: a text
  without the separator has no last one.
-/

namespace RequestPlan.Text

theorem not_mem_of_mem_splitChars {sep : Char} {cs part : List Char}
    (h : part ∈ splitChars sep cs) : sep ∉ part := by
  induction cs generalizing part with
  | nil =>
    rw [splitChars, List.mem_singleton] at h
    subst h
    exact List.not_mem_nil
  | cons c cs ih =>
    rw [splitChars] at h
    split at h
    · rcases List.mem_cons.1 h with rfl | h
      · exact List.not_mem_nil
      · exact ih h
    · rename_i hc
      cases hp : splitChars sep cs with
      | nil => exact absurd hp (splitChars_ne_nil sep cs)
      | cons first rest =>
        rw [hp] at h ih
        rcases List.mem_cons.1 h with rfl | h
        · intro hmem
          rcases List.mem_cons.1 hmem with hsep | hmem
          · exact hc hsep.symm
          · exact ih List.mem_cons_self hmem
        · exact ih (List.mem_cons_of_mem _ h)

theorem splitChars_of_not_mem {sep : Char} {part : List Char} (h : sep ∉ part) :
    splitChars sep part = [part] := by
  induction part with
  | nil => rfl
  | cons c part ih =>
    rw [List.mem_cons, not_or] at h
    rw [splitChars, if_neg (Ne.symm h.1), ih h.2]

/-- A separator more divides the parts before it from those behind it. -/
theorem splitChars_append (sep : Char) (cs ds : List Char) :
    splitChars sep (cs ++ sep :: ds) = splitChars sep cs ++ splitChars sep ds := by
  induction cs with
  | nil =>
    show splitChars sep (sep :: ds) = [] :: splitChars sep ds
    rw [splitChars, if_pos rfl]
  | cons c cs ih =>
    rw [List.cons_append, splitChars, splitChars, ih]
    split
    · rw [List.cons_append]
    · cases hp : splitChars sep cs with
      | nil => exact absurd hp (splitChars_ne_nil sep cs)
      | cons part parts => rfl

theorem splitOn_of_not_mem {sep : Char} {s : String} (h : sep ∉ s.toList) : splitOn sep s = [s] := by
  rw [splitOn, splitChars_of_not_mem h, List.map_singleton, String.ofList_toList]

theorem splitOn_append (sep : Char) (s t : String) :
    splitOn sep (s ++ String.singleton sep ++ t) = splitOn sep s ++ splitOn sep t := by
  have hchars : (s ++ String.singleton sep ++ t).toList = s.toList ++ sep :: t.toList := by simp
  rw [splitOn, hchars, splitChars_append, List.map_append]
  rfl

theorem not_mem_of_mem_splitOn {sep : Char} {s part : String} (h : part ∈ splitOn sep s) :
    sep ∉ part.toList := by
  obtain ⟨cs, hcs, rfl⟩ := List.mem_map.1 h
  rw [String.toList_ofList]
  exact not_mem_of_mem_splitChars hcs

/-- **Parts without the separator are read back from the joined text.** -/
theorem splitOn_joinWith {sep : Char} {parts : List String} (hne : parts ≠ [])
    (h : ∀ part ∈ parts, sep ∉ part.toList) :
    splitOn sep (joinWith (String.singleton sep) parts) = parts := by
  induction parts with
  | nil => exact absurd rfl hne
  | cons a parts ih =>
    have ha : sep ∉ a.toList := h a List.mem_cons_self
    cases parts with
    | nil =>
      -- one part is not split
      exact splitOn_of_not_mem ha
    | cons b parts =>
      -- the first separator of the text is the one behind the first part
      have htext : (joinWith (String.singleton sep) (a :: b :: parts)).toList =
          a.toList ++ sep :: (joinWith (String.singleton sep) (b :: parts)).toList := by
        rw [joinWith_cons_cons]
        simp
      have hrest : splitOn sep (joinWith (String.singleton sep) (b :: parts)) = b :: parts :=
        ih (List.cons_ne_nil _ _) fun part hpart => h part (List.mem_cons_of_mem a hpart)
      rw [splitOn] at hrest
      rw [splitOn, htext, splitChars_append, splitChars_of_not_mem ha, List.map_append, hrest,
        List.map_singleton, String.ofList_toList, List.singleton_append]

/-- Joined parts have the characters of the parts and of the separator. -/
theorem mem_joinWith {sep : String} {parts : List String} {c : Char}
    (h : c ∈ (joinWith sep parts).toList) : c ∈ sep.toList ∨ ∃ part ∈ parts, c ∈ part.toList := by
  induction parts with
  | nil => cases h
  | cons a parts ih =>
    cases parts with
    | nil => exact .inr ⟨a, List.mem_cons_self, h⟩
    | cons b parts =>
      rw [joinWith_cons_cons, String.toList_append, String.toList_append, List.mem_append,
        List.mem_append] at h
      rcases h with (h | h) | h
      · exact .inr ⟨a, List.mem_cons_self, h⟩
      · exact .inl h
      · obtain hsep | ⟨part, hpart, hc⟩ := ih h
        · exact .inl hsep
        · exact .inr ⟨part, List.mem_cons_of_mem a hpart, hc⟩

theorem cutChars?_append {sep : Char} {cs : List Char} (h : sep ∉ cs) (ds : List Char) :
    cutChars? sep (cs ++ sep :: ds) = some (cs, ds) := by
  induction cs with
  | nil => exact if_pos rfl
  | cons c cs ih =>
    rw [List.mem_cons, not_or] at h
    rw [List.cons_append, cutChars?, if_neg (Ne.symm h.1), ih h.2, Option.map_some]

/-- A text is cut at its first separator. -/
theorem cut?_append {sep : Char} {s : String} (h : sep ∉ s.toList) (t : String) :
    cut? sep (s ++ String.singleton sep ++ t) = some (s, t) := by
  have hchars : (s ++ String.singleton sep ++ t).toList = s.toList ++ sep :: t.toList := by simp
  rw [cut?, hchars, cutChars?_append h, Option.map_some, String.ofList_toList,
    String.ofList_toList]

theorem append_of_cutChars? {sep : Char} {cs before rest : List Char}
    (h : cutChars? sep cs = some (before, rest)) : cs = before ++ sep :: rest := by
  induction cs generalizing before with
  | nil => cases h
  | cons c cs ih =>
    rw [cutChars?] at h
    split at h
    · rename_i hc
      cases h
      rw [hc, List.nil_append]
    · obtain ⟨⟨before', rest'⟩, hcut, heq⟩ := Option.map_eq_some_iff.1 h
      cases heq
      rw [List.cons_append, ← ih hcut]

/-- The two sides of the last separator are all of a text but for the separator. -/
theorem append_of_cutLast? {sep : Char} {s before rest : String}
    (h : cutLast? sep s = some (before, rest)) :
    s.toList = before.toList ++ sep :: rest.toList := by
  obtain ⟨⟨after, front⟩, hcut, heq⟩ := Option.map_eq_some_iff.1 h
  cases heq
  have hsides := congrArg List.reverse (append_of_cutChars? hcut)
  simpa using hsides

theorem cutChars?_of_not_mem {sep : Char} {cs : List Char} (h : sep ∉ cs) :
    cutChars? sep cs = none := by
  induction cs with
  | nil => rfl
  | cons c cs ih =>
    rw [List.mem_cons, not_or] at h
    rw [cutChars?, if_neg (Ne.symm h.1), ih h.2, Option.map_none]

theorem cutLast?_of_not_mem {sep : Char} {s : String} (h : sep ∉ s.toList) :
    cutLast? sep s = none := by
  rw [cutLast?, cutChars?_of_not_mem (mt List.mem_reverse.1 h), Option.map_none]

/-- A text is cut at its last separator. -/
theorem cutLast?_append {sep : Char} {t : String} (h : sep ∉ t.toList) (s : String) :
    cutLast? sep (s ++ String.singleton sep ++ t) = some (s, t) := by
  have hchars : (s ++ String.singleton sep ++ t).toList.reverse =
      t.toList.reverse ++ sep :: s.toList.reverse := by simp
  rw [cutLast?, hchars, cutChars?_append (mt List.mem_reverse.1 h), Option.map_some]
  simp

end RequestPlan.Text
