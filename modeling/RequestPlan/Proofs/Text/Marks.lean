import Mathlib.Data.List.Infix
import RequestPlan.Text.Split

/-!
# Starts, ends and marks

* `dropPrefix?_eq_some_iff`, `dropSuffix?_eq_some_iff`: what is left of a text without its start or
  its end, put back, is the text.
* `splitOnMark_of_not_infix`, `not_infix_of_mem_splitOnMark`: **a text is its only part exactly
  when it does not have the mark**; no part has it.
-/

namespace RequestPlan.Text

variable {mark cs rest part : List Char} {s t : String}

/-! ## Starts and ends -/

theorem after?_append (start rest : List Char) : after? start (start ++ rest) = some rest := by
  induction start with
  | nil => rfl
  | cons c start ih => rw [List.cons_append, after?, if_pos rfl, ih]

theorem after?_eq_some_iff : after? mark cs = some rest ↔ mark ++ rest = cs := by
  refine ⟨append_of_after?, ?_⟩
  rintro rfl
  exact after?_append mark rest

theorem after?_eq_none_iff : after? mark cs = none ↔ ¬ mark <+: cs := by
  rw [Option.eq_none_iff_forall_ne_some]
  simp only [ne_eq, after?_eq_some_iff, List.IsPrefix, not_exists]

theorem dropPrefix?_eq_some_iff {start : String} :
    dropPrefix? start s = some t ↔ start ++ t = s := by
  refine ⟨append_of_dropPrefix?, ?_⟩
  rintro rfl
  rw [dropPrefix?, String.toList_append, after?_append, Option.map_some, String.ofList_toList]

theorem dropSuffix?_eq_some_iff {stop : String} :
    dropSuffix? stop s = some t ↔ t ++ stop = s := by
  constructor
  · intro h
    obtain ⟨cs, hcs, rfl⟩ := Option.map_eq_some_iff.1 h
    have hs := congrArg List.reverse (append_of_after? hcs)
    rw [List.reverse_append, List.reverse_reverse, List.reverse_reverse] at hs
    rw [← String.toList_inj, String.toList_append, String.toList_ofList, hs]
  · rintro rfl
    rw [dropSuffix?, String.toList_append, List.reverse_append, after?_append, Option.map_some,
      List.reverse_reverse, String.ofList_toList]

theorem dropSuffix?_eq_none_iff {stop : String} :
    dropSuffix? stop s = none ↔ ¬ stop.toList <:+ s.toList := by
  rw [Option.eq_none_iff_forall_ne_some]
  simp only [ne_eq, dropSuffix?_eq_some_iff, ← not_exists]
  refine not_congr ⟨fun ⟨t, ht⟩ => ⟨t.toList, ?_⟩, fun ⟨cs, hcs⟩ => ⟨String.ofList cs, ?_⟩⟩
  · rw [← ht, String.toList_append]
  · rw [← String.toList_inj, String.toList_append, String.toList_ofList, hcs]

theorem dropSuffix?_append (s stop : String) : dropSuffix? stop (s ++ stop) = some s :=
  dropSuffix?_eq_some_iff.2 rfl

/-! ## Marks -/

theorem splitMark_ne_nil (mark : List Char) (inside : Nat) (cs : List Char) :
    splitMark mark inside cs ≠ [] := by
  induction cs generalizing inside with
  | nil => cases inside <;> exact List.cons_ne_nil _ _
  | cons c cs ih =>
    cases inside with
    | succ inside => exact ih inside
    | zero =>
      rw [splitMark]
      split
      · exact List.cons_ne_nil _ _
      · split <;> exact List.cons_ne_nil _ _

theorem splitMark_of_not_infix (h : ¬ mark <:+: cs) : splitMark mark 0 cs = [cs] := by
  induction cs with
  | nil => rfl
  | cons c cs ih =>
    rw [List.infix_cons_iff, not_or] at h
    rw [splitMark, after?_eq_none_iff.2 h.1, ih h.2]

/-- The first part is a start of the text, unless this is inside a mark. -/
theorem prefix_of_splitMark {parts : List (List Char)} (h : splitMark mark 0 cs = part :: parts) :
    part <+: cs := by
  induction cs generalizing part parts with
  | nil =>
    obtain ⟨rfl, -⟩ := List.cons.inj h
    exact List.prefix_rfl
  | cons c cs ih =>
    rw [splitMark] at h
    split at h
    · obtain ⟨rfl, -⟩ := List.cons.inj h
      exact List.nil_prefix
    · split at h
      · obtain ⟨rfl, -⟩ := List.cons.inj h
        exact List.prefix_append [c] cs
      · rename_i first rest hfirst
        obtain ⟨rfl, -⟩ := List.cons.inj h
        exact List.cons_prefix_cons.2 ⟨rfl, ih hfirst⟩

theorem not_infix_of_mem_splitMark {inside : Nat} (hmark : mark ≠ [])
    (h : part ∈ splitMark mark inside cs) : ¬ mark <:+: part := by
  have hnil : ¬ mark <:+: [] := fun h => hmark (List.infix_nil.1 h)
  induction cs generalizing inside part with
  | nil =>
    cases inside <;> cases List.mem_singleton.1 h <;> exact hnil
  | cons c cs ih =>
    cases inside with
    | succ inside => exact ih h
    | zero =>
      rw [splitMark] at h
      split at h
      · rcases List.mem_cons.1 h with rfl | h
        · exact hnil
        · exact ih h
      · rename_i hafter
        have hstart : ¬ mark <+: c :: cs := after?_eq_none_iff.1 hafter
        split at h
        · rename_i hnone
          exact absurd hnone (splitMark_ne_nil mark 0 cs)
        · rename_i first rest hfirst
          rcases List.mem_cons.1 h with rfl | h
          · rw [List.infix_cons_iff, not_or]
            have hbegins : c :: first <+: c :: cs :=
              List.cons_prefix_cons.2 ⟨rfl, prefix_of_splitMark hfirst⟩
            exact ⟨fun hmark => hstart (hmark.trans hbegins),
              ih (hfirst ▸ List.mem_cons_self : first ∈ splitMark mark 0 cs)⟩
          · exact ih (hfirst ▸ List.mem_cons_of_mem _ h : part ∈ splitMark mark 0 cs)

theorem subset_of_mem_splitMark {inside : Nat} (h : part ∈ splitMark mark inside cs) :
    part ⊆ cs := by
  induction cs generalizing inside part with
  | nil => cases inside <;> cases List.mem_singleton.1 h <;> exact List.Subset.refl _
  | cons c cs ih =>
    cases inside with
    | succ inside => exact List.subset_cons_of_subset c (ih h)
    | zero =>
      rw [splitMark] at h
      split at h
      · rcases List.mem_cons.1 h with rfl | h
        · exact List.nil_subset _
        · exact List.subset_cons_of_subset c (ih h)
      · split at h
        · rename_i hnone
          exact absurd hnone (splitMark_ne_nil mark 0 cs)
        · rename_i first rest hfirst
          have hparts : ∀ part ∈ first :: rest, part ⊆ cs := fun part hpart => ih (hfirst ▸ hpart)
          rcases List.mem_cons.1 h with rfl | h
          · exact List.cons_subset_cons c (hparts first List.mem_cons_self)
          · exact List.subset_cons_of_subset c (hparts part (List.mem_cons_of_mem _ h))

theorem splitOnMark_ne_nil (mark s : String) : splitOnMark mark s ≠ [] := by
  simp [splitOnMark, splitMark_ne_nil]

/-- A text without the mark is its only part. -/
theorem splitOnMark_of_not_infix {mark : String} (h : ¬ mark.toList <:+: s.toList) :
    splitOnMark mark s = [s] := by
  rw [splitOnMark, splitMark_of_not_infix h, List.map_singleton, String.ofList_toList]

/-- **No part has the mark.** -/
theorem not_infix_of_mem_splitOnMark {mark : String} (hmark : mark ≠ "")
    (h : t ∈ splitOnMark mark s) : ¬ mark.toList <:+: t.toList := by
  obtain ⟨part, hpart, rfl⟩ := List.mem_map.1 h
  rw [String.toList_ofList]
  exact not_infix_of_mem_splitMark (fun h => hmark (String.toList_eq_nil_iff.1 h)) hpart

/-- A part has no other characters than the text. -/
theorem not_mem_of_mem_splitOnMark {mark : String} {c : Char} (h : t ∈ splitOnMark mark s)
    (hc : c ∉ s.toList) : c ∉ t.toList := by
  obtain ⟨part, hpart, rfl⟩ := List.mem_map.1 h
  rw [String.toList_ofList]
  exact fun hmem => hc (subset_of_mem_splitMark hpart hmem)

end RequestPlan.Text
