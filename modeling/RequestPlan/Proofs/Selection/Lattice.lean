import Mathlib.Order.Lattice
import RequestPlan.Proofs.Selection.Order

/-!
# Unions as least upper bounds

A selection lies within another one that has all its paths and all its levels, the levels at which
nothing is selected among them.

* `merge_within_iff`: a union lies within whatever both its parts lie within.
* `InOrder`: selections in order are a semilattice, in which the union is the join and the empty
  selection the least element.
* `foldl_merge_eq`: **several selections have one union**, in whatever order they come and however
  often.
* `merge_laws`: the laws of unions, with the paths and the levels that a union has.
-/

namespace RequestPlan
namespace Selection

variable {s t u : Selection}

/-- Whatever a selection has, another one has: its paths, and its levels. -/
structure Within (s t : Selection) : Prop where
  paths : ∀ path ∈ s.paths, path ∈ t.paths
  levels : ∀ path, s.HasLevel path → t.HasLevel path

theorem Within.refl (s : Selection) : s.Within s := ⟨fun _ h => h, fun _ h => h⟩

theorem Within.trans (hst : s.Within t) (htu : t.Within u) : s.Within u where
  paths path h := htu.paths path (hst.paths path h)
  levels path h := htu.levels path (hst.levels path h)

/-- Selections in order that lie within each other are the same. -/
theorem Ordered.antisymm (hs : s.Ordered) (ht : t.Ordered) (hst : s.Within t) (hts : t.Within s) :
    s = t :=
  hs.ext ht (fun path => ⟨hst.paths path, hts.paths path⟩)
    fun path => ⟨hst.levels path, hts.levels path⟩

theorem ordered_level_iff {columns : List String} {relations : List (String × Selection)} :
    (⟨columns, relations⟩ : Selection).Ordered ↔ columns.Pairwise (· < ·) ∧
      relations.Pairwise (fun e f => e.1 < f.1) ∧ ∀ e ∈ relations, e.2.Ordered :=
  ⟨fun h => ⟨h.columns, h.relations, fun _ he => h.of_mem he⟩,
    fun ⟨hcolumns, hrelations, hbelow⟩ => .level hcolumns hrelations hbelow⟩

theorem empty_within (s : Selection) : empty.Within s where
  paths _ h := absurd h not_mem_paths_empty
  levels _ h := at_of_empty (fun _ _ => by simp) h

/-- **A union lies within whatever both its parts lie within.** -/
theorem merge_within_iff : (s.merge t).Within u ↔ s.Within u ∧ t.Within u := by
  constructor
  · rintro ⟨hpaths, hlevels⟩
    exact ⟨⟨fun path h => hpaths path (mem_paths_merge.2 (.inl h)),
        fun path h => hlevels path (hasLevel_merge.2 (.inl h))⟩,
      ⟨fun path h => hpaths path (mem_paths_merge.2 (.inr h)),
        fun path h => hlevels path (hasLevel_merge.2 (.inr h))⟩⟩
  · rintro ⟨hs, ht⟩
    exact ⟨fun path h => (mem_paths_merge.1 h).elim (hs.paths path) (ht.paths path),
      fun path h => (hasLevel_merge.1 h).elim (hs.levels path) (ht.levels path)⟩

/-- A selection in order. -/
@[ext] structure InOrder where
  tree : Selection
  ordered : tree.Ordered

namespace InOrder

instance : SemilatticeSup InOrder where
  le s t := s.tree.Within t.tree
  le_refl s := .refl s.tree
  le_trans _ _ _ := .trans
  le_antisymm s t hst hts := InOrder.ext (s.ordered.antisymm t.ordered hst hts)
  sup s t := ⟨s.tree.merge t.tree, s.ordered.merge t.ordered⟩
  le_sup_left s t := (merge_within_iff.1 (.refl (s.tree.merge t.tree))).1
  le_sup_right s t := (merge_within_iff.1 (.refl (s.tree.merge t.tree))).2
  sup_le _ _ _ hs ht := merge_within_iff.2 ⟨hs, ht⟩

instance : OrderBot InOrder where
  bot := ⟨empty, .empty⟩
  bot_le s := empty_within s.tree

end InOrder

theorem Ordered.merge_comm (hs : s.Ordered) (ht : t.Ordered) : s.merge t = t.merge s :=
  congrArg InOrder.tree (sup_comm ⟨s, hs⟩ ⟨t, ht⟩)

theorem Ordered.merge_self (hs : s.Ordered) : s.merge s = s :=
  congrArg InOrder.tree (sup_idem ⟨s, hs⟩)

theorem Ordered.empty_merge (hs : s.Ordered) : Selection.empty.merge s = s :=
  congrArg InOrder.tree (bot_sup_eq (⟨s, hs⟩ : InOrder))

/-! ## Several selections -/

/-- What lies within the union of several selections with a first one. -/
theorem foldl_merge_within_iff {l : List Selection} :
    (l.foldl merge s).Within u ↔ s.Within u ∧ ∀ t ∈ l, t.Within u := by
  induction l generalizing s with
  | nil => simp
  | cons t l ih => rw [List.foldl_cons, ih, merge_within_iff, List.forall_mem_cons, and_assoc]

theorem Ordered.foldl_merge {l : List Selection} (hs : s.Ordered) (hl : ∀ t ∈ l, t.Ordered) :
    (l.foldl Selection.merge s).Ordered := by
  induction l generalizing s with
  | nil => exact hs
  | cons t l ih =>
    rw [List.forall_mem_cons] at hl
    exact ih (hs.merge hl.1) hl.2

/-- **Several selections have one union**, in whatever order they come and however often. -/
theorem foldl_merge_eq {l l' : List Selection} (hs : s.Ordered) (hl : ∀ t ∈ l, t.Ordered)
    (h : ∀ t, t ∈ l ↔ t ∈ l') : l.foldl merge s = l'.foldl merge s := by
  have hl' : ∀ t ∈ l', t.Ordered := fun t ht => hl t ((h t).2 ht)
  have hsame : ∀ u, (l.foldl merge s).Within u ↔ (l'.foldl merge s).Within u := by
    intro u
    simp only [foldl_merge_within_iff, h]
  exact (hs.foldl_merge hl).antisymm (hs.foldl_merge hl') ((hsame _).2 (.refl _))
    ((hsame _).1 (.refl _))

/-! ## The laws of unions -/

theorem mem_pathTexts_merge {text : String} :
    text ∈ (s.merge t).pathTexts ↔ text ∈ s.pathTexts ∨ text ∈ t.pathTexts := by
  simp only [pathTexts, List.mem_map, mem_paths_merge, or_and_right, exists_or]

/-- **Selections in order with their union are a semilattice.** The grouping, the order and the
repetition of selections do not matter, and the empty one adds nothing. A union has the paths of
either selection and no others, and so it is with the levels behind relations, at which nothing need
be selected. Of all selections that have both within them it is the least. -/
theorem merge_laws (hs : s.Ordered) (ht : t.Ordered) (hu : u.Ordered) :
    (s.merge t).Ordered ∧
    (s.merge t).merge u = s.merge (t.merge u) ∧
    s.merge t = t.merge s ∧
    s.merge s = s ∧
    s.merge empty = s ∧ empty.merge s = s ∧
    (∀ path, path ∈ (s.merge t).paths ↔ path ∈ s.paths ∨ path ∈ t.paths) ∧
    (∀ text, text ∈ (s.merge t).pathTexts ↔ text ∈ s.pathTexts ∨ text ∈ t.pathTexts) ∧
    (∀ path, (s.merge t).HasLevel path ↔ s.HasLevel path ∨ t.HasLevel path) ∧
    ∀ v, (s.merge t).Within v ↔ s.Within v ∧ t.Within v :=
  ⟨hs.merge ht, hs.merge_assoc ht hu, hs.merge_comm ht, hs.merge_self, merge_empty, hs.empty_merge,
    fun _ => mem_paths_merge, fun _ => mem_pathTexts_merge, fun _ => hasLevel_merge,
    fun _ => merge_within_iff⟩

/-- Posts with their author, their author's name, and an author whose posts are asked for nothing. -/
theorem merge_laws_of_posts :
    let s : Selection := ⟨["id", "title"], [("author", ⟨["name"], []⟩)]⟩
    let t : Selection := ⟨["body", "title"], [("author", ⟨["bio"], []⟩), ("editor", empty)]⟩
    let u : Selection := ⟨[], [("author", ⟨["name"], [("posts", empty)]⟩)]⟩
    s.Ordered ∧ t.Ordered ∧ u.Ordered ∧
      (s.merge t).merge u = s.merge (u.merge t) ∧
      ((s.merge t).merge u).pathTexts = ["body", "id", "title", "author.bio", "author.name"] ∧
      (s.merge (t.merge u)).HasLevel ["author", "posts"] ∧ (t.merge s).HasLevel ["editor"] := by
  intro s t u
  have hs : s.Ordered :=
    ordered_level_iff.2 ⟨by decide, by decide, by simp [ordered_level_iff]⟩
  have ht : t.Ordered :=
    ordered_level_iff.2 ⟨by decide, by decide, by simp [empty, ordered_level_iff]⟩
  have hu : u.Ordered :=
    ordered_level_iff.2 ⟨by decide, by decide, by simp [empty, ordered_level_iff]⟩
  obtain ⟨-, hassoc, -⟩ := merge_laws hs ht hu
  obtain ⟨-, -, hcomm, -, -, -, -, -, hlevels, -⟩ := merge_laws ht hu hs
  obtain ⟨-, -, -, -, -, -, -, -, hlevels', -⟩ := merge_laws ht hs hu
  refine ⟨hs, ht, hu, hcomm ▸ hassoc, by decide +kernel, ?_, (hlevels' _).2 (.inl (by decide))⟩
  exact hasLevel_merge.2 (.inr ((hlevels _).2 (.inr (by decide))))

end Selection
end RequestPlan
