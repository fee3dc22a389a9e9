import RequestPlan.Selection.Tree

/-!
# Paths and levels of selections

* `Selection.induct`: induction on selections, with a hypothesis for every relation.
* `mem_paths`: a path ends at a level or goes on below a relation.
* `Selection.At`: something holds of the level behind some aliases of relations. `at_merge`:
  **the levels of a union are those of either selection**, and so are its paths
  (`mem_paths_merge`).
-/

namespace RequestPlan
namespace Selection

/-- Induction on selections, with a hypothesis for every relation. -/
theorem induct {P : Selection → Prop}
    (level : ∀ columns relations, (∀ e ∈ relations, P e.2) → P ⟨columns, relations⟩)
    (s : Selection) : P s := by
  refine @Selection.rec P (fun es => ∀ e ∈ es, P e.2) (fun e => P e.2) level ?_ ?_
    (fun _ _ h => h) s
  · intro e he
    exact absurd he List.not_mem_nil
  · intro e es he hes f hf
    rcases List.mem_cons.1 hf with rfl | hf
    · exact he
    · exact hes f hf

variable {s t child : Selection} {a : String} {path : List String}

theorem merge_empty : s.merge empty = s := by
  cases s
  simp [merge, mergeBelow, empty]

theorem mem_pathsBelow_cons {e : String × Selection} {es : List (String × Selection)} :
    path ∈ pathsBelow (e :: es) ↔
      (∃ rest ∈ e.2.paths, path = e.1 :: rest) ∨ path ∈ pathsBelow es := by
  simp only [pathsBelow, List.mem_append, List.mem_map, eq_comm]

theorem mem_pathsBelow {es : List (String × Selection)} :
    path ∈ pathsBelow es ↔ ∃ e ∈ es, ∃ rest ∈ e.2.paths, path = e.1 :: rest := by
  induction es with
  | nil => simp [pathsBelow]
  | cons e es ih => simp only [mem_pathsBelow_cons, ih, List.mem_cons, exists_eq_or_imp]

/-- A path ends at a level, or goes on below a relation. -/
theorem mem_paths :
    path ∈ s.paths ↔ (∃ a ∈ s.columns, path = [a]) ∨ path ∈ pathsBelow s.relations := by
  obtain ⟨columns, relations⟩ := s
  simp only [paths, List.mem_append, List.mem_map, eq_comm]

theorem nil_not_mem_paths : [] ∉ s.paths := by
  rw [mem_paths, mem_pathsBelow]
  rintro (⟨a, -, h⟩ | ⟨e, -, rest, -, h⟩)
  · cases h
  · cases h

theorem not_mem_paths_empty : path ∉ empty.paths := List.not_mem_nil

theorem mem_paths_column : path ∈ (⟨[a], []⟩ : Selection).paths ↔ path = [a] := by
  simp [mem_paths, pathsBelow]

theorem mem_paths_relation :
    path ∈ (⟨[], [(a, child)]⟩ : Selection).paths ↔ ∃ rest ∈ child.paths, path = a :: rest := by
  rw [mem_paths, mem_pathsBelow]
  simp

theorem mem_columns_foldl {names own : List String} :
    a ∈ names.foldl (fun ns name => insertName name ns) own ↔ a ∈ own ∨ a ∈ names := by
  induction names generalizing own with
  | nil => simp
  | cons name names ih =>
    rw [List.foldl_cons, ih, mem_insertName, List.mem_cons]
    constructor
    · rintro ((h | h) | h)
      · exact .inr (.inl h)
      · exact .inl h
      · exact .inr (.inr h)
    · rintro (h | h | h)
      · exact .inl (.inr h)
      · exact .inl (.inl h)
      · exact .inr h

theorem mem_columns_merge : a ∈ (s.merge t).columns ↔ a ∈ s.columns ∨ a ∈ t.columns := by
  obtain ⟨columns, relations⟩ := t
  exact mem_columns_foldl

/-! ## Levels -/

variable {F : Selection → Prop}

/-- Something holds of a level of the selection, which these aliases of relations lead to. -/
def At (F : Selection → Prop) : Selection → List String → Prop
  | s, [] => F s
  | s, a :: path => ∃ e ∈ s.relations, e.1 = a ∧ At F e.2 path

/-- Behind the aliases of relations there is a level of the selection. -/
abbrev HasLevel (s : Selection) (path : List String) : Prop := s.At (fun _ => True) path

instance decidableAt [DecidablePred F] : ∀ (s : Selection) (path : List String),
    Decidable (s.At F path)
  | s, [] => inferInstanceAs (Decidable (F s))
  | s, a :: path =>
    haveI (e : String × Selection) : Decidable (e.2.At F path) := decidableAt e.2 path
    inferInstanceAs (Decidable (∃ e ∈ s.relations, e.1 = a ∧ e.2.At F path))

/-- A selected column stands at the level that the relations in front of it lead to. -/
theorem concat_mem_paths : path ++ [a] ∈ s.paths ↔ s.At (fun t => a ∈ t.columns) path := by
  induction path generalizing s with
  | nil =>
    rw [List.nil_append, mem_paths, mem_pathsBelow, At]
    constructor
    · rintro (⟨b, hb, h⟩ | ⟨e, -, rest, hrest, h⟩)
      · cases h
        exact hb
      · cases h
        exact absurd hrest nil_not_mem_paths
    · intro ha
      exact .inl ⟨a, ha, rfl⟩
  | cons b path ih =>
    rw [List.cons_append, mem_paths, mem_pathsBelow, At]
    constructor
    · rintro (⟨c, -, h⟩ | ⟨e, he, rest, hrest, h⟩)
      · have hne : path ++ [a] ≠ [] := List.append_ne_nil_of_right_ne_nil _ (List.cons_ne_nil a [])
        exact absurd (List.cons.inj h).2 hne
      · obtain ⟨rfl, rfl⟩ := List.cons.inj h
        exact ⟨e, he, rfl, ih.1 hrest⟩
    · rintro ⟨e, he, rfl, hat⟩
      exact .inr ⟨e, he, path ++ [a], ih.2 hat, rfl⟩

theorem cons_cons_mem_paths {b : String} :
    a :: b :: path ∈ s.paths ↔ s.At (fun t => b :: path ∈ t.paths) [a] := by
  rw [mem_paths, mem_pathsBelow, At]
  constructor
  · rintro (⟨c, -, h⟩ | ⟨e, he, rest, hrest, h⟩)
    · cases h
    · obtain ⟨rfl, rfl⟩ := List.cons.inj h
      exact ⟨e, he, rfl, hrest⟩
  · rintro ⟨e, he, rfl, hrest⟩
    exact .inr ⟨e, he, b :: path, hrest, rfl⟩

/-- What holds of a selection that is written in place of one of which it held. -/
theorem exists_mem_put {b : String} {G : Selection → Prop} {es : List (String × Selection)}
    (h : ∀ old, Entries.find? b es = some old → G old → G child) :
    (∃ e ∈ Entries.put b child es, e.1 = a ∧ G e.2) ↔
      (∃ e ∈ es, e.1 = a ∧ G e.2) ∨ (b = a ∧ G child) := by
  induction es with
  | nil => simp [Entries.put]
  | cons e es ih =>
    obtain ⟨c, old⟩ := e
    rw [Entries.put]
    split
    · -- the new entry stands in front
      simp only [List.mem_cons, exists_eq_or_imp]
      exact or_comm
    · split
      · rename_i hbc
        subst hbc
        have hold : G old → G child := h old (by simp [Entries.find?])
        simp only [List.mem_cons, exists_eq_or_imp]
        constructor
        · rintro (h | h)
          · exact .inr h
          · exact .inl (.inr h)
        · rintro ((⟨hba, hG⟩ | h) | h)
          · exact .inl ⟨hba, hold hG⟩
          · exact .inr h
          · exact .inl h
      · rename_i hbc
        have hes := ih fun old hfind => h old (by rwa [Entries.find?, if_neg hbc])
        simp only [List.mem_cons, exists_eq_or_imp, hes, or_assoc]

/-- What holds of a level of the empty selection holds of that level of all. -/
theorem at_of_empty (hF : ∀ s t : Selection, F (s.merge t) ↔ F s ∨ F t)
    (h : empty.At F path) : s.At F path := by
  cases path with
  | nil =>
    have hmerge : F (s.merge empty) := (hF s empty).2 (.inr h)
    rwa [merge_empty] at hmerge
  | cons b path =>
    obtain ⟨e, he, -⟩ := h
    exact absurd he List.not_mem_nil

/-- **The levels of a union are those of either selection**, for what a union has of either. -/
theorem at_merge (hF : ∀ s t : Selection, F (s.merge t) ↔ F s ∨ F t) :
    (s.merge t).At F path ↔ s.At F path ∨ t.At F path := by
  induction t using induct generalizing s path with
  | level columns relations ih =>
    cases path with
    | nil => exact hF _ _
    | cons a path =>
      -- the relations come in one after the other
      have hbelow : ∀ own, (∃ e ∈ mergeBelow own relations, e.1 = a ∧ e.2.At F path) ↔
          (∃ e ∈ own, e.1 = a ∧ e.2.At F path) ∨ ∃ e ∈ relations, e.1 = a ∧ e.2.At F path := by
        induction relations with
        | nil => intro own; simp [mergeBelow]
        | cons e es ihes =>
          intro own
          obtain ⟨b, child⟩ := e
          have hchild : ∀ old : Selection,
              (old.merge child).At F path ↔ old.At F path ∨ child.At F path :=
            fun old => ih (b, child) List.mem_cons_self
          have hown : ∀ old, Entries.find? b own = some old → old.At F path →
              (((Entries.find? b own).getD empty).merge child).At F path := by
            intro old hfind hat
            rw [hfind]
            exact (hchild old).2 (.inl hat)
          rw [mergeBelow, ihes fun e he => ih e (List.mem_cons_of_mem _ he), exists_mem_put hown,
            hchild]
          simp only [List.mem_cons, exists_eq_or_imp, or_assoc]
          by_cases howned : ∃ e ∈ own, e.1 = a ∧ e.2.At F path
          · exact iff_of_true (.inl howned) (.inl howned)
          rw [or_iff_right howned, or_iff_right howned]
          refine or_congr_left ?_
          constructor
          · rintro ⟨rfl, hold | hat⟩
            · refine ⟨rfl, ?_⟩
              cases hfind : Entries.find? b own with
              | none =>
                rw [hfind] at hold
                exact at_of_empty hF hold
              | some old =>
                rw [hfind] at hold
                exact absurd ⟨(b, old), Entries.mem_of_find? hfind, rfl, hold⟩ howned
            · exact ⟨rfl, hat⟩
          · rintro ⟨rfl, hat⟩
            exact ⟨rfl, .inr hat⟩
      exact hbelow s.relations

theorem hasLevel_merge : (s.merge t).HasLevel path ↔ s.HasLevel path ∨ t.HasLevel path :=
  at_merge fun _ _ => by simp

/-- **The paths of a union are those of either selection.** -/
theorem mem_paths_merge : path ∈ (s.merge t).paths ↔ path ∈ s.paths ∨ path ∈ t.paths := by
  rcases List.eq_nil_or_concat path with rfl | ⟨path, a, rfl⟩
  · simp [nil_not_mem_paths]
  · rw [List.concat_eq_append, concat_mem_paths, concat_mem_paths, concat_mem_paths]
    exact at_merge fun _ _ => mem_columns_merge

theorem mem_paths_addColumn : path ∈ (s.addColumn a).paths ↔ path ∈ s.paths ∨ path = [a] := by
  simp only [mem_paths, addColumn, mem_insertName, or_and_right, exists_or, exists_eq_left]
  constructor
  · rintro ((h | h) | h)
    · exact .inr h
    · exact .inl (.inl h)
    · exact .inl (.inr h)
  · rintro ((h | h) | h)
    · exact .inl (.inr h)
    · exact .inr h
    · exact .inl (.inl h)

end Selection
end RequestPlan
