import RequestPlan.Proofs.Selection.Expand
import RequestPlan.Proofs.Selection.Order

/-!
# Paths that are selected together

* `hasLevel_select`: **the levels of a selection** are those that requested paths enter, whether
  anything is selected there or not.
* `exists_select_iff`: **paths can be selected together just when each can be by itself.**
* `select_union`: **what paths select together is the union of what parts of them select**, in
  whatever order the paths come and however often.
-/

namespace RequestPlan

namespace Selection

/-- A requested path goes through these aliases, and selects something behind them, or tries to. -/
def Enters : String → List String → Prop
  | _, [] => True
  | requested, a :: path =>
    ∃ rest, request? requested = some (a, rest) ∧ Enters (rest.getD "*") path

variable {a : String} {paths path : List String}

/-- Aliases are entered behind an alias by what goes on there. -/
theorem exists_enters_cons : (∃ p ∈ paths, Enters p (a :: path)) ↔
    ∃ p ∈ (restsOf a paths).map fun rest => rest.getD "*", Enters p path := by
  constructor
  · rintro ⟨p, hp, rest, hrequest, henters⟩
    exact ⟨rest.getD "*", List.mem_map.2 ⟨rest, mem_restsOf.2 ⟨p, hp, hrequest⟩, rfl⟩, henters⟩
  · rintro ⟨p, hmem, henters⟩
    obtain ⟨rest, hrest, rfl⟩ := List.mem_map.1 hmem
    obtain ⟨p, hp, hrequest⟩ := mem_restsOf.1 hrest
    exact ⟨p, hp, rest, hrequest, henters⟩

end Selection

namespace Catalog

variable {c : Catalog} {d : Definition} {scope : Scope} {s : Selection} {entity a : String}
  {paths path : List String} {below : Option SelectionFinder} {depth : Nat}

/-! ## Levels -/

/-- Aliases that may be selected lead from relation to relation. -/
def Follows (c : Catalog) (d : Definition) : List String → Prop
  | [] => True
  | a :: path => ∃ r related, c.Relates d a r related ∧ c.Follows related path

/-- **A selection has the levels that are not too deep, declared, in scope and entered.** -/
theorem hasLevel_select (h : c.select depth entity paths scope = .ok s)
    (hfind : c.find? entity = some d) :
    s.HasLevel path ↔ path.length ≤ depth ∧ c.Follows d path ∧ scope.allowsPath path = true ∧
      (path = [] ∨ ∃ p ∈ paths, Selection.Enters p path) := by
  induction path generalizing depth entity paths scope s d with
  | nil => exact iff_of_true trivial ⟨Nat.zero_le depth, trivial, rfl, .inl rfl⟩
  | cons a path ih =>
    cases depth with
    | zero =>
      have hnone : ¬s.At (·.HasLevel path) [a] :=
        not_at_select_zero (fun _ _ => Selection.hasLevel_merge) h hfind
      exact iff_of_false hnone fun h => Nat.not_succ_le_zero _ h.1
    | succ depth =>
      have hbelow : s.HasLevel (a :: path) ↔ _ :=
        at_select_iff (F := (·.HasLevel path)) (fun _ _ => Selection.hasLevel_merge) ih h hfind
      rw [hbelow, or_iff_right (List.cons_ne_nil a path), Selection.exists_enters_cons,
        Scope.allowsPath_cons, Bool.and_eq_true, List.length_cons, Nat.succ_le_succ_iff]
      constructor
      · rintro ⟨hallows, hrests, r, related, hrelates, hlength, hfollows, hscope, henters⟩
        refine ⟨hlength, ⟨r, related, hrelates, hfollows⟩, ⟨hallows, hscope⟩, ?_⟩
        rcases henters with rfl | henters
        · -- any path that goes on here enters this level
          obtain ⟨rest, hrest⟩ := List.exists_mem_of_ne_nil _ hrests
          exact ⟨rest.getD "*", List.mem_map.2 ⟨rest, hrest, rfl⟩, trivial⟩
        · exact henters
      · rintro ⟨hlength, ⟨r, related, hrelates, hfollows⟩, ⟨hallows, hscope⟩, henters⟩
        obtain ⟨p, hp, -⟩ := id henters
        obtain ⟨rest, hrest, -⟩ := List.mem_map.1 hp
        exact ⟨hallows, List.ne_nil_of_mem hrest, r, related, hrelates, hlength, hfollows, hscope,
          .inr henters⟩

/-! ## Order -/

theorem ordered_selectLevel
    (hbelow : ∀ find, below = some find → ∀ name paths scope child,
      find name paths scope = .ok child → child.Ordered)
    (h : c.selectLevel below entity paths scope = .ok s) : s.Ordered := by
  obtain ⟨d, t, hfind, -⟩ := exists_selectLevel_iff.1 ⟨s, h⟩
  have hcolumns : ∀ t : Table, (Selection.columnsOf t scope).Ordered := fun t =>
    columnsOf_induct .empty fun _ e _ _ hs => hs.addColumn e.aliasName
  refine of_selectLevel (fun _ _ hs ht => hs.merge ht) (fun t _ => ⟨.empty, hcolumns t⟩) ?_ h hfind
  intro t a rests g _ hg
  cases hg with
  | nothing => exact .empty
  | deep => exact .empty
  | column => exact .level (List.pairwise_singleton _ _) Entries.ordered_nil fun _ he => by cases he
  | related _ _ _ _ hsome hchild =>
    refine .level .nil (List.pairwise_singleton _ _) fun e he => ?_
    cases List.mem_singleton.1 he
    exact hbelow _ hsome _ _ _ _ hchild

/-- **What paths select is in order.** -/
theorem ordered_select (h : c.select depth entity paths scope = .ok s) : s.Ordered := by
  induction depth generalizing entity paths scope s with
  | zero => exact ordered_selectLevel (fun find hnone => by cases hnone) h
  | succ depth ih =>
    refine ordered_selectLevel (fun find hsome name paths scope child hchild => ?_) h
    cases hsome
    exact ih hchild

/-! ## Paths by themselves -/

/-- Paths can be selected together just when each can be by itself. -/
def Distributes (find : SelectionFinder) : Prop :=
  ∀ entity paths scope, paths ≠ [] → ((∃ s, find entity paths scope = .ok s) ↔
    ∀ p ∈ paths, ∃ s, find entity [p] scope = .ok s)

/-- What goes on behind an alias brings something just when each part of it does. -/
theorem exists_gains_iff (hbelow : ∀ find, below = some find → Distributes find)
    {rests : List (Option String)} (hrests : rests ≠ []) :
    (∃ g, Gains below d scope a rests g) ↔ ∀ rest ∈ rests, ∃ g, Gains below d scope a [rest] g := by
  have hne : rests.map (fun rest => rest.getD "*") ≠ [] := mt List.map_eq_nil_iff.1 hrests
  constructor
  · rintro ⟨g, hg⟩ rest hrest
    cases hg with
    | nothing h => exact ⟨_, .nothing h⟩
    | deep hkey hr hkind hnone => exact ⟨_, .deep hkey hr hkind hnone⟩
    | column hcolumn hallows => exact ⟨_, .column hcolumn hallows⟩
    | related hkey hr hkind hallows hsome hchild =>
      obtain ⟨child, hone⟩ := (hbelow _ hsome _ _ _ hne).1 ⟨_, hchild⟩ (rest.getD "*")
        (List.mem_map.2 ⟨rest, hrest, rfl⟩)
      exact ⟨_, .related hkey hr hkind hallows hsome hone⟩
  · intro hall
    obtain ⟨rest, hrest⟩ := List.exists_mem_of_ne_nil rests hrests
    obtain ⟨g, hg⟩ := hall rest hrest
    cases hg with
    | nothing h => exact ⟨_, .nothing h⟩
    | deep hkey hr hkind hnone => exact ⟨_, .deep hkey hr hkind hnone⟩
    | column hcolumn hallows => exact ⟨_, .column hcolumn hallows⟩
    | @related key r find child hkey hr hkind hallows hsome hchild =>
      subst hsome
      -- the alias is one of a relation for every part
      obtain ⟨children, hchildren⟩ : ∃ children, find r.related
          (rests.map fun rest => rest.getD "*") (scope.child a) = .ok children := by
        refine (hbelow find rfl _ _ _ hne).2 fun p hp => ?_
        obtain ⟨rest, hrest, rfl⟩ := List.mem_map.1 hp
        obtain ⟨g, hg⟩ := hall rest hrest
        obtain ⟨-, child, hchild, -⟩ := hg.eq_relation hkey hr hallows
        exact ⟨child, hchild⟩
      exact ⟨_, .related hkey hr hkind hallows rfl hchildren⟩

/-- A level can be selected when its entity may be selected from, and every path brings something
by itself. -/
theorem exists_selectLevel_iff_forall (hbelow : ∀ find, below = some find → Distributes find) :
    (∃ s, c.selectLevel below entity paths scope = .ok s) ↔
      ∃ d t, c.find? entity = some d ∧ Table.of d.toEntity .selectable = .ok t ∧
        ∀ p ∈ paths, ∀ a rest, a ≠ "*" → Selection.request? p = some (a, rest) →
          ∃ g, Gains below d scope a [rest] g := by
  rw [exists_selectLevel_iff]
  refine exists_congr fun d => exists_congr fun t => and_congr_right fun _ => and_congr_right
    fun _ => ?_
  constructor
  · intro hall p hp a rest hstar hrequest
    have hrest : rest ∈ Selection.restsOf a paths := Selection.mem_restsOf.2 ⟨p, hp, hrequest⟩
    have hrests : Selection.restsOf a paths ≠ [] := List.ne_nil_of_mem hrest
    exact (exists_gains_iff hbelow hrests).1 (hall a hstar hrests) rest hrest
  · intro hall a hstar hrests
    refine (exists_gains_iff hbelow hrests).2 fun rest hrest => ?_
    obtain ⟨p, hp, hrequest⟩ := Selection.mem_restsOf.1 hrest
    exact hall p hp a rest hstar hrequest

theorem distributes_selectLevel (hbelow : ∀ find, below = some find → Distributes find) :
    Distributes (c.selectLevel below) := by
  intro entity paths scope hne
  rw [exists_selectLevel_iff_forall hbelow]
  simp only [exists_selectLevel_iff_forall hbelow, List.mem_singleton, forall_eq]
  constructor
  · rintro ⟨d, t, hfind, ht, hall⟩ p hp
    exact ⟨d, t, hfind, ht, hall p hp⟩
  · intro hall
    obtain ⟨p, hp⟩ := List.exists_mem_of_ne_nil paths hne
    obtain ⟨d, t, hfind, ht, -⟩ := hall p hp
    refine ⟨d, t, hfind, ht, fun p hp => ?_⟩
    obtain ⟨d', t', hfind', -, hp'⟩ := hall p hp
    rw [hfind] at hfind'
    cases hfind'
    exact hp'

/-- **Paths can be selected together just when each can be by itself.** -/
theorem exists_select_iff (depth : Nat) : Distributes (c.select depth) := by
  induction depth with
  | zero => exact distributes_selectLevel fun find hnone => by cases hnone
  | succ depth ih =>
    refine distributes_selectLevel fun find hsome => ?_
    cases hsome
    exact ih

/-! ## Unions -/

section Unions

variable {ps qs all : List String} {s₁ s₂ : Selection}

/-- The paths of two lists can be selected together when those of either can be. -/
theorem exists_select_union (hps : ps ≠ []) (hqs : qs ≠ [])
    (hall : ∀ p, p ∈ all ↔ p ∈ ps ∨ p ∈ qs) :
    (∃ s, c.select depth entity all scope = .ok s) ↔
      (∃ s, c.select depth entity ps scope = .ok s) ∧
        ∃ s, c.select depth entity qs scope = .ok s := by
  have hne : all ≠ [] := by
    obtain ⟨p, hp⟩ := List.exists_mem_of_ne_nil ps hps
    exact List.ne_nil_of_mem ((hall p).2 (.inl hp))
  rw [exists_select_iff depth _ _ _ hne, exists_select_iff depth _ _ _ hps,
    exists_select_iff depth _ _ _ hqs]
  simp only [hall, or_imp, forall_and]

/-- **What paths select together is the union of what parts of them select.** -/
theorem select_union (hall : ∀ p, p ∈ all ↔ p ∈ ps ∨ p ∈ qs)
    (h : c.select depth entity all scope = .ok s)
    (h₁ : c.select depth entity ps scope = .ok s₁)
    (h₂ : c.select depth entity qs scope = .ok s₂) : s = s₁.merge s₂ := by
  obtain ⟨d, hfind⟩ := exists_of_select h
  refine (ordered_select h).ext ((ordered_select h₁).merge (ordered_select h₂)) ?_ ?_
  · intro path
    rw [Selection.mem_paths_merge, mem_paths_select h hfind, mem_paths_select h₁ hfind,
      mem_paths_select h₂ hfind]
    simp only [hall, or_and_right, exists_or, and_or_left]
  · intro path
    have henters : (∃ p ∈ all, Selection.Enters p path) ↔
        (∃ p ∈ ps, Selection.Enters p path) ∨ ∃ p ∈ qs, Selection.Enters p path := by
      simp only [hall, or_and_right, exists_or]
    rw [Selection.hasLevel_merge, hasLevel_select h hfind, hasLevel_select h₁ hfind,
      hasLevel_select h₂ hfind, henters, or_or_distrib_left, and_or_left, and_or_left, and_or_left]

end Unions

end Catalog
end RequestPlan
