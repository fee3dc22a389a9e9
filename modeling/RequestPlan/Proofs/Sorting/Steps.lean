import RequestPlan.Proofs.Planner.Calls

/-!
# Steps of sorting

* `Registry.Sorts`: a property of orderings and joins that each new ordering keeps: one by an alias
  of the entity, and one by a name on a table that a path leads to.
* `Sorts.triple_sort`: **it holds behind any tokens**, whether they lead anywhere or not, when no
  hook sorts.
-/

namespace RequestPlan

namespace SortM

variable {c : Catalog} {α : Type} {J : Joins → Prop}

/-- A sound registry of a catalog, with joins of a kind. -/
abbrev With (c : Catalog) (J : Joins → Prop) : Registry × Joins → Prop := Both (Registry.Of c) J

theorem triple_ofRegistry {m : RegistryM α} {Q : α → Prop}
    (h : Work.Triple (Registry.Of c) m (fun a r => r.Of c ∧ Q a) (Registry.Of c)) :
    Work.Triple (With c J) (ofRegistry m) (fun a s => With c J s ∧ Q a) (With c J) :=
  h.on (fun _ hs => hs.1) (fun _ _ _ hs hr => ⟨⟨hr.1, hs.2⟩, hr.2⟩) fun _ _ hs hr => ⟨hr, hs.2⟩

theorem triple_ofJoins {m : Catalog → JoinM α} {K : α → Joins → Prop}
    (h : Work.Triple J (m c) K J) :
    Work.Triple (With c J) (ofJoins m) (fun a => With c (K a)) (With c J) := by
  refine Work.triple_get_bind fun s hs => ?_
  rw [hs.1.1]
  refine h.on (fun t ht => ht ▸ hs.2) (fun t a js ht hjs => ?_) fun t js ht hjs => ?_
  · exact ⟨ht ▸ hs.1, hjs⟩
  · exact ⟨ht ▸ hs.1, hjs⟩

end SortM

namespace Registry

open SortM (With)

/-- A property `J` of orderings and joins that paths and new orderings keep. A path leads to tables
for which `T` holds, and an ordering is by an alias of the table `t` or by a name on such a
table. -/
structure Sorts (c : Catalog) (root : Definition) (t : Table) (J : List Order → Joins → Prop)
    (T : Joins → Joined → Prop) : Prop where
  path : ∀ os path, Work.Triple (J os) (leftJoin c root path)
    (fun joined? js => J os js ∧ ∀ j, joined? = some j → T js j) (J os)
  fewer : ∀ {os more js}, J (os ++ more) js → J os js
  byAlias : ∀ {os js a entry}, J os js → t.find? a = some entry → ∀ direction,
    J (os ++ [⟨root.column entry.key, direction⟩]) js
  byName : ∀ {os js j name}, J os js → T js j → isIdentifier name → ∀ direction,
    J (os ++ [⟨j.aliasName ++ "." ++ name, direction⟩]) js

/-- A column of a joined table is a name on it, and not any text. -/
theorem triple_joinedColumn? {c : Catalog} (j : Joined) (segment : String) :
    Work.Triple (Of c) (joinedColumn? j segment)
      (fun column? r => r.Of c ∧ ∀ column, column? = some column →
        ∃ name, isIdentifier name ∧ column = j.aliasName ++ "." ++ name)
      (Of c) := by
  have hname : ∀ name column,
      (if isIdentifier name then some (j.aliasName ++ "." ++ name) else none) = some column →
        ∃ name, isIdentifier name ∧ column = j.aliasName ++ "." ++ name := by
    intro name column hcolumn
    split at hcolumn
    · rename_i hidentifier
      cases hcolumn
      exact ⟨name, hidentifier, rfl⟩
    · cases hcolumn
  exact (keeps_sortable? keeps_table j.definition.name).triple.bind fun t? =>
    Work.triple_pure fun r hr => ⟨hr, hname _⟩

variable {c : Catalog} {root : Definition} {t : Table} {J : List Order → Joins → Prop}
  {T : Joins → Joined → Prop} {os : List Order} {scope : Scope}

/-- A token that leads nowhere orders by nothing. -/
theorem triple_noOrder : Work.Triple (With c (J os)) (pure [])
    (fun orders => With c (J (os ++ orders))) (With c (J os)) := by
  refine Work.triple_pure fun s hs => ?_
  rwa [List.append_nil]

theorem Sorts.triple_sortJoined (h : Sorts c root t J T) (path : String) (direction : Direction) :
    Work.Triple (With c (J os)) (sortJoined root path direction)
      (fun orders => With c (J (os ++ orders))) (With c (J os)) := by
  unfold sortJoined
  split
  · exact triple_noOrder
  · rename_i before segment _
    refine (SortM.triple_ofJoins (h.path os before)).bind fun joined? => ?_
    cases joined? with
    | none => exact triple_noOrder.start fun s hs => ⟨hs.1, hs.2.1⟩
    | some joined =>
      refine Work.Triple.bind ((SortM.triple_ofRegistry (triple_joinedColumn? joined segment)).fail
        fun s hs => ⟨hs.1, hs.2.1⟩) fun column? => ?_
      cases column? with
      | none => exact triple_noOrder.start fun s hs => ⟨hs.1.1, hs.1.2.1⟩
      | some column =>
        refine Work.triple_pure fun s hs => ?_
        obtain ⟨⟨hof, hjs, hjoined⟩, hcolumn⟩ := hs
        obtain ⟨name, hname, rfl⟩ := hcolumn column rfl
        exact ⟨hof, h.byName hjs (hjoined joined rfl) hname direction⟩

theorem Sorts.triple_sortAlias (h : Sorts c root t J T) (hhooks : root.hooks.sorts = ∅)
    {a : String} {entry : Entry} (hentry : t.find? a = some entry) (direction : Direction) :
    Work.Triple (With c (J os)) (sortAlias root entry direction)
      (fun orders => With c (J (os ++ orders))) (With c (J os)) := by
  have hhook : root.hooks.sorts.find? entry.key = none := by rw [hhooks, Dict.find?_empty]
  unfold sortAlias
  rw [hhook]
  exact Work.triple_pure fun s hs => ⟨hs.1, h.byAlias hs.2 hentry direction⟩

theorem Sorts.triple_sortToken (h : Sorts c root t J T) (hhooks : root.hooks.sorts = ∅)
    (token : String) :
    Work.Triple (With c (J os)) (sortToken root t scope token)
      (fun orders => With c (J (os ++ orders))) (With c (J os)) := by
  unfold sortToken
  dsimp only
  split
  · split
    · rename_i entry hentry
      exact h.triple_sortAlias hhooks hentry _
    · exact h.triple_sortJoined _ _
  · exact triple_noOrder

theorem Sorts.triple_sortTokens (h : Sorts c root t J T) (hhooks : root.hooks.sorts = ∅)
    (os : List Order) (tokens : List String) :
    Work.Triple (With c (J os)) (sortTokens root t scope tokens)
      (fun orders => With c (J (os ++ orders))) (With c (J os)) := by
  induction tokens generalizing os with
  | nil => exact triple_noOrder
  | cons token tokens ih =>
    refine (h.triple_sortToken hhooks token).bind fun orders => ?_
    -- the orderings so far are there for the rest of the tokens
    refine ((ih (os ++ orders)).fail fun s hs => ⟨hs.1, h.fewer hs.2⟩).bind fun later => ?_
    refine Work.triple_pure fun s hs => ?_
    rwa [← List.append_assoc]

/-- **What each new ordering keeps holds behind any tokens.** -/
theorem Sorts.triple_sort (h : ∀ t, c.table root.name .sortable = .ok t → Sorts c root t J T)
    (hhooks : root.hooks.sorts = ∅) (os : List Order) (tokens : List String) (scope : Scope) :
    Work.Triple (With c (J os)) (sort root tokens scope)
      (fun orders => With c (J (os ++ orders))) (With c (J os)) := by
  unfold sort
  refine Work.Triple.bind (SortM.triple_ofRegistry (answers_table rfl).triple) fun t => ?_
  exact Work.triple_and fun ht => (h t ht).triple_sortTokens hhooks os _

end Registry
end RequestPlan
