import RequestPlan.Proofs.Selection.Expand
import RequestPlan.Proofs.Selection.Remove

/-!
# Selections that fit an entity

* `Catalog.Fits`: every alias of a selection stands for something that can be selected.
* `Catalog.Loadable`: besides, every level of it is of an entity that declares what may be
  selected. `loadable_iff` opens a level.
* `Loadable.merge`, `Loadable.remove`, `Loadable.of_extends`: unions keep it so, and what is left
  when a part is taken back, and registrations.
* `loadable_select`: **what paths select can be loaded**.
-/

namespace RequestPlan
namespace Catalog

variable {c c' : Catalog} {d related : Definition} {s t child : Selection} {a entity : String}
  {e : String × Selection} {relations own : List (String × Selection)} {paths : List String}
  {scope : Scope}

/-- Every alias of a selection may be selected: it stands for a column, or for a relation that
can be loaded, and so below. -/
inductive Fits (c : Catalog) : Definition → Selection → Prop
  | level {d : Definition} {columns : List String} {relations : List (String × Selection)}
      (hcolumns : ∀ a ∈ columns, d.SelectsColumn a)
      (hrelations : ∀ e ∈ relations, ∃ r related, c.Relates d e.1 r related ∧ r.kind ≠ .manyToMany)
      (hbelow : ∀ e ∈ relations, ∀ r related, c.Relates d e.1 r related → Fits c related e.2) :
      Fits c d ⟨columns, relations⟩

/-- A relation of a selection that fits, with the level below it. -/
def FitsBelow (c : Catalog) (d : Definition) (e : String × Selection) : Prop :=
  ∃ r related, c.Relates d e.1 r related ∧ r.kind ≠ .manyToMany ∧ c.Fits related e.2

theorem fits_iff :
    c.Fits d s ↔ (∀ a ∈ s.columns, d.SelectsColumn a) ∧ ∀ e ∈ s.relations, c.FitsBelow d e := by
  constructor
  · rintro ⟨hcolumns, hrelations, hbelow⟩
    refine ⟨hcolumns, fun e he => ?_⟩
    obtain ⟨r, related, hr, hkind⟩ := hrelations e he
    exact ⟨r, related, hr, hkind, hbelow e he r related hr⟩
  · rintro ⟨hcolumns, hrelations⟩
    obtain ⟨columns, relations⟩ := s
    refine .level hcolumns (fun e he => ?_) fun e he r related hr => ?_
    · obtain ⟨r, related, hr, hkind, -⟩ := hrelations e he
      exact ⟨r, related, hr, hkind⟩
    · obtain ⟨r', related', hr', -, hfits⟩ := hrelations e he
      obtain ⟨rfl, rfl⟩ := hr.unique hr'
      exact hfits

/-- What an alias stands for, another selection below it fits, too. -/
theorem FitsBelow.of_relates {r : Relation} (h : c.FitsBelow d e) (hr : c.Relates d e.1 r related) :
    r.kind ≠ .manyToMany ∧ c.Fits related e.2 := by
  obtain ⟨r', related', hr', hkind, hfits⟩ := h
  obtain ⟨rfl, rfl⟩ := hr.unique hr'
  exact ⟨hkind, hfits⟩

/-- What fits at a level fits at those that it leads to. -/
theorem Fits.of_leads {d' : Definition} {s' : Selection} {names : List String} (h : c.Fits d s)
    (hleads : c.Leads d s names d' s') : c.Fits d' s' := by
  induction hleads with
  | here => exact h
  | step he hr _ ih => exact ih ((fits_iff.1 h).2 _ he |>.of_relates hr).2

/-! ## Levels that can be loaded -/

/-- A selection fits, and the entity of every level declares what may be selected. -/
structure Loadable (c : Catalog) (d : Definition) (s : Selection) : Prop where
  fits : c.Fits d s
  table : ∀ {names d' s'}, c.Leads d s names d' s' →
    ∃ t, Table.of d'.toEntity .selectable = .ok t

/-- A relation of a selection with a level below it that can be loaded. -/
def LoadableBelow (c : Catalog) (d : Definition) (e : String × Selection) : Prop :=
  ∃ r related, c.Relates d e.1 r related ∧ r.kind ≠ .manyToMany ∧ c.Loadable related e.2

theorem loadable_iff :
    c.Loadable d s ↔ (∃ t, Table.of d.toEntity .selectable = .ok t) ∧
      (∀ a ∈ s.columns, d.SelectsColumn a) ∧ ∀ e ∈ s.relations, c.LoadableBelow d e := by
  constructor
  · rintro ⟨hfits, htable⟩
    obtain ⟨hcolumns, hrelations⟩ := fits_iff.1 hfits
    refine ⟨htable .here, hcolumns, fun e he => ?_⟩
    obtain ⟨r, related, hr, hkind, hbelow⟩ := hrelations e he
    exact ⟨r, related, hr, hkind, hbelow, fun hleads => htable (.step he hr hleads)⟩
  · rintro ⟨htable, hcolumns, hrelations⟩
    refine ⟨fits_iff.2 ⟨hcolumns, fun e he => ?_⟩, fun hleads => ?_⟩
    · obtain ⟨r, related, hr, hkind, hbelow⟩ := hrelations e he
      exact ⟨r, related, hr, hkind, hbelow.fits⟩
    · cases hleads with
      | here => exact htable
      | step he hr hleads =>
        obtain ⟨r, related, hr', -, hbelow⟩ := hrelations _ he
        obtain ⟨rfl, rfl⟩ := hr'.unique hr
        exact hbelow.table hleads

/-- What an alias stands for, another selection below it can be loaded from, too. -/
theorem LoadableBelow.of_relates {r : Relation} (h : c.LoadableBelow d e)
    (hr : c.Relates d e.1 r related) : c.Loadable related e.2 := by
  obtain ⟨r', related', hr', -, hbelow⟩ := h
  obtain ⟨rfl, rfl⟩ := hr.unique hr'
  exact hbelow

theorem loadable_empty {t : Table} (ht : Table.of d.toEntity .selectable = .ok t) :
    c.Loadable d .empty :=
  loadable_iff.2 ⟨⟨t, ht⟩, fun _ h => absurd h List.not_mem_nil, fun _ h => absurd h List.not_mem_nil⟩

/-- **The union of selections that can be loaded can be loaded.** -/
theorem Loadable.merge (hs : c.Loadable d s) (ht : c.Loadable d t) : c.Loadable d (s.merge t) := by
  induction t using Selection.induct generalizing d s with
  | level columns relations ih =>
    obtain ⟨-, hcolumns, hrelations⟩ := loadable_iff.1 ht
    obtain ⟨htable, hown, hbelow⟩ := loadable_iff.1 hs
    -- the relations come in one after the other
    have hmerge : ∀ own, (∀ e ∈ own, c.LoadableBelow d e) →
        ∀ e ∈ Selection.mergeBelow own relations, c.LoadableBelow d e := by
      clear ht hcolumns
      induction relations with
      | nil => exact fun own hown => hown
      | cons e es ihes =>
        intro own hown
        obtain ⟨a, child⟩ := e
        obtain ⟨⟨r, related, hr, hkind, hchild⟩, hes⟩ := List.forall_mem_cons.1 hrelations
        refine ihes (fun e he => ih e (List.mem_cons_of_mem _ he)) hes _ fun e he => ?_
        rcases Entries.mem_put he with rfl | he
        · have hold : c.Loadable related ((Entries.find? a own).getD .empty) := by
            cases hfind : Entries.find? a own with
            | none =>
              obtain ⟨t, ht⟩ := hchild.table .here
              exact loadable_empty ht
            | some old => exact (hown _ (Entries.mem_of_find? hfind)).of_relates hr
          exact ⟨r, related, hr, hkind, ih _ List.mem_cons_self hold hchild⟩
        · exact hown e he
    refine loadable_iff.2 ⟨htable, fun a ha => ?_, hmerge s.relations hbelow⟩
    exact (Selection.mem_columns_foldl.1 ha).elim (hown a) (hcolumns a)

/-- **A selection can still be loaded when a part is taken back.** -/
theorem Loadable.remove (patterns : PatternTree) (h : c.Loadable d s) :
    c.Loadable d (s.remove patterns) := by
  induction s using Selection.induct generalizing d patterns with
  | level columns relations ih =>
    obtain ⟨htable, hcolumns, hrelations⟩ := loadable_iff.1 h
    have hbelow : ∀ e ∈ Selection.removeBelow patterns relations, c.LoadableBelow d e := by
      intro e he
      obtain ⟨child, hchild, -, -, hleft⟩ := Selection.mem_removeBelow.1 he
      obtain ⟨r, related, hr, hkind, hloadable⟩ := hrelations _ hchild
      refine ⟨r, related, hr, hkind, ?_⟩
      rw [hleft]
      exact Selection.left_cases hloadable (ih _ hchild _ hloadable)
    exact loadable_iff.2 ⟨htable, fun a ha => hcolumns a (List.mem_filter.1 ha).1, hbelow⟩

/-- **A selection can still be loaded when entities come in.** -/
theorem Loadable.of_extends (h : c.Loadable d s) (hc : c.Extends c') : c'.Loadable d s := by
  induction s using Selection.induct generalizing d with
  | level columns relations ih =>
    obtain ⟨htable, hcolumns, hrelations⟩ := loadable_iff.1 h
    refine loadable_iff.2 ⟨htable, hcolumns, fun e he => ?_⟩
    obtain ⟨r, related, ⟨hkey, hfind⟩, hkind, hbelow⟩ := hrelations e he
    exact ⟨r, related, ⟨hkey, hc _ _ hfind⟩, hkind, ih e he hbelow⟩

/-! ## Selections of requested paths -/

theorem Loadable.addColumn (h : c.Loadable d s) (ha : d.SelectsColumn a) :
    c.Loadable d (s.addColumn a) := by
  obtain ⟨htable, hcolumns, hrelations⟩ := loadable_iff.1 h
  refine loadable_iff.2 ⟨htable, fun b hb => ?_, hrelations⟩
  rcases Selection.mem_insertName.1 hb with rfl | hb
  · exact ha
  · exact hcolumns b hb

theorem loadable_columnsOf {t : Table} (ht : Table.of d.toEntity .selectable = .ok t) :
    c.Loadable d (Selection.columnsOf t scope) :=
  columnsOf_induct (loadable_empty ht) fun _ e he hrelation hs =>
    hs.addColumn ((Entity.selectsColumn_iff ht).2 ⟨e, he, rfl, hrelation⟩)

/-- What is selected in this way can be loaded from the entity that it is selected on. -/
def FindsLoadable (c : Catalog) (find : SelectionFinder) : Prop :=
  ∀ name paths scope child, find name paths scope = .ok child →
    ∃ related, c.find? name = some related ∧ c.Loadable related child

/-- What a requested alias brings can be loaded, when what is selected below it can. -/
theorem loadable_of_gains {below : Option SelectionFinder} {rests : List (Option String)}
    {g : Selection} {t : Table} (ht : Table.of d.toEntity .selectable = .ok t)
    (hbelow : ∀ find, below = some find → c.FindsLoadable find)
    (h : Gains below d scope a rests g) : c.Loadable d g := by
  cases h with
  | nothing => exact loadable_empty ht
  | deep => exact loadable_empty ht
  | column hcolumn =>
    refine loadable_iff.2 ⟨⟨t, ht⟩, fun b hb => ?_, fun e he => absurd he List.not_mem_nil⟩
    cases List.mem_singleton.1 hb
    exact hcolumn
  | related hkey hr hkind _ hfind hchild =>
    obtain ⟨related, hrelated, hloadable⟩ := hbelow _ hfind _ _ _ _ hchild
    refine loadable_iff.2 ⟨⟨t, ht⟩, fun b hb => absurd hb List.not_mem_nil, fun e he => ?_⟩
    cases List.mem_singleton.1 he
    exact ⟨_, related, ⟨⟨_, hkey, hr⟩, hrelated⟩, hkind, hloadable⟩

theorem loadable_selectLevel {below : Option SelectionFinder}
    (hbelow : ∀ find, below = some find → c.FindsLoadable find)
    (h : c.selectLevel below entity paths scope = .ok s) (hfind : c.find? entity = some d) :
    c.Loadable d s :=
  of_selectLevel (fun _ _ hs ht => hs.merge ht)
    (fun _ ht => ⟨loadable_empty ht, loadable_columnsOf ht⟩)
    (fun _ _ _ _ ht hg => loadable_of_gains ht hbelow hg) h hfind

/-- **What paths select can be loaded.** -/
theorem loadable_select {depth : Nat} (h : c.select depth entity paths scope = .ok s)
    (hfind : c.find? entity = some d) : c.Loadable d s := by
  induction depth generalizing entity paths scope s d with
  | zero => exact loadable_selectLevel (fun find hnone => by cases hnone) h hfind
  | succ depth ih =>
    refine loadable_selectLevel (fun find hsome name paths scope child hchild => ?_) h hfind
    cases hsome
    obtain ⟨related, hrelated⟩ := exists_of_select hchild
    exact ⟨related, hrelated, ih hchild hrelated⟩

end Catalog
end RequestPlan
