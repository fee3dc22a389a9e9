import RequestPlan.Proofs.Columns.Qualified
import RequestPlan.Proofs.Registry.Direct

/-!
# Columns of filters

* `Predicate.Over`: the columns of a predicate on the rows of a table are qualified by it, and those
  on related rows by the related table.
* `Mode.of_predicate`: a filter on a column is made of conditions on this column only.
* `CompiledFilter.Of`: what keys of an entity stand for, along its relations; `of_filter`: **every
  filter is what the entities along its key say**.
* `CompiledFilter.Over`: its columns are in their places; `over_filter`: **every filter of a plain
  catalog is over the table of its entity**.
-/

namespace RequestPlan

/-! ## Predicates -/

namespace Predicate

mutual

/-- The columns of a predicate are qualified by a table, and those on related rows, through whatever
relations, by the related table. -/
def Over : String → Predicate → Prop
  | table, .compare c _ _ | table, .among c _ | table, .isNull c | table, .isNotNull c
  | table, .like c _ _ => Qualified table c
  | table, .related l | table, .unrelated l => l.Over table
  | table, .relatedWhere l p => l.Over table ∧ Over l.table p
  | table, .allOf ps | table, .anyOf ps => OverAll table ps

/-- The columns of several predicates are qualified by a table. -/
def OverAll : String → List Predicate → Prop
  | _, [] => True
  | table, p :: ps => Over table p ∧ OverAll table ps

end

variable {table : String} {p : Predicate} {ps : List Predicate} {link : Link}

theorem overAll_iff : OverAll table ps ↔ ∀ p ∈ ps, Over table p := by
  induction ps with
  | nil => exact iff_of_true trivial fun _ hp => absurd hp List.not_mem_nil
  | cons p ps ih => rw [OverAll, ih, List.forall_mem_cons]

/-- What conditions have in common holds of them joined, if it holds of groups of such conditions. -/
theorem of_any? {P : Predicate → Prop} (hgroup : ∀ ps, (∀ p ∈ ps, P p) → P (.anyOf ps))
    (h : ∀ p ∈ ps, P p) (hp : any? ps = some p) : P p := by
  match ps, hp with
  | [q], hp =>
    cases hp
    exact h p List.mem_cons_self
  | q :: q' :: qs, hp =>
    cases hp
    exact hgroup _ h

theorem over_any? (h : ∀ p ∈ ps, Over table p) (hp : any? ps = some p) : Over table p :=
  of_any? (fun _ hps => overAll_iff.2 hps) h hp

theorem over_exists? {inner : Option Predicate} (hlink : link.Over table)
    (hinner : ∀ p, inner = some p → Over link.table p) : Over table (exists? link inner) := by
  cases inner with
  | none => exact hlink
  | some p => exact ⟨hlink, hinner p rfl⟩

/-- A property of all conditions on a column, and of the groups of conditions that have it. -/
structure OfColumn (column : String) (P : Predicate → Prop) : Prop where
  compare : ∀ op v, P (.compare column op v)
  among : ∀ vs, P (.among column vs)
  isNull : P (.isNull column)
  isNotNull : P (.isNotNull column)
  like : ∀ pattern negated, P (.like column pattern negated)
  anyOf : ∀ ps, (∀ p ∈ ps, P p) → P (.anyOf ps)

theorem ofColumn_over {column : String} (h : Qualified table column) :
    OfColumn column (Over table) where
  compare _ _ := h
  among _ := h
  isNull := h
  isNotNull := h
  like _ _ := h
  anyOf _ hps := overAll_iff.2 hps

end Predicate

/-! ## Values of one column -/

namespace Mode

open Predicate (OfColumn)

variable {column key : String} {settings : Settings} {v : Value} {P : Predicate → Prop}
  {p : Predicate}

theorem of_nullTest? (h : OfColumn column P) {s : Sentinel}
    (hp : s.nullTest? column = some p) : P p := by
  cases s with
  | null =>
    cases hp
    exact h.isNull
  | notNull =>
    cases hp
    exact h.isNotNull
  | empty => cases hp

theorem of_plainPredicate (h : OfColumn column P) : P (plainPredicate column v) := by
  unfold plainPredicate
  split
  · exact h.among _
  · exact h.compare _ _

theorem of_scalarTextPredicate? (h : OfColumn column P)
    (hp : scalarTextPredicate? column v = some p) : P p := by
  unfold scalarTextPredicate? at hp
  split at hp
  · cases hp
    exact h.compare _ _
  · exact of_nullTest? h hp
  · obtain ⟨t, -, rfl⟩ := Option.map_eq_some_iff.1 hp
    dsimp only
    split
    · exact h.like _ _
    · split
      · exact h.like _ _
      · exact h.like _ _

mutual

theorem of_textPredicate? (h : OfColumn column P) :
    ∀ (v : Value) (p : Predicate), textPredicate? column v = some p → P p
  | .list vs, _, hp => Predicate.of_any? h.anyOf (of_textPredicates h vs) hp
  | .null, _, hp => by cases hp
  | .string s, p, hp => by
    rw [textPredicate?] at hp
    split at hp
    · cases hp
    · exact of_scalarTextPredicate? h hp
  | .bool _, _, hp | .int _, _, hp | .float _, _, hp | .timestamp _, _, hp => by
    rw [textPredicate?] at hp
    exact of_scalarTextPredicate? h hp

theorem of_textPredicates (h : OfColumn column P) :
    ∀ (vs : List Value), ∀ p ∈ textPredicates column vs, P p
  | [], _, hp => absurd hp List.not_mem_nil
  | v :: vs, p, hp => by
    rw [textPredicates] at hp
    split at hp
    · rename_i q hq
      rcases List.mem_cons.1 hp with rfl | hp
      · exact of_textPredicate? h v p hq
      · exact of_textPredicates h vs p hp
    · exact of_textPredicates h vs p hp

end

theorem of_numberPredicate? (h : OfColumn column P)
    (hp : numberPredicate? column v = some p) : P p := by
  unfold numberPredicate? at hp
  split at hp
  · cases hp
  · cases hp
    exact h.among _
  · split at hp
    · exact of_nullTest? h hp
    · split at hp
      · cases hp
        exact h.compare _ _
      · cases hp
        exact h.compare _ _
  · cases hp
    exact h.compare _ _

theorem of_flagPredicate? (h : OfColumn column P) {strict : Bool}
    (hp : flagPredicate? column key strict v = .ok (some p)) : P p := by
  unfold flagPredicate? at hp
  split at hp
  · cases hp
  · split at hp
    · exact of_nullTest? h (Except.ok.inj hp)
    · split at hp
      · cases hp
        exact h.compare _ _
      · split at hp
        · cases hp
        · cases hp
          exact h.compare _ _

theorem of_datePredicate? (h : OfColumn column P) {op : Comparison}
    (hp : datePredicate? column key op v = .ok (some p)) : P p := by
  unfold datePredicate? at hp
  split at hp
  · cases hp
  · split at hp
    · exact of_nullTest? h (Except.ok.inj hp)
    · split at hp
      · cases hp
        exact h.compare _ _
      · cases hp

/-- **A filter on a column is made of conditions on this column only.** -/
theorem of_predicate (h : OfColumn column P) {mode : Mode}
    (hp : mode.predicate column key settings v = .ok (some p)) : P p := by
  cases mode with
  | default | plain | custom _ =>
    cases hp
    exact of_plainPredicate h
  | among =>
    cases hp
    exact h.among _
  | text => exact of_textPredicate? h v p (Except.ok.inj hp)
  | number => exact of_numberPredicate? h (Except.ok.inj hp)
  | flag => exact of_flagPredicate? h hp
  | date op => exact of_datePredicate? h hp
  | point =>
    obtain ⟨s, -, hs⟩ := Option.bind_eq_some_iff.1 (Except.ok.inj hp)
    exact of_nullTest? h hs
  | relation => cases hp

end Mode

/-! ## Filters -/

namespace CompiledFilter

/-- The columns of a filter without hooks are qualified by a table, and those on related rows by
the related table. -/
def Over : String → CompiledFilter → Prop
  | table, .column _ _ _ col => Qualified table col
  | _, .hook _ _ _ _ _ => False
  | table, .related _ _ link => link.Over table
  | table, .relatedWhere _ _ link child => link.Over table ∧ Over link.table child

variable {table : String} {f : CompiledFilter} {settings : Settings} {v : Value}

/-- A filter makes predicates over the same table. -/
theorem over_applyAlone (h : f.Over table) {p : Predicate}
    (hp : f.applyAlone settings v = .ok (some p)) : p.Over table := by
  induction f generalizing table p with
  | column entity key mode col => exact Mode.of_predicate (Predicate.ofColumn_over h) hp
  | hook entity key name scope run => exact h.elim
  | related entity key link =>
    cases hp
    unfold existence
    split
    · exact h
    · exact h
  | relatedWhere entity key link child ih =>
    obtain ⟨inner, hinner, hp⟩ := Outcome.map_eq_ok.1 hp
    cases hp
    refine Predicate.over_exists? h.1 fun p hsome => ?_
    rw [hsome] at hinner
    exact ih h.2 hinner

/-- The filter is a hook, which may ask for joins. One below a relation may not. -/
def IsHook : CompiledFilter → Prop
  | .hook _ _ _ _ _ => True
  | _ => False

theorem Over.not_isHook (h : f.Over table) : ¬f.IsHook := by
  cases f with
  | hook entity key name scope run => exact h.elim
  | column entity key mode col | related entity key link | relatedWhere entity key link child =>
    exact id

/-- Filters that are no hooks do not ask for joins. -/
theorem apply_eq (h : ¬f.IsHook) (c : Catalog) (root : Definition) :
    f.apply c root settings v = Work.of (f.applyAlone settings v) := by
  cases f with
  | hook entity key name scope run => exact absurd trivial h
  | column entity key mode col => rfl
  | related entity key link => rfl
  | relatedWhere entity key link child => rfl

end CompiledFilter

namespace Catalog

variable {c : Catalog} {d related : Definition} {entity aliasName : String} {entry : Entry}
  {link : Link}

theorem entry?_eq_ok_some (h : c.entry? entity aliasName = .ok (some (d, entry))) :
    c.find? entity = some d ∧
      ∃ t, Table.of d.toEntity .filterable = .ok t ∧ t.find? aliasName = some entry := by
  obtain ⟨d', hget, h⟩ := Outcome.bind_eq_ok.1 h
  obtain ⟨t, ht, h⟩ := Outcome.map_eq_ok.1 h
  obtain ⟨entry', hfind, heq⟩ := Option.map_eq_some_iff.1 h
  cases heq
  exact ⟨get_eq_ok_iff.1 hget, t, ht, hfind⟩

/-- A link is the one of a relation between an entity and a registered one. -/
def Links (c : Catalog) (d : Definition) (link : Link) (related : Definition) : Prop :=
  ∃ name r, d.relation? name = some r ∧ c.find? r.related = some related ∧
    r.link? d.toEntity related.toEntity = some link

theorem links_of_filterLink {name : String} (h : c.filterLink d name = .ok (link, related)) :
    c.Links d link related := by
  unfold filterLink at h
  split at h
  · cases h
  · rename_i r hr
    split at h
    · cases h
    · obtain ⟨related', hget, h⟩ := Outcome.bind_eq_ok.1 h
      split at h
      · cases h
      · rename_i link' hlink
        cases h
        exact ⟨name, r, hr, get_eq_ok_iff.1 hget, hlink⟩

theorem Links.table (h : c.Links d link related) : link.table = related.table := by
  obtain ⟨name, r, hr, hrelated, hlink⟩ := h
  exact Relation.table_of_link? hlink

theorem Links.find? (h : c.Links d link related) : ∃ name, c.find? name = some related := by
  obtain ⟨name, r, hr, hrelated, hlink⟩ := h
  exact ⟨r.related, hrelated⟩

theorem Links.over (h : c.Links d link related) (hc : c.Plain)
    (hd : ∃ name, c.find? name = some d) : link.Over d.table := by
  obtain ⟨name, r, hr, hrelated, hlink⟩ := h
  obtain ⟨entity, hfind⟩ := hd
  exact Relation.over_of_link? (hc.undotted _ _ hfind) (hc.undotted _ _ hrelated) hr hlink

/-- Without hooks, a column is filtered in its mode. -/
theorem columnFilter_eq (h : d.hooks = .none) (k : FilterKey) :
    Registry.columnFilter d k aliasName entry =
      .column d.name (FilterKey.text k) (Mode.parse entry.mode) (d.column entry.key) := by
  have hmode : ∀ m, d.hooks.mode? m = none := by
    intro m
    rw [h]
    rfl
  have hfilter : d.hooks.filters.find? aliasName = none := by
    rw [h]
    rfl
  have hmodeHook : (entry.mode.bind fun m =>
      if (Mode.parse entry.mode).isOverridable && Mode.parse entry.mode ≠ .default then
        (d.hooks.mode? m).map fun hook => (m, hook)
      else none) = none := by
    cases entry.mode with
    | none => rfl
    | some m => simp only [hmode, Option.map_none, ite_self, Option.bind_some]
  unfold Registry.columnFilter
  simp only [hmodeHook]
  -- an alias may have a hook in these modes only
  cases Mode.parse entry.mode <;> simp only [hfilter]

end Catalog

/-- What keys of an entity stand for: a column that a filter is declared for, or the related rows
behind a relation, on which a key of the related entity may be asked for. -/
inductive CompiledFilter.Of (c : Catalog) : Definition → CompiledFilter → Prop
  | column {d : Definition} {key : FilterKey} {aliasName : String} {t : Table} {entry : Entry}
      (ht : Table.of d.toEntity .filterable = .ok t) (hentry : t.find? aliasName = some entry)
      (hmode : Mode.parse entry.mode ≠ .relation) :
      Of c d (Registry.columnFilter d key aliasName entry)
  | related {d related : Definition} {key : String} {link : Link}
      (hlink : c.Links d link related) : Of c d (.related d.name key link)
  | relatedWhere {d related : Definition} {key : String} {link : Link} {child : CompiledFilter}
      (hlink : c.Links d link related) (hchild : Of c related child) :
      Of c d (.relatedWhere d.name key link child)

namespace CompiledFilter

variable {c : Catalog} {d : Definition} {f : CompiledFilter}

theorem Of.withKey (h : Of c d f) (key : FilterKey) : Of c d (f.withKey (FilterKey.text key)) := by
  cases h with
  | column ht hentry hmode =>
    rw [Registry.withKey_columnFilter]
    exact .column ht hentry hmode
  | related hlink => exact .related hlink
  | relatedWhere hlink hchild => exact .relatedWhere hlink hchild

/-- Without hooks, no filter is one. -/
theorem Of.not_isHook (h : Of c d f) (hhooks : d.hooks = .none) : ¬f.IsHook := by
  cases h with
  | column ht hentry hmode =>
    rw [Catalog.columnFilter_eq hhooks]
    exact id
  | related hlink => exact id
  | relatedWhere hlink hchild => exact id

/-- In a plain catalog, a filter is over the table of its entity. -/
theorem Of.over (h : Of c d f) (hc : c.Plain) (hd : ∃ name, c.find? name = some d) :
    f.Over d.table := by
  induction h with
  | column ht hentry hmode =>
    obtain ⟨entity, hfind⟩ := hd
    rw [Catalog.columnFilter_eq (hc.hooks entity _ hfind)]
    exact Entity.qualified_column ((hc.undotted entity _ hfind).of_find? ht hentry)
  | related hlink => exact hlink.over hc hd
  | relatedWhere hlink hchild ih =>
    refine ⟨hlink.over hc hd, ?_⟩
    rw [hlink.table]
    exact ih hlink.find?

end CompiledFilter

namespace Catalog

variable {c : Catalog} {d : Definition} {entity : String} {key : FilterKey} {f : CompiledFilter}

theorem exists_of_filter (h : c.filter entity key = .ok (some f)) :
    ∃ d, c.find? entity = some d := by
  cases key with
  | nil => cases h
  | cons aliasName rest =>
    rw [filter] at h
    split at h
    · cases h
    · cases h
    · rename_i d entry hentry?
      exact ⟨d, (entry?_eq_ok_some hentry?).1⟩

/-- **A filter is what the entities along its key say.** -/
theorem of_filter (hnamed : c.Named) (hfind : c.find? entity = some d)
    (h : c.filter entity key = .ok (some f)) : CompiledFilter.Of c d f := by
  induction key generalizing entity d f with
  | nil => cases h
  | cons aliasName rest ih =>
    rw [filter] at h
    split at h
    · cases h
    · cases h
    · rename_i d' entry hentry?
      obtain ⟨hfind', t, ht, hentry⟩ := entry?_eq_ok_some hentry?
      rw [hfind] at hfind'
      cases hfind'
      split at h
      · split at h
        · cases h
        · rename_i link related hlink
          have hlinks := links_of_filterLink hlink
          split at h
          · cases h
            exact .related hlinks
          · -- the rest of the key is a filter of the related entity
            obtain ⟨child, hchild, rfl⟩ := map_eq_ok_some h
            obtain ⟨name, hrelated⟩ := hlinks.find?
            refine .relatedWhere hlinks (ih ?_ hchild)
            rw [hnamed _ _ hrelated, hrelated]
      · rename_i hmode
        cases h
        exact .column ht hentry hmode

/-- **Every filter of a plain catalog is over the table of its entity.** -/
theorem over_filter (hnamed : c.Named) (hc : c.Plain) (hfind : c.find? entity = some d)
    (h : c.filter entity key = .ok (some f)) : f.Over d.table :=
  (of_filter hnamed hfind h).over hc ⟨entity, hfind⟩

end Catalog
end RequestPlan
