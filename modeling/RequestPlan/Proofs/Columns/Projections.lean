import RequestPlan.Proofs.Columns.Qualified
import RequestPlan.Proofs.Selection.Project

/-!
# Columns of projections

* `Projection.Over`: the columns of a level are qualified by a table, and those below a relation by
  the related table.
* `Projection.Of`: a projection of an entity, whose relations are those of the entity, and so below;
  `Of.merge` and `Of.load` keep it.
* `of_project`: **every projection of a plain catalog is one of its entity**, so that it is over the
  entity's table.
-/

namespace RequestPlan
namespace Projection

variable {c : Catalog} {d related : Definition} {p q : Projection} {table : String}
  {relations : List (String × Link × Projection)} {e : String × Link × Projection}

mutual

/-- The columns of a level are qualified by a table, and those below a relation by the related
table. -/
def Over : String → Projection → Prop
  | table, ⟨columns, relations⟩ => (∀ col ∈ columns, Qualified table col.body) ∧ OverBelow relations

/-- The columns below relations are qualified by the related tables. -/
def OverBelow : List (String × Link × Projection) → Prop
  | [] => True
  | (_, link, child) :: rest => Over link.table child ∧ OverBelow rest

end

theorem overBelow_iff : OverBelow relations ↔ ∀ e ∈ relations, Over e.2.1.table e.2.2 := by
  induction relations with
  | nil => exact iff_of_true trivial fun _ he => absurd he List.not_mem_nil
  | cons e es ih => rw [OverBelow, ih, List.forall_mem_cons]

theorem over_iff : Over table p ↔
    (∀ col ∈ p.columns, Qualified table col.body) ∧
      ∀ e ∈ p.relations, Over e.2.1.table e.2.2 := by
  obtain ⟨columns, relations⟩ := p
  rw [Over, overBelow_iff]

mutual

/-- A projection of an entity: its columns are those of the entity's table, and its relations are
relations of the entity. -/
def Of (c : Catalog) : Definition → Projection → Prop
  | d, ⟨columns, relations⟩ =>
    (∀ col ∈ columns, Qualified d.table col.body) ∧ OfBelow c d relations

/-- Each relation is one of the entity, loaded by its link and with the columns by which rows are
put to their parents, and what is below it is a projection of the related entity. -/
def OfBelow (c : Catalog) : Definition → List (String × Link × Projection) → Prop
  | _, [] => True
  | d, (name, link, child) :: rest =>
    (∃ r related, d.relation? name = some r ∧ c.find? r.related = some related ∧
      r.link? d.toEntity related.toEntity = some link ∧
      (∀ col ∈ Registry.keyColumns (r.childKeys related.toEntity), col ∈ child.columns) ∧
      Of c related child) ∧ OfBelow c d rest

end

/-- A relation that is loaded is one of an entity. -/
def OfRelation (c : Catalog) (d : Definition) (e : String × Link × Projection) : Prop :=
  ∃ r related, d.relation? e.1 = some r ∧ c.find? r.related = some related ∧
    r.link? d.toEntity related.toEntity = some e.2.1 ∧
    (∀ col ∈ Registry.keyColumns (r.childKeys related.toEntity), col ∈ e.2.2.columns) ∧
    Of c related e.2.2

theorem ofBelow_iff : OfBelow c d relations ↔ ∀ e ∈ relations, OfRelation c d e := by
  induction relations with
  | nil => exact iff_of_true trivial fun _ he => absurd he List.not_mem_nil
  | cons e es ih =>
    rw [OfBelow, ih, List.forall_mem_cons]
    rfl

theorem of_iff : Of c d p ↔
    (∀ col ∈ p.columns, Qualified d.table col.body) ∧ ∀ e ∈ p.relations, OfRelation c d e := by
  obtain ⟨columns, relations⟩ := p
  rw [Of, ofBelow_iff]

/-- **What is of an entity is over its table.** -/
theorem Of.over (h : Of c d p) : Over d.table p := by
  induction p using Projection.induct generalizing d with
  | level columns relations ih =>
    obtain ⟨hcolumns, hrelations⟩ := of_iff.1 h
    refine over_iff.2 ⟨hcolumns, fun e he => ?_⟩
    obtain ⟨r, related, -, -, hlink, -, hchild⟩ := hrelations e he
    rw [Relation.table_of_link? hlink]
    exact ih e he hchild

/-! ## Unions -/

/-- A relation of an entity is loaded twice: the union is loaded by the same link. -/
theorem OfRelation.merge {name : String} {link link' : Link} {child child' : Projection}
    (h : OfRelation c d (name, link, child)) (h' : OfRelation c d (name, link', child'))
    (hmerge : ∀ related, Of c related child → Of c related child' →
      Of c related (child.merge child')) :
    OfRelation c d (name, link, child.merge child') := by
  obtain ⟨r, related, hr, hfind, hlink, hkeys, hchild⟩ := h
  obtain ⟨r', related', hr', hfind', -, -, hchild'⟩ := h'
  -- the name says which relation it is
  rw [hr] at hr'
  cases hr'
  rw [hfind] at hfind'
  cases hfind'
  refine ⟨r, related, hr, hfind, hlink, fun col hcol => ?_, hmerge related hchild hchild'⟩
  exact mem_columns_merge.2 (.inl (hkeys col hcol))

theorem Of.merge (hp : Of c d p) (hq : Of c d q) : Of c d (p.merge q) := by
  induction q using Projection.induct generalizing d p with
  | level columns relations ih =>
    obtain ⟨hcolumns, hrelations⟩ := of_iff.1 hq
    obtain ⟨hown, hbelow⟩ := of_iff.1 hp
    have hmerge : ∀ own, (∀ e ∈ own, OfRelation c d e) →
        ∀ e ∈ mergeBelow own relations, OfRelation c d e := by
      clear hq hcolumns
      induction relations with
      | nil => exact fun own hown => hown
      | cons e es ihes =>
        intro own hown
        obtain ⟨name, link, child⟩ := e
        obtain ⟨he, hes⟩ := List.forall_mem_cons.1 hrelations
        have hrest := ihes (fun e he => ih e (List.mem_cons_of_mem _ he)) hes
        rw [mergeBelow]
        split
        · rename_i ownLink ownChild hfind
          refine hrest _ fun e' he' => ?_
          rcases Entries.mem_put he' with rfl | he'
          · refine (hown _ (Entries.mem_of_find? hfind)).merge he fun related hold hnew => ?_
            exact ih _ List.mem_cons_self hold hnew
          · exact hown e' he'
        · refine hrest _ fun e' he' => ?_
          rcases Entries.mem_put he' with rfl | he'
          · exact he
          · exact hown e' he'
    refine of_iff.2 ⟨fun col hcol => ?_, hmerge p.relations hbelow⟩
    rcases mem_pushAll.1 hcol with hcol | hcol
    · exact hown col hcol
    · exact hcolumns col hcol

theorem Of.pushAll (h : Of c d p) {cols : List Column}
    (hcols : ∀ col ∈ cols, Qualified d.table col.body) : Of c d (p.pushAll cols) := by
  obtain ⟨hcolumns, hrelations⟩ := of_iff.1 h
  refine of_iff.2 ⟨fun col hcol => ?_, fun e he => ?_⟩
  · rcases mem_pushAll.1 hcol with hcol | hcol
    · exact hcolumns col hcol
    · exact hcols col hcol
  · rw [relations_pushAll] at he
    exact hrelations e he

theorem Of.load {l : Load} (h : Of c d p)
    (hparent : ∀ col ∈ l.parentKeys, Qualified d.table col.body)
    (hrelation : OfRelation c d (l.link.name, l.link, l.node)) : Of c d (p.load l) := by
  have hone : Of c d ⟨[], [(l.link.name, l.link, l.node)]⟩ :=
    of_iff.2 ⟨fun _ hcol => absurd hcol List.not_mem_nil, List.forall_mem_singleton.2 hrelation⟩
  exact (h.pushAll hparent).merge hone

theorem Of.loadAll {ls : List Load} (h : Of c d p)
    (hls : ∀ l ∈ ls, (∀ col ∈ l.parentKeys, Qualified d.table col.body) ∧
      OfRelation c d (l.link.name, l.link, l.node)) : Of c d (p.loadAll ls) := by
  induction ls generalizing p with
  | nil => exact h
  | cons l ls ih =>
    obtain ⟨⟨hparent, hrelation⟩, hls⟩ := List.forall_mem_cons.1 hls
    exact ih (h.load hparent hrelation) hls

end Projection

/-! ## Projections of selections -/

namespace Relation

variable {r : Relation} {parent related : Entity} {name : String} {col : Column}

/-- What an entity selects for a relation is of its table. -/
theorem qualified_parentKeys (hparent : parent.Undotted) (hr : parent.relation? name = some r)
    (h : col ∈ Registry.keyColumns (r.parentKeys parent)) : Qualified parent.table col.body := by
  obtain ⟨key, hkey, rfl⟩ := List.mem_map.1 h
  have hforeign := Entity.qualified_column (e := parent) (hparent.foreignKey name r hr)
  have howner := Entity.qualified_column (e := parent)
    (undotted_ownerColumn (hparent.ownerKey name r hr) hparent.key)
  unfold parentKeys at hkey
  split at hkey
  · cases List.mem_singleton.1 hkey
    exact hforeign
  · rcases List.mem_cons.1 hkey with rfl | hkey
    · exact hforeign
    · obtain ⟨m, hm, rfl⟩ := Option.map_eq_some_iff.1 (Option.mem_toList.1 hkey)
      exact Entity.qualified_column (hparent.morphType name r m hr hm)
  · cases List.mem_singleton.1 hkey
    exact howner
  · cases List.mem_singleton.1 hkey
    exact howner
  · cases hkey

/-- What is selected from related rows for a relation is of the related table. -/
theorem qualified_childKeys (hparent : parent.Undotted) (hrelated : related.Undotted)
    (hr : parent.relation? name = some r)
    (h : col ∈ Registry.keyColumns (r.childKeys related)) : Qualified related.table col.body := by
  obtain ⟨key, hkey, rfl⟩ := List.mem_map.1 h
  have hforeign := Entity.qualified_column (e := related) (hparent.foreignKey name r hr)
  have howner := Entity.qualified_column (e := related)
    (undotted_ownerColumn (hparent.ownerKey name r hr) hrelated.key)
  unfold childKeys at hkey
  split at hkey
  · cases List.mem_singleton.1 hkey
    exact howner
  · cases List.mem_singleton.1 hkey
    exact howner
  · cases List.mem_singleton.1 hkey
    exact hforeign
  · rcases List.mem_cons.1 hkey with rfl | hkey
    · exact hforeign
    · obtain ⟨m, hm, rfl⟩ := Option.map_eq_some_iff.1 (Option.mem_toList.1 hkey)
      exact Entity.qualified_column (hparent.morphType name r m hr hm)
  · cases hkey

end Relation

namespace Catalog

variable {c : Catalog} {d : Definition} {p : Projection} {s : Selection} {entity : String}

/-- Without hooks, a column that is selected is one of the entity's table. -/
theorem qualified_selectColumn (hc : c.Plain) (hfind : c.find? entity = some d) {a key : String}
    {col : Column} (hkey : d.selectKey? a = some key)
    (h : Registry.selectColumn d a key = .ok col) : Qualified d.table col.body := by
  have hundotted : '.' ∉ key.toList := by
    unfold Entity.selectKey? at hkey
    split at hkey
    · rename_i t ht
      obtain ⟨entry, hentry, rfl⟩ := Option.map_eq_some_iff.1 hkey
      exact (hc.undotted entity d hfind).of_find? ht hentry
    · cases hkey
  unfold Registry.selectColumn at h
  rw [hc.hooks entity d hfind] at h
  cases h
  exact Entity.qualified_column hundotted

/-- **Every projection of a plain catalog is one of its entity.** -/
theorem of_project (hnamed : c.Named) (hc : c.Plain)
    (hkeyed : c.KeyedByName)
    (h : c.project entity s = .ok p) (hfind : c.find? entity = some d) : p.Of c d := by
  induction s using Selection.induct generalizing entity p d with
  | level columns relations ih =>
    obtain ⟨p₀, ls, rfl, hnone, -, hcolumns, hls, -⟩ := exists_level_of_project h hfind
    have hundotted : d.toEntity.Undotted := hc.undotted entity d hfind
    have hstart : p₀.Of c d := by
      refine Projection.of_iff.2 ⟨fun col hcol => ?_, fun e he => ?_⟩
      · obtain ⟨a, -, key, hkey, hcol⟩ := (hcolumns col).1 hcol
        exact qualified_selectColumn hc hfind hkey hcol
      · rw [hnone] at he
        cases he
    refine hstart.loadAll fun l hl => ?_
    obtain ⟨e, he, r, related, hbrings⟩ := hls l hl
    obtain ⟨⟨key, -, hr⟩, hrelated⟩ := hbrings.relates
    have hchild : l.child.Of c related := ih e he hbrings.child (hbrings.find? hnamed)
    -- the relation is found under the name of its link
    have hname : d.relation? l.link.name = some r := by
      rw [Relation.name_of_link? hbrings.link, hkeyed entity d hfind key r hr, hr]
    refine ⟨fun col hcol => ?_, r, related, hname, hrelated, hbrings.link, fun col hcol => ?_, ?_⟩
    · rw [hbrings.parentKeys] at hcol
      exact Relation.qualified_parentKeys hundotted hr hcol
    · exact Projection.mem_pushAll.2 (.inr (hbrings.childKeys ▸ hcol))
    · refine hchild.pushAll fun col hcol => ?_
      rw [hbrings.childKeys] at hcol
      exact Relation.qualified_childKeys hundotted (hc.undotted _ _ hrelated) hr hcol

end Catalog
end RequestPlan
