import RequestPlan.Catalog.Schema
import RequestPlan.Proofs.Catalog

/-!
# Qualified columns

* `Qualified`: a column is a qualifier, a dot and a name.
* `Entity.Undotted`: no key of an entity has a dot; `qualified_column`: its columns are then
  qualified by its table.
* `Entity.KeyedByName`: relations are found under their own names, as `keyedByName_of_ofJson?` shows
  of entities from a schema.
* `Catalog.Plain`: entities without hooks and without dots in their keys.
* `Link.Over`: the columns of a link are qualified by the tables on its two sides, and
  `over_of_link?`: **those of every relation are**.
-/

namespace RequestPlan

/-- A column is a name behind a qualifier and a dot. The name of an empty key is empty. -/
def Qualified (qualifier column : String) : Prop :=
  ∃ name, '.' ∉ name.toList ∧ column = qualifier ++ "." ++ name

/-! ## Entities -/

namespace Entity

/-- No key that an entity declares, or that its relations name, has a dot. -/
structure Undotted (e : Entity) : Prop where
  key : '.' ∉ e.key.toList
  declared : ∀ k ds, e.declarations k = some ds → ∀ decl ∈ ds, '.' ∉ decl.key.toList
  foreignKey : ∀ name r, e.relation? name = some r → '.' ∉ r.foreignKey.toList
  ownerKey : ∀ name r, e.relation? name = some r → '.' ∉ r.ownerKey.toList
  morphType : ∀ name r m, e.relation? name = some r → r.morphType = some m → '.' ∉ m.toList

/-- Whether a key has a dot can be looked up declaration by declaration. -/
theorem undotted_iff {e : Entity} : e.Undotted ↔
    '.' ∉ e.key.toList ∧
    (∀ k ∈ [Kind.queryable, .filterable, .sortable, .selectable],
      ∀ decl ∈ (e.declarations k).getD [], '.' ∉ decl.key.toList) ∧
    ∀ p ∈ e.relations.entries, '.' ∉ p.2.foreignKey.toList ∧ '.' ∉ p.2.ownerKey.toList ∧
      ∀ m ∈ p.2.morphType.toList, '.' ∉ m.toList := by
  have hrelation : ∀ name r, e.relation? name = some r ↔ (name, r) ∈ e.relations.entries :=
    fun _ _ => Dict.find?_eq_some_iff
  constructor
  · intro h
    refine ⟨h.key, fun k _ decl hdecl => ?_, fun p hp => ?_⟩
    · cases hds : e.declarations k with
      | none =>
        rw [hds] at hdecl
        cases hdecl
      | some ds =>
        rw [hds] at hdecl
        exact h.declared k ds hds decl hdecl
    · have hr := (hrelation p.1 p.2).2 hp
      exact ⟨h.foreignKey _ _ hr, h.ownerKey _ _ hr,
        fun m hm => h.morphType _ _ m hr (Option.mem_toList.1 hm)⟩
  · rintro ⟨hkey, hdeclared, hrelations⟩
    refine ⟨hkey, fun k ds hds decl hdecl => ?_, fun name r hr => ?_, fun name r hr => ?_,
      fun name r m hr hm => ?_⟩
    · exact hdeclared k (by cases k <;> simp) decl (by rw [hds]; exact hdecl)
    · exact (hrelations _ ((hrelation name r).1 hr)).1
    · exact (hrelations _ ((hrelation name r).1 hr)).2.1
    · exact (hrelations _ ((hrelation name r).1 hr)).2.2 m (Option.mem_toList.2 hm)

instance (e : Entity) : Decidable e.Undotted := decidable_of_iff _ undotted_iff.symm

/-- Relations are found under their own names. -/
def KeyedByName (e : Entity) : Prop := ∀ name r, e.relation? name = some r → r.name = name

theorem keyedByName_iff {e : Entity} :
    e.KeyedByName ↔ ∀ p ∈ e.relations.entries, p.2.name = p.1 :=
  ⟨fun h p hp => h p.1 p.2 (Dict.find?_eq_some_iff.2 hp),
    fun h name r hr => h (name, r) (Dict.find?_eq_some_iff.1 hr)⟩

instance (e : Entity) : Decidable e.KeyedByName := decidable_of_iff _ keyedByName_iff.symm

variable {e : Entity} {key a : String} {k : Kind} {t : Table} {entry : Entry}

theorem qualified_column (h : '.' ∉ key.toList) : Qualified e.table (e.column key) := by
  rw [column, if_neg h]
  exact ⟨key, h, rfl⟩

/-- Aliases stand for keys without dots. -/
theorem Undotted.of_find? (h : e.Undotted) (ht : Table.of e k = .ok t)
    (hfind : t.find? a = some entry) : '.' ∉ entry.key.toList := by
  obtain ⟨d, hd, -, -, rfl⟩ := Table.exists_declaration ht hfind
  obtain ⟨k', ds, hds, hmem⟩ := mem_declared hd
  exact h.declared k' ds hds d hmem

/-- The relations of a list are found under their names. -/
theorem keyedByName_of_ofList {rs : List Relation}
    (h : e.relations = Dict.ofList (rs.map fun r => (r.name, r))) : e.KeyedByName := by
  have hfold : ∀ (rs : List Relation) (d : Dict Relation),
      (∀ name r, d.find? name = some r → r.name = name) →
      ∀ name r, ((rs.map fun r => (r.name, r)).foldl (fun d p => d.put p.1 p.2) d).find? name =
        some r → r.name = name := by
    intro rs
    induction rs with
    | nil => exact fun d hd => hd
    | cons r' rs ih =>
      intro d hd
      refine ih _ fun name r hfind => ?_
      rw [Dict.find?_put] at hfind
      split at hfind
      · rename_i hname
        cases hfind
        exact hname.symm
      · exact hd name r hfind
  intro name r hfind
  rw [relation?, h] at hfind
  exact hfold rs ∅ (fun _ _ hnone => by cases hnone) name r hfind

/-- **The relations of an entity from a schema are found under their own names.** -/
theorem keyedByName_of_ofJson? {j : Json} (h : ofJson? j = some e) : e.KeyedByName := by
  rw [ofJson?] at h
  obtain ⟨fields, -, h⟩ := Option.bind_eq_some_iff.1 h
  split at h
  · -- the fields are read one after the other, the relations first
    obtain ⟨rs, -, h⟩ := Option.bind_eq_some_iff.1 h
    simp only [Option.bind_eq_bind, Option.bind_eq_some_iff] at h
    obtain ⟨_, -, _, -, _, -, _, -, _, -, _, -, _, -, h⟩ := h
    cases h
    exact keyedByName_of_ofList rfl
  · cases h

end Entity

namespace Catalog

/-- The entities have no hooks, and no key of theirs has a dot. -/
structure Plain (c : Catalog) : Prop where
  hooks : ∀ name d, c.find? name = some d → d.hooks = .none
  undotted : ∀ name d, c.find? name = some d → d.toEntity.Undotted

/-- The relations of every entity are found under their own names. -/
def KeyedByName (c : Catalog) : Prop := ∀ name d, c.find? name = some d → d.toEntity.KeyedByName

theorem plain_of_entries {c : Catalog}
    (h : ∀ e ∈ c.entries, e.2.hooks = .none ∧ e.2.toEntity.Undotted) : c.Plain where
  hooks _ _ hfind := (h _ (Dict.find?_eq_some_iff.1 hfind)).1
  undotted _ _ hfind := (h _ (Dict.find?_eq_some_iff.1 hfind)).2

theorem keyedByName_of_entries {c : Catalog} (h : ∀ e ∈ c.entries, e.2.toEntity.KeyedByName) :
    c.KeyedByName :=
  fun name d hfind => h (name, d) (Dict.find?_eq_some_iff.1 hfind)

end Catalog

/-! ## Links -/

/-- The columns of a link are qualified by the tables on its two sides. -/
structure Link.Over (table : String) (l : Link) : Prop where
  parentColumn : Qualified table l.parentColumn
  relatedColumn : Qualified l.table l.relatedColumn
  morph : ∀ m, l.morph = some m → Qualified table m.column ∨ Qualified l.table m.column

namespace Relation

variable {r : Relation} {parent related : Entity} {link : Link} {name : String}

theorem table_of_link? (h : r.link? parent related = some link) : link.table = related.table := by
  unfold link? at h
  dsimp only at h
  split at h <;> cases h <;> rfl

theorem undotted_ownerColumn {owner : Entity} (hr : '.' ∉ r.ownerKey.toList)
    (howner : '.' ∉ owner.key.toList) : '.' ∉ (r.ownerColumn owner).toList := by
  unfold ownerColumn
  split
  · exact howner
  · exact hr

/-- The morph column is on the side of the foreign key, as the relation's kind has it. -/
theorem qualified_morph (hparent : parent.Undotted) (hr : parent.relation? name = some r)
    (h : r.link? parent related = some link) {m : Morph} (hm : link.morph = some m) :
    Qualified (if r.kind = .morphOwning then parent.table else link.table) m.column := by
  have hcolumn : ∀ (e : Entity) key, r.morphType = some key → Qualified e.table (e.column key) :=
    fun e key hkey => Entity.qualified_column (hparent.morphType name r key hr hkey)
  unfold link? at h
  dsimp only at h
  split at h <;> cases h <;> rename_i hkind
  · cases hm
  · cases hm
  · obtain ⟨key, hkey, rfl⟩ := Option.map_eq_some_iff.1 hm
    rw [if_pos hkind]
    exact hcolumn parent key hkey
  · obtain ⟨key, hkey, rfl⟩ := Option.map_eq_some_iff.1 hm
    rw [if_neg (by rw [hkind]; decide)]
    exact hcolumn related key hkey

/-- **The columns of a relation are qualified by the tables on its two sides.** -/
theorem over_of_link? (hparent : parent.Undotted) (hrelated : related.Undotted)
    (hr : parent.relation? name = some r) (h : r.link? parent related = some link) :
    link.Over parent.table := by
  have howner : ∀ owner : Entity, owner.Undotted → Qualified owner.table
      (owner.column (r.ownerColumn owner)) := fun owner hkey =>
    Entity.qualified_column (undotted_ownerColumn (hparent.ownerKey name r hr) hkey.key)
  have hforeign : ∀ e : Entity, Qualified e.table (e.column r.foreignKey) := fun e =>
    Entity.qualified_column (hparent.foreignKey name r hr)
  have hmorph : ∀ m, link.morph = some m →
      Qualified parent.table m.column ∨ Qualified link.table m.column := fun m hm => by
    have hqualified := qualified_morph hparent hr h hm
    split at hqualified
    · exact .inl hqualified
    · exact .inr hqualified
  unfold link? at h
  dsimp only at h
  split at h <;> cases h
  · exact ⟨hforeign parent, howner related hrelated, hmorph⟩
  · exact ⟨howner parent hparent, hforeign related, hmorph⟩
  · exact ⟨hforeign parent, howner related hrelated, hmorph⟩
  · exact ⟨howner parent hparent, hforeign related, hmorph⟩

end Relation
end RequestPlan
