import RequestPlan.Proofs.Catalog
import RequestPlan.Proofs.Dict

/-!
# Names of modes

A mode is known by the key of its name, which says nothing of its case and its dashes.

* `Definition.keyed`, `Catalog.keyed`: what is declared, with the key of each mode for its name.
* `Definition.Respelled`: entities that differ in the names of modes only, both in declarations and
  for hooks; `Catalog.respelled_iff`: **with keys for names they are the same**.
* `Table.of_keyed`, `Catalog.register_keyed`: tables are made and entities come in whatever the
  names of modes are.
-/

namespace RequestPlan

/-! ## Keys for names -/

/-- A declaration with the key of its mode for the name. -/
def Declaration.keyed : Declaration → Declaration
  | .bare a => .bare a
  | .typed a mode key => .typed a (mode.map modeKey) key
  | .full a mode key uses => .full a (mode.map modeKey) key uses

/-- An entity with the keys of modes for their names. -/
def Entity.keyed (e : Entity) : Entity :=
  { e with
    queryable := e.queryable.map (List.map Declaration.keyed)
    filterable := e.filterable.map (List.map Declaration.keyed)
    sortable := e.sortable.map (List.map Declaration.keyed)
    selectable := e.selectable.map (List.map Declaration.keyed) }

/-- An entity with its hooks, which are kept by the keys of modes. -/
def Definition.keyed (d : Definition) : Definition := ⟨d.toEntity.keyed, d.hooks⟩

/-- What an alias stands for, with the key of the mode for its name. -/
def Entry.keyed (entry : Entry) : Entry := { entry with mode := entry.mode.map modeKey }

/-- A table with the keys of modes for their names. -/
def Table.keyed (t : Table) : Table := { t with entries := t.entries.map Entry.keyed }

/-- A catalog with the keys of modes for their names. -/
def Catalog.keyed (c : Catalog) : Catalog := c.map Definition.keyed

/-! ## Other names with the same keys -/

/-- Hooks for modes more, one after the other. -/
def Hooks.addModes (h : Hooks) (ms : List (String × FilterHook)) : Hooks :=
  ms.foldl (fun h m => h.addMode m.1 m.2) h

/-- Entities that differ in the names of modes only: those that the declarations name, and those
that the hooks for modes were given for. Names in one place have one key. -/
structure Definition.Respelled (d d' : Definition) : Prop where
  entity : d.toEntity.keyed = d'.toEntity.keyed
  hooks : ∃ (h : Hooks) (ms ms' : List (String × FilterHook)),
    ms.map (Prod.map modeKey id) = ms'.map (Prod.map modeKey id) ∧
      d.hooks = h.addModes ms ∧ d'.hooks = h.addModes ms'

/-- Catalogs that differ in the names of modes only. -/
structure Catalog.Respelled (c c' : Catalog) : Prop where
  names : ∀ name, c.find? name = none ↔ c'.find? name = none
  definitions : ∀ {name d d'}, c.find? name = some d → c'.find? name = some d' → d.Respelled d'

theorem Hooks.addModes_eq_of_keys {h : Hooks} {ms ms' : List (String × FilterHook)}
    (hms : ms.map (Prod.map modeKey id) = ms'.map (Prod.map modeKey id)) :
    h.addModes ms = h.addModes ms' := by
  have hkeys (ms : List (String × FilterHook)) : h.addModes ms =
      (ms.map (Prod.map modeKey id)).foldl
        (fun h m => { h with modes := h.modes.put m.1 m.2 }) h := by
    rw [List.foldl_map]
    rfl
  rw [hkeys, hkeys, hms]

theorem Definition.respelled_iff {d d' : Definition} : d.Respelled d' ↔ d.keyed = d'.keyed := by
  constructor
  · rintro ⟨hentity, h, ms, ms', hms, hhooks, hhooks'⟩
    rw [keyed, keyed, hentity, hhooks, hhooks', Hooks.addModes_eq_of_keys hms]
  · intro hkeyed
    exact ⟨congrArg toEntity hkeyed, d.hooks, [], [], rfl, rfl, (congrArg hooks hkeyed).symm⟩

/-- **Catalogs that differ in the names of modes only are the same with keys for names.** -/
theorem Catalog.respelled_iff {c c' : Catalog} : c.Respelled c' ↔ c.keyed = c'.keyed := by
  constructor
  · intro h
    refine Dict.ext_find? fun name => ?_
    rw [keyed, keyed, Dict.find?_map, Dict.find?_map]
    cases hd : c.find? name with
    | none => rw [(h.names name).1 hd]
    | some d =>
      cases hd' : c'.find? name with
      | none => simp [(h.names name).2 hd'] at hd
      | some d' => exact congrArg some (Definition.respelled_iff.1 (h.definitions hd hd'))
  · intro h
    have hfind : ∀ name, (c.find? name).map Definition.keyed =
        (c'.find? name).map Definition.keyed := by
      intro name
      rw [← Dict.find?_map, ← Dict.find?_map]
      exact congrArg (Dict.find? · name) h
    refine ⟨fun name => ?_, fun {name d d'} hd hd' => Definition.respelled_iff.2 ?_⟩
    · rw [← Option.map_eq_none_iff (f := Definition.keyed), hfind, Option.map_eq_none_iff]
    · have hname := hfind name
      rw [hd, hd'] at hname
      exact Option.some.inj hname

/-! ## What is the same -/

theorem Entry.key_of_keyed {entry entry' : Entry} (h : entry.keyed = entry'.keyed) :
    entry.key = entry'.key := (Entry.mk.inj h).2.2.1

theorem Entry.mode_of_keyed {entry entry' : Entry} (h : entry.keyed = entry'.keyed) :
    entry.mode.map modeKey = entry'.mode.map modeKey := (Entry.mk.inj h).2.1

namespace Definition

variable {d d' : Definition} (h : d.keyed = d'.keyed)

include h

theorem entity_of_keyed : d.toEntity.keyed = d'.toEntity.keyed := (Definition.mk.inj h).1

theorem hooks_of_keyed : d.hooks = d'.hooks := (Definition.mk.inj h).2

theorem name_of_keyed : d.name = d'.name := (Entity.mk.inj (entity_of_keyed h)).1

theorem table_of_keyed : d.table = d'.table := (Entity.mk.inj (entity_of_keyed h)).2.1

theorem column_of_keyed (key : String) : d.column key = d'.column key := by
  rw [Entity.column, Entity.column, table_of_keyed h]

end Definition

/-! ## Tables -/

section Tables

variable {e : Entity} {d : Declaration} {k : Kind}

@[simp] theorem Declaration.aliasName_keyed : d.keyed.aliasName = d.aliasName := by cases d <;> rfl

@[simp] theorem Declaration.key_keyed : d.keyed.key = d.key := by cases d <;> rfl

@[simp] theorem Declaration.uses_keyed : d.keyed.uses = d.uses := by cases d <;> rfl

@[simp] theorem Declaration.mode_keyed : d.keyed.mode = d.mode.map modeKey := by cases d <;> rfl

/-- Nothing is wrong with a declaration because of its mode. -/
@[simp] theorem Declaration.fault?_keyed (d : Declaration) : d.keyed.fault? = d.fault? := by
  rw [fault?, fault?, aliasName_keyed, key_keyed]

@[simp] theorem Entity.name_keyed : e.keyed.name = e.name := rfl

@[simp] theorem Entity.relation?_keyed (name : String) :
    e.keyed.relation? name = e.relation? name := rfl

theorem Entity.declarations_keyed :
    e.keyed.declarations k = (e.declarations k).map (List.map Declaration.keyed) := by
  cases k <;> rfl

theorem Entity.getD_declarations_keyed :
    (e.keyed.declarations k).getD [] = ((e.declarations k).getD []).map Declaration.keyed := by
  rw [declarations_keyed]
  cases e.declarations k <;> rfl

theorem Entity.declares_keyed : e.keyed.declares k = e.declares k := by
  rw [declares, declares, declarations_keyed, Option.isSome_map]
  exact congrArg (_ || _ && ·) Option.isSome_map

theorem Entity.declared_keyed : e.keyed.declared k = (e.declared k).map Declaration.keyed := by
  have hshared : e.keyed.queryable.getD [] = (e.queryable.getD []).map Declaration.keyed :=
    getD_declarations_keyed (k := .queryable)
  have hallows : (fun d : Declaration => d.uses.allows k) ∘ Declaration.keyed =
      fun d => d.uses.allows k := by
    funext d
    simp
  unfold declared
  rw [List.map_append, getD_declarations_keyed, hshared]
  split
  · rfl
  · rw [List.filter_map, hallows]

theorem Entity.undeclared_keyed : e.keyed.undeclared k = e.undeclared k := by cases k <;> rfl

theorem Entity.entry_keyed : e.keyed.entry d.keyed = (e.entry d).keyed := by
  simp [entry, Entry.keyed]

theorem Entity.write_keyed (es : Dict Entry) (ds : List Declaration) :
    e.keyed.write (es.map Entry.keyed) (ds.map Declaration.keyed) =
      (e.write es ds).map Entry.keyed := by
  induction ds generalizing es with
  | nil => rfl
  | cons d ds ih =>
    rw [List.map_cons, write_cons, write_cons, ← ih, Declaration.aliasName_keyed, entry_keyed,
      Dict.map_put]

theorem Entity.findSome?_fault?_keyed (ds : List Declaration) :
    (ds.map Declaration.keyed).findSome? Declaration.fault? =
      ds.findSome? Declaration.fault? := by
  have hfault : Declaration.fault? ∘ Declaration.keyed = Declaration.fault? := by
    funext d
    rw [Function.comp_apply, Declaration.fault?_keyed]
  rw [List.findSome?_map, hfault]

/-- **A table is made whatever the names of modes are.** -/
theorem Table.of_keyed (e : Entity) (k : Kind) :
    Table.of e.keyed k = (Table.of e k).map Table.keyed := by
  rw [of_eq, of_eq, Entity.declares_keyed, Entity.declared_keyed, Entity.findSome?_fault?_keyed,
    Entity.undeclared_keyed, Entity.name_keyed]
  split
  · cases (e.declared k).findSome? Declaration.fault? with
    | some fault => rfl
    | none =>
      have hwrite := e.write_keyed ∅ (e.declared k)
      exact congrArg (fun es => Except.ok (Table.mk e.name k es)) hwrite
  · cases e.undeclared k <;> rfl

theorem Table.find?_keyed (t : Table) (aliasName : String) :
    t.keyed.find? aliasName = (t.find? aliasName).map Entry.keyed :=
  Dict.find?_map Entry.keyed t.entries aliasName

end Tables

/-! ## Entities that come in -/

theorem Entity.forM_check_keyed (e : Entity) (ds : List Declaration) :
    (ds.map Declaration.keyed).forM e.keyed.check = ds.forM e.check := by
  induction ds with
  | nil => rw [List.map_nil, Outcome.forM_nil, Outcome.forM_nil]
  | cons d ds ih =>
    have hcheck : e.keyed.check d.keyed = e.check d := by
      rw [check, check, Declaration.fault?_keyed, name_keyed]
    rw [List.map_cons, Outcome.forM_cons, Outcome.forM_cons, hcheck, ih]

/-- An entity is accepted whatever the names of modes are. -/
theorem Entity.validate_keyed (e : Entity) : e.keyed.validate = e.validate := by
  unfold validate
  congr 1
  funext k
  rw [getD_declarations_keyed, forM_check_keyed]

namespace Catalog

theorem find?_keyed (c : Catalog) (name : String) :
    c.keyed.find? name = (c.find? name).map Definition.keyed := Dict.find?_map _ c name

theorem get_keyed (c : Catalog) (name : String) :
    c.keyed.get name = (c.get name).map Definition.keyed := by
  rw [get, get, find?_keyed]
  cases c.find? name <;> rfl

theorem register_keyed (c : Catalog) (d : Definition) :
    c.keyed.register d.keyed = (c.register d).map keyed := by
  have hcontains : c.keyed.contains d.name = c.contains d.name := by
    rw [Dict.contains, Dict.contains, find?_keyed, Option.isSome_map]
  have hvalid : d.keyed.validate = d.validate := d.toEntity.validate_keyed
  rw [register, register, hvalid]
  cases d.validate with
  | error err => rfl
  | ok u =>
    show (if c.keyed.contains d.name then _ else .ok (c.keyed.put d.name d.keyed)) =
      (if c.contains d.name then _ else .ok (c.put d.name d) : Except Error Catalog).map keyed
    rw [hcontains, keyed, ← Dict.map_put]
    split <;> rfl

end Catalog
end RequestPlan
