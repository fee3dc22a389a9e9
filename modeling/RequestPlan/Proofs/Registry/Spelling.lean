import RequestPlan.Proofs.Joins.Spelling
import RequestPlan.Proofs.Registry.Relations

/-!
# Filters and the names of modes

* `CompiledFilter.unnamed`: a filter without the name of its mode, which makes the same predicates
  and joins (`apply_unnamed`).
* `unnamed_columnFilter`: the filter of a column is known from the key of its mode but for the name.
* `Catalog.canonical_of_keyed`, `Catalog.filter_of_keyed`: so are canonical keys and the filters of
  request keys, at any depth of relations.
* `CompiledFilter.Alike`: filters that do the same in any catalog; `CompiledFilter.IgnoresNames`: a
  hook does not look at the names of modes, and then the filters do the same each in its own catalog
  (`Alike.apart`).
* `compile_of_respelled`: **no filter depends on how modes are spelled**.
* `differing_of_lodgings`: a hook that looks at the names does.
-/

namespace RequestPlan

/-! ## Modes -/

namespace Mode

/-- The mode without the name that is kept for a mode of its own. -/
def unnamed : Mode → Mode
  | .custom _ => .custom ""
  | mode => mode

variable {mode mode' : Option String}

/-- Names with one key name one mode, or none, and then each is a mode of its own. -/
theorem parse_cases {name name' : String} (h : modeKey name = modeKey name') :
    (∃ mode, parse (some name) = mode ∧ parse (some name') = mode) ∨
      parse (some name) = .custom name ∧ parse (some name') = .custom name' := by
  rw [parse, parse, h]
  cases ofKey? (modeKey name') with
  | none => exact .inr ⟨rfl, rfl⟩
  | some mode => exact .inl ⟨mode, rfl, rfl⟩

/-- **A mode is known from the key of its name**, but for the name. -/
theorem unnamed_parse (h : mode.map modeKey = mode'.map modeKey) :
    (parse mode).unnamed = (parse mode').unnamed := by
  cases mode with
  | none =>
    cases mode' with
    | none => rfl
    | some name' => cases h
  | some name =>
    cases mode' with
    | none => cases h
    | some name' =>
      rcases parse_cases (Option.some.inj h) with ⟨mode, hparse, hparse'⟩ | ⟨hparse, hparse'⟩
      · rw [hparse, hparse']
      · rw [hparse, hparse']
        rfl

theorem unnamed_eq_relation_iff {mode : Mode} : mode.unnamed = .relation ↔ mode = .relation := by
  cases mode <;> simp [unnamed]

/-- Whether a filter goes through a relation is known from the key. -/
theorem parse_relation_iff_of_keys (h : mode.map modeKey = mode'.map modeKey) :
    parse mode = .relation ↔ parse mode' = .relation := by
  rw [← unnamed_eq_relation_iff, unnamed_parse h, unnamed_eq_relation_iff]

theorem predicate_unnamed (column key : String) (settings : Settings) (v : Value) (mode : Mode) :
    mode.unnamed.predicate column key settings v = mode.predicate column key settings v := by
  cases mode <;> rfl

end Mode

/-! ## Filters without names of modes -/

namespace CompiledFilter

/-- The filter without the names of modes that listings show. -/
def unnamed : CompiledFilter → CompiledFilter
  | .column e key mode col => .column e key mode.unnamed col
  | .hook e key _ scope run => .hook e key "" scope run
  | .related e key link => .related e key link
  | .relatedWhere e key link child => .relatedWhere e key link child.unnamed

variable {f f' : CompiledFilter}

theorem entity_unnamed (f : CompiledFilter) : f.unnamed.entity = f.entity := by cases f <;> rfl

theorem key_unnamed (f : CompiledFilter) : f.unnamed.key = f.key := by cases f <;> rfl

theorem unnamed_withKey (key : String) (f : CompiledFilter) :
    (f.withKey key).unnamed = f.unnamed.withKey key := by
  cases f <;> rfl

theorem applyAlone_unnamed (settings : Settings) (v : Value) (f : CompiledFilter) :
    f.unnamed.applyAlone settings v = f.applyAlone settings v := by
  induction f with
  | column e key mode col => exact Mode.predicate_unnamed col key settings v mode
  | hook e key name scope run => rfl
  | related e key link => rfl
  | relatedWhere e key link child ih => rw [unnamed, applyAlone, applyAlone, ih]

/-- **The name of a mode has no part in a predicate or a join.** -/
theorem apply_unnamed (c : Catalog) (root : Definition) (settings : Settings) (v : Value)
    (f : CompiledFilter) : f.unnamed.apply c root settings v = f.apply c root settings v := by
  cases f with
  | column e key mode col =>
    exact congrArg Work.of (applyAlone_unnamed settings v (.column e key mode col))
  | hook e key name scope run => rfl
  | related e key link => rfl
  | relatedWhere e key link child =>
    exact congrArg Work.of (applyAlone_unnamed settings v (.relatedWhere e key link child))

/-- A filter has no hook that looks at the names of modes. -/
def IgnoresNames : CompiledFilter → Prop
  | .hook _ _ _ scope run => ∀ v, (run scope v).IgnoresNames
  | _ => True

/-- Two filters make the same predicates, or none, or fail for the same reason, and ask for the same
joins: without joins, and in any one catalog. -/
structure Alike (f f' : CompiledFilter) : Prop where
  entity : f.entity = f'.entity
  key : f.key = f'.key
  alone : ∀ settings v, f.applyAlone settings v = f'.applyAlone settings v
  joined : ∀ c root settings v js,
    (f.apply c root settings v).run.run js = (f'.apply c root settings v).run.run js

/-- So do two filters of which each is in a catalog of its own. Entities and joins are the same in
both but for the names of modes. -/
def AlikeIn (c c' : Catalog) (f f' : CompiledFilter) : Prop :=
  ∀ root root' settings v js js', root.Respelled root' → js.keyed = js'.keyed →
    let x := (f.apply c root settings v).run.run js
    let x' := (f'.apply c' root' settings v).run.run js'
    x.1 = x'.1 ∧ x.2.clauses = x'.2.clauses ∧ x.2.keyed = x'.2.keyed

/-- One filter in two catalogs that differ in the names of modes only. -/
theorem run_apply_of_keyed {c c' : Catalog} {root root' : Definition} (hf : f.IgnoresNames)
    (hc : c.keyed = c'.keyed) (hroot : root.keyed = root'.keyed) (settings : Settings) (v : Value)
    {js js' : Joins} (hjs : js.keyed = js'.keyed) :
    ((f.apply c root settings v).run.run js).1 = ((f.apply c' root' settings v).run.run js').1 ∧
      ((f.apply c root settings v).run.run js).2.keyed =
        ((f.apply c' root' settings v).run.run js').2.keyed := by
  have halone (x : Except Error (Option Predicate)) :
      ((Work.of x).run.run js).1 = ((Work.of x).run.run js').1 ∧
        ((Work.of x).run.run js).2.keyed = ((Work.of x).run.run js').2.keyed := by
    rw [Work.run_of, Work.run_of]
    exact ⟨rfl, hjs⟩
  cases f with
  | hook e key name scope run => exact Joining.run_of_keyed (hf v) hc hroot hjs
  | column => exact halone _
  | related => exact halone _
  | relatedWhere => exact halone _

theorem alike_of_unnamed (h : f.unnamed = f'.unnamed) : f.Alike f' := by
  refine ⟨?_, ?_, fun settings v => ?_, fun c root settings v js => ?_⟩
  · rw [← entity_unnamed, h, entity_unnamed]
  · rw [← key_unnamed, h, key_unnamed]
  · rw [← applyAlone_unnamed, h, applyAlone_unnamed]
  · rw [← apply_unnamed, h, apply_unnamed]

/-- **Filters that do the same in one catalog do so each in its own**, when their hooks do not look
at the names of modes. -/
theorem Alike.apart {c c' : Catalog} (h : f.Alike f') (hf : f.IgnoresNames)
    (hc : c.keyed = c'.keyed) : AlikeIn c c' f f' := by
  intro root root' settings v js js' hroot hjs
  obtain ⟨hresult, hbehind⟩ :=
    run_apply_of_keyed hf hc (Definition.respelled_iff.1 hroot) settings v hjs
  rw [h.joined c' root' settings v js'] at hresult hbehind
  have hclauses := congrArg Joins.clauses hbehind
  exact ⟨hresult, hclauses, hbehind⟩

/-- A filter on related rows is the same up to names when the filter of the related entity is. -/
theorem unnamed_relatedWhere (entity aliasName : String) (link : Link)
    {x y : Except Error (Option CompiledFilter)}
    (h : x.map (Option.map unnamed) = y.map (Option.map unnamed)) :
    let below : Option CompiledFilter → Option CompiledFilter := Option.map fun child =>
      .relatedWhere entity (aliasName ++ "$" ++ child.key) link child
    (x.map below).map (Option.map unnamed) = (y.map below).map (Option.map unnamed) := by
  intro below
  rcases Outcome.map?_eq_map? h with ⟨err, rfl, rfl⟩ | ⟨rfl, rfl⟩ | ⟨f, f', rfl, rfl, heq⟩
  · rfl
  · rfl
  · have hkey : f.key = f'.key := by rw [← key_unnamed, heq, key_unnamed]
    show Except.ok (some (relatedWhere _ (aliasName ++ "$" ++ f.key) link f.unnamed)) =
      .ok (some (relatedWhere _ (aliasName ++ "$" ++ f'.key) link f'.unnamed))
    rw [hkey, heq]

end CompiledFilter

/-- The filter of a column is known from the key of its mode, but for the name. -/
theorem Registry.unnamed_columnFilter {d d' : Definition} {entry entry' : Entry}
    (hd : d.keyed = d'.keyed) (hentry : entry.keyed = entry'.keyed) (key : FilterKey)
    (aliasName : String) : (columnFilter d key aliasName entry).unnamed =
      (columnFilter d' key aliasName entry').unnamed := by
  have hmode := Entry.mode_of_keyed hentry
  unfold columnFilter
  rw [Definition.name_of_keyed hd, Definition.table_of_keyed hd, Definition.column_of_keyed hd,
    Definition.hooks_of_keyed hd, Entry.key_of_keyed hentry]
  cases hname : entry.mode with
  | none =>
    cases hname' : entry'.mode with
    | none => rfl
    | some name' => simp [hname, hname'] at hmode
  | some name =>
    cases hname' : entry'.mode with
    | none => simp [hname, hname'] at hmode
    | some name' =>
      have hkey : modeKey name = modeKey name' := by simpa [hname, hname'] using hmode
      have hhook : d'.hooks.mode? name = d'.hooks.mode? name' := by
        rw [Hooks.mode?, Hooks.mode?, hkey]
      dsimp only [Option.bind_some]
      rw [hhook]
      rcases Mode.parse_cases hkey with ⟨mode, hparse, hparse'⟩ | ⟨hparse, hparse'⟩
      · -- the names are names of one mode, for which there is a hook or not
        rw [hparse, hparse']
        cases d'.hooks.mode? name' with
        | none => rfl
        | some hook => cases mode <;> rfl
      · rw [hparse, hparse']
        cases d'.hooks.mode? name' with
        | none => cases d'.hooks.filters.find? aliasName <;> rfl
        | some hook => rfl

/-! ## Catalogs -/

namespace Catalog

open CompiledFilter (unnamed)

/-- Entities are told by their keys together with what an alias of them stands for. -/
def keyedEntry : Definition × Entry → Definition × Entry := Prod.map Definition.keyed Entry.keyed

theorem entry?_keyed (c : Catalog) (entity aliasName : String) :
    c.keyed.entry? entity aliasName =
      (c.entry? entity aliasName).map (Option.map keyedEntry) := by
  unfold entry?
  rw [get_keyed]
  cases c.get entity with
  | error err => rfl
  | ok d =>
    show (Table.of d.toEntity.keyed .filterable).map _ =
      ((Table.of d.toEntity .filterable).map _).map _
    rw [Table.of_keyed]
    cases Table.of d.toEntity .filterable with
    | error err => rfl
    | ok t =>
      show Except.ok ((t.keyed.find? aliasName).map _) = .ok (((t.find? aliasName).map _).map _)
      rw [Table.find?_keyed]
      cases t.find? aliasName <;> rfl

theorem filterLink_keyed (c : Catalog) (d : Definition) (name : String) :
    c.keyed.filterLink d.keyed name = (c.filterLink d name).map (Prod.map id Definition.keyed) := by
  unfold filterLink
  have hrelation : d.keyed.relation? name = d.relation? name := rfl
  rw [hrelation]
  cases d.relation? name with
  | none => rfl
  | some r =>
    dsimp only
    split
    · rfl
    · rw [get_keyed]
      cases c.get r.related with
      | error err => rfl
      | ok related =>
        have hlink : r.link? d.keyed.toEntity related.keyed.toEntity =
            r.link? d.toEntity related.toEntity := rfl
        simp only [Except.map, Except.bind, hlink]
        cases r.link? d.toEntity related.toEntity <;> rfl

variable {c c' : Catalog}

/-- An alias stands for the same in both catalogs, but for the names of modes. -/
theorem entry?_of_keyed (h : c.keyed = c'.keyed) (entity aliasName : String) :
    (c.entry? entity aliasName).map (Option.map keyedEntry) =
      (c'.entry? entity aliasName).map (Option.map keyedEntry) := by
  rw [← entry?_keyed, h, entry?_keyed]

theorem entry?_cases (h : c.keyed = c'.keyed) (entity aliasName : String) :
    (∃ err, c.entry? entity aliasName = .error err ∧ c'.entry? entity aliasName = .error err) ∨
    (c.entry? entity aliasName = .ok none ∧ c'.entry? entity aliasName = .ok none) ∨
    ∃ d d' entry entry', c.entry? entity aliasName = .ok (some (d, entry)) ∧
      c'.entry? entity aliasName = .ok (some (d', entry')) ∧ d.keyed = d'.keyed ∧
      entry.keyed = entry'.keyed := by
  rcases Outcome.map?_eq_map? (entry?_of_keyed h entity aliasName) with
    herr | hnone | ⟨⟨d, entry⟩, ⟨d', entry'⟩, hx, hy, heq⟩
  · exact .inl herr
  · exact .inr (.inl hnone)
  · obtain ⟨hd, hentry⟩ := Prod.mk.inj heq
    exact .inr (.inr ⟨d, d', entry, entry', hx, hy, hd, hentry⟩)

/-- A relation leads to the same entity in both catalogs, along the same link. -/
theorem filterLink_cases (h : c.keyed = c'.keyed) {d d' : Definition} (hd : d.keyed = d'.keyed)
    (name : String) :
    (∃ err, c.filterLink d name = .error err ∧ c'.filterLink d' name = .error err) ∨
    ∃ link related related', c.filterLink d name = .ok (link, related) ∧
      c'.filterLink d' name = .ok (link, related') ∧ related.keyed = related'.keyed := by
  have hlink : (c.filterLink d name).map (Prod.map id Definition.keyed) =
      (c'.filterLink d' name).map (Prod.map id Definition.keyed) := by
    rw [← filterLink_keyed, h, hd, filterLink_keyed]
  rcases Outcome.map_eq_map hlink with herr | ⟨⟨link, related⟩, ⟨link', related'⟩, hx, hy, heq⟩
  · exact .inl herr
  · obtain ⟨rfl, hrelated⟩ := Prod.mk.inj heq
    exact .inr ⟨link, related, related', hx, hy, hrelated⟩

/-- **A key has one canonical form**, however modes are spelled. -/
theorem canonical_of_keyed (h : c.keyed = c'.keyed) (entity : String) (key : FilterKey) :
    c.canonical entity key = c'.canonical entity key := by
  induction key generalizing entity with
  | nil => rfl
  | cons aliasName rest ih =>
    rw [canonical, canonical]
    rcases entry?_cases h entity aliasName with
      ⟨err, hx, hy⟩ | ⟨hx, hy⟩ | ⟨d, d', entry, entry', hx, hy, hd, hentry⟩
    · rw [hx, hy]
    · rw [hx, hy]
    · rw [hx, hy]
      dsimp only
      rw [Entry.key_of_keyed hentry]
      simp only [Mode.parse_relation_iff_of_keys (Entry.mode_of_keyed hentry)]
      split
      · rcases filterLink_cases h hd entry'.key with
          ⟨err, hx, hy⟩ | ⟨link, related, related', hx, hy, hrelated⟩
        · rw [hx, hy]
        · rw [hx, hy]
          dsimp only
          rw [Definition.name_of_keyed hrelated, ih]
      · rfl

/-- **A key has one filter**, however modes are spelled, but for the names in it. -/
theorem filter_of_keyed (h : c.keyed = c'.keyed) (entity : String) (key : FilterKey) :
    (c.filter entity key).map (Option.map unnamed) =
      (c'.filter entity key).map (Option.map unnamed) := by
  induction key generalizing entity with
  | nil => rfl
  | cons aliasName rest ih =>
    rw [filter, filter]
    rcases entry?_cases h entity aliasName with
      ⟨err, hx, hy⟩ | ⟨hx, hy⟩ | ⟨d, d', entry, entry', hx, hy, hd, hentry⟩
    · rw [hx, hy]
    · rw [hx, hy]
    · rw [hx, hy]
      dsimp only
      rw [Entry.key_of_keyed hentry]
      simp only [Mode.parse_relation_iff_of_keys (Entry.mode_of_keyed hentry)]
      split
      · rcases filterLink_cases h hd entry'.key with
          ⟨err, hx, hy⟩ | ⟨link, related, related', hx, hy, hrelated⟩
        · rw [hx, hy]
        · rw [hx, hy]
          dsimp only
          rw [Definition.name_of_keyed hrelated, Definition.name_of_keyed hd]
          split
          · rfl
          · exact CompiledFilter.unnamed_relatedWhere d'.name aliasName link (ih related'.name)
      · exact congrArg (Except.ok ∘ some) (Registry.unnamed_columnFilter hd hentry _ _)

theorem compile_of_keyed (h : c.keyed = c'.keyed) (entity : String) (key : FilterKey) :
    (c.compile entity key).map (Option.map unnamed) =
      (c'.compile entity key).map (Option.map unnamed) := by
  rw [compile, compile]
  rcases Outcome.map?_eq_map? (filter_of_keyed h entity key) with
    ⟨err, hx, hy⟩ | ⟨hx, hy⟩ | ⟨f, f', hx, hy, heq⟩
  · rw [hx, hy]
  · rw [hx, hy]
  · rw [hx, hy]
    show Except.ok (some (f.withKey _).unnamed) = .ok (some (f'.withKey _).unnamed)
    rw [CompiledFilter.unnamed_withKey, heq, CompiledFilter.unnamed_withKey]

end Catalog

/-! ## Registries -/

namespace Registry

variable {ops ops' : List Operation}

/-- One operation, whose entity has other names for modes if it brings one in. -/
inductive Operation.Respelled : Operation → Operation → Prop
  | register {d d' : Definition} (h : d.Respelled d') : Respelled (.register d) (.register d')
  | same (op : Operation) : Respelled op op

theorem keyed_registered (c : Catalog) (d : Definition) :
    (registered c d).keyed = registered c.keyed d.keyed := by
  rw [registered, registered, Catalog.register_keyed]
  cases c.register d <;> rfl

theorem Operation.Respelled.keyed_entities {op op' : Operation} (h : Respelled op op')
    {c c' : Catalog} (hc : c.keyed = c'.keyed) :
    (op.entities c).keyed = (op'.entities c').keyed := by
  cases h with
  | @register d d' hd =>
    show (registered c d).keyed = (registered c' d').keyed
    rw [keyed_registered, keyed_registered, hc, Definition.respelled_iff.1 hd]
  | same =>
    cases op with
    | register d =>
      show (registered c d).keyed = (registered c' d).keyed
      rw [keyed_registered, keyed_registered, hc]
    | _ => exact hc

/-- **Entities come in whatever the names of modes are**, so that other names for them are all that
two registries differ in. -/
theorem respelled_entities (h : List.Forall₂ Operation.Respelled ops ops') :
    (entities ops).Respelled (entities ops') := by
  have hrun : ∀ c c' : Catalog, c.keyed = c'.keyed →
      (ops.foldl Operation.entities c).keyed = (ops'.foldl Operation.entities c').keyed := by
    induction h with
    | nil => exact fun c c' hc => hc
    | cons hop _ ih => exact fun c c' hc => ih _ _ (hop.keyed_entities hc)
  exact Catalog.respelled_iff.2 (hrun ∅ ∅ rfl)

/-- Two results are the same error, both no filter, or two filters of which something holds. -/
inductive FiltersAlike (P : CompiledFilter → CompiledFilter → Prop) :
    Except Error (Option CompiledFilter) → Except Error (Option CompiledFilter) → Prop
  | refused (err : Error) : FiltersAlike P (.error err) (.error err)
  | absent : FiltersAlike P (.ok none) (.ok none)
  | found {f f' : CompiledFilter} (h : P f f') : FiltersAlike P (.ok (some f)) (.ok (some f'))

section FiltersAlike

variable {P : CompiledFilter → CompiledFilter → Prop} {x y : Except Error (Option CompiledFilter)}

theorem filtersAlike_of_unnamed (hP : ∀ f f', f.Alike f' → P f f')
    (h : x.map (Option.map CompiledFilter.unnamed) = y.map (Option.map CompiledFilter.unnamed)) :
    FiltersAlike P x y := by
  rcases Outcome.map?_eq_map? h with ⟨err, rfl, rfl⟩ | ⟨rfl, rfl⟩ | ⟨f, f', rfl, rfl, heq⟩
  · exact .refused err
  · exact .absent
  · exact .found (hP f f' (CompiledFilter.alike_of_unnamed heq))

theorem FiltersAlike.exists_of_found {f : CompiledFilter} (h : FiltersAlike P x y)
    (hx : x = .ok (some f)) : ∃ f', y = .ok (some f') ∧ P f f' := by
  subst hx
  cases h with
  | found h => exact ⟨_, rfl, h⟩

end FiltersAlike

/-- **No filter depends on how modes are spelled.** Where two registries differ in the names of
modes only, those of declarations and those that hooks were given for, and names in one place have
one key, a request key has one canonical form. Its filter, whether it is kept or made anew, is there
in one registry exactly when it is in the other, fails for the same reason, and makes the same
predicates and joins: in either registry, and each filter in its own as long as its hook, if it has
one, does not look at the names of modes in the entities of joined tables. -/
theorem compile_of_respelled (h : (entities ops).Respelled (entities ops')) (entity text : String) :
    let r := after ops
    let r' := after ops'
    let key := FilterKey.parse text
    let alike (f f' : CompiledFilter) : Prop :=
      f.Alike f' ∧ (f.IgnoresNames → f.AlikeIn r.catalog r'.catalog f')
    result r (canonical entity key) = result r' (canonical entity key) ∧
      FiltersAlike alike (result r (compile entity key)) (result r' (compile entity key)) ∧
      FiltersAlike alike (result r (filter entity key)) (result r' (filter entity key)) := by
  intro r r' key alike
  obtain ⟨hs, hc⟩ : r.Sound ∧ r.catalog = entities ops := sound_after ops
  obtain ⟨hs', hc'⟩ : r'.Sound ∧ r'.catalog = entities ops' := sound_after ops'
  have hkey : key.Divided := FilterKey.divided_parse text
  have hkeyed : r.catalog.keyed = r'.catalog.keyed := by
    rw [hc, hc']
    exact Catalog.respelled_iff.1 h
  have halike : ∀ f f', f.Alike f' → alike f f' := fun f f' hff' =>
    ⟨hff', fun hf => hff'.apart hf hkeyed⟩
  rw [(answers_canonical hs.named rfl r rfl hs).1, (answers_canonical hs'.named rfl r' rfl hs').1,
    (answers_compile hs.named hkey r rfl hs).1, (answers_compile hs'.named hkey r' rfl hs').1,
    (answers_filter hs.named hkey r rfl hs).1, (answers_filter hs'.named hkey r' rfl hs').1]
  exact ⟨Catalog.canonical_of_keyed hkeyed entity key,
    filtersAlike_of_unnamed halike (Catalog.compile_of_keyed hkeyed entity key),
    filtersAlike_of_unnamed halike (Catalog.filter_of_keyed hkeyed entity key)⟩

end Registry

/-! ## Places -/

/-- Places, with the names of the modes that their aliases have. -/
def Entity.place (spot host : String) : Entity where
  name := "Place"
  table := "places"
  key := "id"
  relations := Dict.ofList [("owner", .plain .owning "owner" "Member" "owner_id" "")]
  queryable := none
  filterable := some [.typed "spot" (some spot) "hash", .typed "host" (some host) "owner"]
  sortable := none
  selectable := none

/-- A hook that joins the owner and compares the name. -/
def FilterHook.ofOwner : FilterHook := fun _ v => .ask "owner" fun
  | .error err => .done (.error err)
  | .ok none => .done (.ok none)
  | .ok (some owner) => .done (.ok (some (.compare (owner.aliasName ++ ".name") .eq v)))

theorem FilterHook.ignoresNames_ofOwner (scope : FilterScope) (v : Value) :
    (ofOwner scope v).IgnoresNames := by
  refine ⟨fun x y h => ?_, fun x => ?_⟩
  · rcases Outcome.map?_eq_map? h with ⟨err, rfl, rfl⟩ | ⟨rfl, rfl⟩ | ⟨j, j', rfl, rfl, heq⟩
    · rfl
    · rfl
    · have hname : j.aliasName = j'.aliasName := (JoinedTable.mk.inj heq).1
      dsimp only
      rw [hname]
  · match x with
    | .error _ => trivial
    | .ok none => trivial
    | .ok (some _) => trivial

/-- Places with a hook for a mode. -/
def Definition.place (spot host mode : String) : Definition :=
  ⟨.place spot host, Hooks.none.addModes [(mode, .ofOwner)]⟩

namespace Registry

/-- A registry that knows places and the members who own them. -/
def ofPlaces (spot host mode : String) : List Operation :=
  [.register (.place spot host mode), .register Entity.member.define]

/-- Modes for a hook and for a relation that are spelled in two ways. -/
theorem compile_of_places :
    let ops := ofPlaces "geo_hash" "REL" "Geo-Hash"
    let ops' := ofPlaces "geoHash" "re-l" "geohash"
    let owned : Predicate := .compare "places_owner_join.name" .eq (.string "ann")
    (entities ops).Respelled (entities ops') ∧
    (∃ f f', result (after ops) (compile "Place" (FilterKey.parse "spot")) = .ok (some f) ∧
      result (after ops') (compile "Place" (FilterKey.parse "spot")) = .ok (some f') ∧
      ((f'.apply (after ops').catalog (.place "geoHash" "re-l" "geohash") .usual
        (.string "ann")).run.run .none).1 = .ok (some owned)) ∧
    ∃ f f', result (after ops) (compile "Place" (FilterKey.parse "host$name")) = .ok (some f) ∧
      result (after ops') (compile "Place" (FilterKey.parse "host$name")) = .ok (some f') ∧
      f.applyAlone .usual (.string "ann") = f'.applyAlone .usual (.string "ann") := by
  intro ops ops' owned
  have hplace : (Definition.place "geo_hash" "REL" "Geo-Hash").Respelled
      (.place "geoHash" "re-l" "geohash") := ⟨by rfl, Hooks.none, _, _, by rfl, rfl, rfl⟩
  have hops : List.Forall₂ Operation.Respelled ops ops' :=
    .cons (.register hplace) (.cons (.same _) .nil)
  have h : (entities ops).Respelled (entities ops') := respelled_entities hops
  have hspot := (compile_of_respelled h "Place" "spot").2.1
  have hhost := (compile_of_respelled h "Place" "host$name").2.1
  refine ⟨h, ?_, ?_⟩
  · let f : CompiledFilter := .hook "Place" "spot" "mode geo_hash"
      ⟨"Place", "places", "spot", "places.hash"⟩ .ofOwner
    have hf : result (after ops) (compile "Place" (FilterKey.parse "spot")) = .ok (some f) := by rfl
    have hrun : ((f.apply (after ops).catalog (.place "geo_hash" "REL" "Geo-Hash") .usual
        (.string "ann")).run.run .none).1 = .ok (some owned) := by
      rw [(sound_after ops).2]
      rfl
    obtain ⟨f', hf', -, hapart⟩ := hspot.exists_of_found hf
    have hboth := hapart (FilterHook.ignoresNames_ofOwner _) _ _ .usual (.string "ann") .none
      .none hplace rfl
    exact ⟨f, f', hf, hf', hboth.1.symm.trans hrun⟩
  · have hf : result (after ops) (compile "Place" (FilterKey.parse "host$name")) =
        .ok (some (.relatedWhere "Place" "host$name"
          ⟨"owner", "members", "places.owner_id", "members.id", none⟩
          (.column "Member" "name" .default "members.name"))) := by
      have hkey : FilterKey.parse "host$name" = ["host", "name"] := by decide
      rw [result_compile (sound_after ops).1 hkey, (sound_after ops).2]
      rfl
    obtain ⟨f', hf', halike, -⟩ := hhost.exists_of_found hf
    exact ⟨_, f', hf, hf', halike.alone _ _⟩

end Registry

/-! ## Lodgings -/

/-- A hook that joins the owner and compares a column that is called like the modes of the owner's
filters. -/
def FilterHook.ofOwnerModes : FilterHook := fun _ v => .ask "owner" fun
  | .error err => .done (.error err)
  | .ok none => .done (.ok none)
  | .ok (some owner) =>
    let modes := (owner.entity.filterable.getD []).filterMap Declaration.mode
    .done (.ok (some (.compare (owner.aliasName ++ "." ++ Text.joinWith "_" modes) .eq v)))

/-- Places with a hook that looks at the modes of their owners. -/
def Definition.lodging : Definition :=
  ⟨.place "geo" "rel", Hooks.none.addModes [("geo", .ofOwnerModes)]⟩

/-- Members, with the declarations of their filters. -/
def Entity.host (ds : List Declaration) : Entity := { Entity.member with filterable := some ds }

namespace Registry

/-- A registry that knows lodgings and the members who own them. -/
def ofLodgings (ds : List Declaration) : List Operation :=
  [.register .lodging, .register (Entity.host ds).define]

/-- A hook shows how modes are spelled. And names with one key are kept with two where only one of
them has a blank at its end, which is not kept. -/
theorem differing_of_lodgings :
    (let ops := ofLodgings [.typed "name" (some "string") "name"]
      let ops' := ofLodgings [.typed "name" (some "STRING") "name"]
      (entities ops).Respelled (entities ops') ∧
      ∃ f f', result (after ops) (compile "Place" (FilterKey.parse "spot")) = .ok (some f) ∧
        result (after ops') (compile "Place" (FilterKey.parse "spot")) = .ok (some f') ∧
        ((f.apply (after ops).catalog .lodging .usual (.string "ann")).run.run .none).1 =
          .ok (some (.compare "places_owner_join.string" .eq (.string "ann"))) ∧
        ((f'.apply (after ops').catalog .lodging .usual (.string "ann")).run.run .none).1 =
          .ok (some (.compare "places_owner_join.STRING" .eq (.string "ann")))) ∧
    modeKey "_ in" = modeKey " in" ∧
    ∃ f f',
      result (after (ofLodgings [.parse "name" "_ in:name"]))
        (compile "Member" (FilterKey.parse "name")) = .ok (some f) ∧
      result (after (ofLodgings [.parse "name" " in:name"]))
        (compile "Member" (FilterKey.parse "name")) = .ok (some f') ∧
      f.applyAlone .usual (.string "ann,bob") =
        .ok (some (.compare "members.name" .eq (.string "ann,bob"))) ∧
      f'.applyAlone .usual (.string "ann,bob") =
        .ok (some (.among "members.name" [.string "ann", .string "bob"])) := by
  refine ⟨?_, by decide, ?_⟩
  · intro ops ops'
    have hhost : (Entity.host [.typed "name" (some "string") "name"]).define.Respelled
        (Entity.host [.typed "name" (some "STRING") "name"]).define :=
      ⟨by rfl, Hooks.none, [], [], rfl, rfl, rfl⟩
    have hops : List.Forall₂ Operation.Respelled ops ops' :=
      .cons (.same _) (.cons (.register hhost) .nil)
    refine ⟨respelled_entities hops, _, _, by rfl, by rfl, ?_, ?_⟩
    · rw [(sound_after ops).2]
      rfl
    · rw [(sound_after ops').2]
      rfl
  · exact ⟨.column "Member" "name" (.custom "_ in") "members.name",
      .column "Member" "name" .among "members.name", by rfl, by rfl, by rfl, by rfl⟩

end Registry
end RequestPlan
