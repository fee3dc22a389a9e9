import RequestPlan.Proofs.Registry.Direct
import RequestPlan.Proofs.Work

/-!
# The caches of a registry

* `Registry.Sound`: every table and every filter that is kept is what the catalog says.
* `Answers`: work that has one result for a catalog, whatever is kept, and keeps a registry
  sound.
* `answers_filter`, `answers_compile`: the filter of a key, from the cache or made anew.
* `caches_transparent`: **no answer depends on what is kept**, after any sequence of operations.
-/

namespace RequestPlan

namespace Registry

/-! ## Sound registries -/

/-- What is kept is what the catalog says. -/
structure Sound (r : Registry) : Prop where
  named : r.catalog.Named
  tables : ∀ e ∈ r.tables, r.catalog.table e.1.1 e.1.2 = .ok e.2
  filters : ∀ e ∈ r.filters, r.catalog.filter e.1.1 (FilterKey.parse e.1.2) = .ok (some e.2)

/-- The result of work on a registry. -/
def result {α : Type} (r : Registry) (m : RegistryM α) : Except Error α := (m.run.run r).1

/-- The registry behind some work, whether it succeeds or not. -/
def behind {α : Type} (r : Registry) (m : RegistryM α) : Registry := (m.run.run r).2

/-- Work whose result is determined by the catalog, which it leaves alone; it keeps a registry
sound. -/
def Answers {α : Type} (c : Catalog) (m : RegistryM α) (x : Except Error α) : Prop :=
  ∀ r : Registry, r.catalog = c → r.Sound →
    result r m = x ∧ (behind r m).catalog = c ∧ (behind r m).Sound

section Answers

variable {α β : Type} {c : Catalog} {m : RegistryM α} {f : α → RegistryM β}

theorem answers_pure (a : α) : Answers c (pure a) (.ok a) :=
  fun _ hr hs => ⟨rfl, hr, hs⟩

theorem answers_of (x : Except Error α) : Answers c (Work.of x) x := by
  intro r hr hs
  unfold result behind
  rw [Work.run_of]
  exact ⟨rfl, hr, hs⟩

/-- A change that keeps a registry sound. -/
theorem answers_modify {g : Registry → Registry}
    (h : ∀ r : Registry, r.catalog = c → r.Sound → (g r).catalog = c ∧ (g r).Sound) :
    Answers c (modify g) (.ok ()) :=
  fun r hr hs => ⟨rfl, h r hr hs⟩

/-- Work that looks at the registry. -/
theorem answers_get {g : Registry → RegistryM β} {y : Except Error β}
    (h : ∀ r : Registry, r.catalog = c → r.Sound → Answers c (g r) y) :
    Answers c (get >>= g) y :=
  fun r hr hs => h r hr hs r hr hs

/-- Work behind work that succeeds. -/
theorem Answers.bind {a : α} {y : Except Error β} (hm : Answers c m (.ok a))
    (hf : Answers c (f a) y) : Answers c (m >>= f) y := by
  intro r hr hs
  obtain ⟨hresult, hcatalog, hsound⟩ := hm r hr hs
  have hrun := Work.run_bind_of_ok (f := f) (Prod.ext hresult rfl)
  unfold result behind
  rw [hrun]
  exact hf _ hcatalog hsound

/-- Work that fails is the end. -/
theorem Answers.fail {err : Error} (hm : Answers c m (.error err)) :
    Answers c (m >>= f) (.error err) := by
  intro r hr hs
  obtain ⟨hresult, hcatalog, hsound⟩ := hm r hr hs
  have hrun := Work.run_bind_of_error (f := f) (Prod.ext hresult rfl)
  unfold result behind
  rw [hrun]
  exact ⟨rfl, hcatalog, hsound⟩

/-- Work behind work, whether it succeeds or not. -/
theorem Answers.andThen {x : Except Error α} {g : α → Except Error β} (hm : Answers c m x)
    (hf : ∀ a, x = .ok a → Answers c (f a) (g a)) : Answers c (m >>= f) (x.bind g) := by
  cases x with
  | error err => exact hm.fail
  | ok a => exact hm.bind (hf a rfl)

theorem answers_count (g : Counters → Counters) : Answers c (count g) (.ok ()) :=
  answers_modify fun _ hr hs => ⟨hr, hs.named, hs.tables, hs.filters⟩

end Answers

/-! ## Tables and relations -/

section Steps

variable {c : Catalog} {entity aliasName : String} {key k : FilterKey}

theorem answers_definition {x : Except Error Definition} (h : c.get entity = x) :
    Answers c (definition entity) x := by
  refine answers_get fun r hr _ => ?_
  rw [hr, h]
  exact answers_of x

/-- A table of the catalog may be kept. -/
theorem answers_keepTable {kind : Kind} {t : Table} (h : c.table entity kind = .ok t) :
    Answers c (modify fun r => { r with tables := r.tables ++ [((entity, kind), t)] }) (.ok ()) := by
  refine answers_modify fun r hr hs => ⟨hr, hs.named, ?_, hs.filters⟩
  intro e he
  rcases List.mem_append.1 he with he | he
  · exact hs.tables e he
  · cases List.mem_singleton.1 he
    show r.catalog.table entity kind = .ok t
    rw [hr, h]

/-- A filter of the catalog may be kept, under a text that its key is read back from. -/
theorem answers_keepFilter {f : CompiledFilter} (hk : k ≠ []) (hdivided : k.Divided)
    (h : c.filter entity k = .ok (some f)) :
    Answers c (modify fun r =>
      { r with filters := r.filters ++ [((entity, FilterKey.text k), f)] }) (.ok ()) := by
  refine answers_modify fun r hr hs => ⟨hr, hs.named, hs.tables, ?_⟩
  intro e he
  rcases List.mem_append.1 he with he | he
  · exact hs.filters e he
  · cases List.mem_singleton.1 he
    show r.catalog.filter entity (FilterKey.parse (FilterKey.text k)) = .ok (some f)
    rw [FilterKey.parse_text hk hdivided, hr, h]

/-- **A table is the one that the catalog says**, whether it is kept or not. -/
theorem answers_table {kind : Kind} {x : Except Error Table} (h : c.table entity kind = x) :
    Answers c (table entity kind) x := by
  subst h
  unfold table
  refine answers_get fun r hr hs => ?_
  subst hr
  cases hlookup : r.tables.lookup (entity, kind) with
  | some t =>
    -- it is kept, so the catalog has it
    obtain ⟨l₁, l₂, htables, -⟩ := List.lookup_eq_some_iff.1 hlookup
    have ht : r.catalog.table entity kind = .ok t :=
      hs.tables ((entity, kind), t) (by simp [htables])
    rw [ht]
    exact (answers_count _).bind (answers_pure t)
  | none =>
    -- it is made from the entity, and kept from now on
    refine (answers_count _).bind ?_
    unfold Catalog.table
    cases hget : r.catalog.get entity with
    | error err => exact (answers_definition hget).fail
    | ok d =>
      refine (answers_definition hget).bind ?_
      show Answers r.catalog _ (Table.of d.toEntity kind)
      cases ht : Table.of d.toEntity kind with
      | error err => exact (answers_of (.error err)).fail
      | ok t =>
        have htable : r.catalog.table entity kind = .ok t := Catalog.table_eq_ok_iff.2 ⟨d, hget, ht⟩
        exact (answers_of (.ok t)).bind ((answers_keepTable htable).bind (answers_pure t))

theorem answers_filterLink {d : Definition} {name : String} {x : Except Error (Link × Definition)}
    (h : c.filterLink d name = x) : Answers c (filterLink d name) x := by
  subst h
  unfold filterLink Catalog.filterLink
  cases d.relation? name with
  | none => exact answers_of (.error _)
  | some r =>
    dsimp only
    split
    · exact answers_of (.error _)
    · cases hget : c.get r.related with
      | error err => exact (answers_definition hget).fail
      | ok related =>
        refine (answers_definition hget).bind ?_
        simp only [Except.bind]
        cases r.link? d.toEntity related.toEntity with
        | none => exact answers_of (.error _)
        | some link => exact answers_pure (link, related)

/-! ## Filters -/

/-- The canonical form follows a relation exactly when a filter can. -/
theorem answers_canonical (hc : c.Named) {x : Except Error (Option FilterKey)}
    (h : c.canonical entity key = x) : Answers c (canonical entity key) x := by
  induction key generalizing entity x with
  | nil =>
    subst h
    exact answers_pure none
  | cons aliasName rest ih =>
    subst h
    rw [canonical, Catalog.canonical]
    cases ht : c.table entity .filterable with
    | error err =>
      rw [Catalog.entry?_of_table_error ht]
      exact (answers_table ht).fail
    | ok t =>
      obtain ⟨d, hget, hentry⟩ := @Catalog.entry?_of_table c entity aliasName t ht
      rw [hentry]
      refine (answers_table ht).bind ?_
      cases t.find? aliasName with
      | none => exact answers_pure none
      | some entry =>
        dsimp only [Option.map_some]
        by_cases hrelation : Mode.parse entry.mode = .relation ∧ FilterKey.isBlank rest = false
        · -- the relation is followed, unless there is no link for it
          rw [if_neg (by simp [hrelation]), if_pos hrelation]
          refine (answers_definition hget).bind ?_
          cases hr : d.relation? entry.key with
          | none =>
            unfold Catalog.filterLink
            rw [hr]
            exact answers_pure _
          | some r =>
            refine answers_get fun reg hreg _ => ?_
            rw [hreg]
            by_cases hstop : r.kind = .manyToMany ∨ c.contains r.related = false
            · obtain ⟨err, hlink⟩ := Catalog.filterLink_of_stop hr hstop
              rw [if_pos hstop, hlink]
              exact answers_pure _
            · obtain ⟨link, related, hlink, hname⟩ := Catalog.filterLink_of_not_stop hc hr hstop
              rw [if_neg hstop, hlink, ← hname]
              dsimp only
              cases hk : c.canonical related.name rest with
              | error err => exact (ih hk).fail
              | ok k => exact (ih hk).bind (answers_pure _)
        · have hstop : Mode.parse entry.mode ≠ .relation ∨ FilterKey.isBlank rest = true := by
            by_cases hmode : Mode.parse entry.mode = .relation
            · exact .inr (by simpa [hmode] using hrelation)
            · exact .inl hmode
          rw [if_pos hstop, if_neg hrelation]
          exact answers_pure _

/-- A filter that is made anew, as long as those on related rows are what the catalog says. -/
theorem answers_compileBy {find : FilterFinder}
    (hfind : ∀ rest : FilterKey, key.tail = rest → FilterKey.isBlank rest = false →
      ∀ name, Answers c (find name rest) (c.filter name rest)) :
    Answers c (compileBy find entity key) (c.compile entity key) := by
  unfold compileBy Catalog.compile
  cases key with
  | nil => exact answers_pure none
  | cons aliasName rest =>
    dsimp only
    cases ht : c.table entity .filterable with
    | error err =>
      -- an unknown entity is reported where it is looked up, before its table is
      rw [Catalog.filter, Catalog.entry?_of_table_error ht]
      cases hget : c.get entity with
      | error err' =>
        rw [Catalog.table, hget] at ht
        cases ht
        exact (answers_definition hget).fail
      | ok d => exact (answers_definition hget).bind (answers_table ht).fail
    | ok t =>
      obtain ⟨d, hget, hentry⟩ := @Catalog.entry?_of_table c entity aliasName t ht
      refine (answers_definition hget).bind ((answers_table ht).bind ?_)
      cases hfound : t.find? aliasName with
      | none =>
        rw [hfound] at hentry
        rw [Catalog.filter, hentry]
        exact answers_pure none
      | some entry =>
        rw [hfound] at hentry
        dsimp only
        split
        · rename_i hmode
          cases hlink : c.filterLink d entry.key with
          | error err =>
            rw [Catalog.filter_of_broken rest hentry hmode hlink]
            exact (answers_filterLink hlink).fail
          | ok p =>
            obtain ⟨link, related⟩ := p
            refine (answers_filterLink hlink).bind ?_
            dsimp only
            cases hrest : FilterKey.isBlank rest with
            | true =>
              rw [Catalog.filter_of_related hentry hmode hlink hrest]
              exact answers_pure _
            | false =>
              rw [Catalog.filter_of_followed hentry hmode hlink hrest]
              have hchild := hfind rest rfl hrest related.name
              cases hfilter : c.filter related.name rest with
              | error err =>
                rw [hfilter] at hchild
                exact hchild.fail
              | ok child? =>
                rw [hfilter] at hchild
                cases child? with
                | none => exact hchild.bind (answers_pure none)
                | some child => exact hchild.bind (answers_pure _)
        · rename_i hmode
          rw [Catalog.filter_of_column rest hentry hmode]
          show Answers c _ (.ok (some ((columnFilter d [aliasName] aliasName entry).withKey _)))
          rw [withKey_columnFilter]
          exact answers_pure _

theorem compile_canonical (h : c.canonical entity key = .ok (some k)) :
    c.compile entity k = c.filter entity key := by
  rw [Catalog.compile, Catalog.filter_canonical h]
  cases hf : c.filter entity key with
  | error err => rfl
  | ok f? =>
    cases f? with
    | none => rfl
    | some f =>
      have hkey : f.key = FilterKey.text k := Catalog.key_of_filter h hf
      show Except.ok (some (f.withKey (FilterKey.text k))) = .ok (some f)
      rw [← hkey, CompiledFilter.withKey_key]

/-- A filter that is kept under its canonical key, or made anew. -/
theorem answers_filterBy (hc : c.Named) {find : FilterFinder} (hkey : key.Divided)
    (hfind : ∀ rest : FilterKey, rest.Divided → rest.length < key.length →
      ∀ name, Answers c (find name rest) (c.filter name rest)) :
    Answers c (filterBy find entity key) (c.filter entity key) := by
  unfold filterBy
  cases hcanonical : c.canonical entity key with
  | error err =>
    rw [Catalog.filter_of_canonical hcanonical (by intro k hk; cases hk)]
    exact (answers_canonical hc hcanonical).fail
  | ok k? =>
    refine (answers_canonical hc hcanonical).bind ?_
    cases k? with
    | none =>
      rw [Catalog.filter_of_canonical hcanonical (by intro k hk; cases hk)]
      exact answers_pure none
    | some k =>
      have hne : k ≠ [] := Catalog.ne_nil_of_isBlank (Catalog.isBlank_canonical hcanonical)
      have hdivided : k.Divided := Catalog.divided_canonical hkey hcanonical
      refine answers_get fun r hr hs => ?_
      cases hlookup : r.filters.lookup (entity, FilterKey.text k) with
      | some f =>
        -- it is kept under the canonical key, which has the filter of the key
        obtain ⟨l₁, l₂, hfilters, -⟩ := List.lookup_eq_some_iff.1 hlookup
        have hf := hs.filters ((entity, FilterKey.text k), f) (by simp [hfilters])
        rw [FilterKey.parse_text hne hdivided, hr, Catalog.filter_canonical hcanonical] at hf
        rw [hf]
        exact (answers_count _).bind (answers_pure _)
      | none =>
        refine (answers_count _).bind ?_
        have hcompile : Answers c (compileBy find entity k) (c.filter entity key) := by
          rw [← compile_canonical hcanonical]
          refine answers_compileBy fun rest hrest _ => ?_
          -- what is behind the first part is shorter, also in the canonical key
          have hlength := Catalog.length_canonical hcanonical
          have hpos : 0 < k.length := List.length_pos_iff.2 hne
          subst hrest
          refine hfind _ (fun part hpart => hdivided part (List.mem_of_mem_tail hpart)) ?_
          rw [List.length_tail]
          omega
        cases hf : c.filter entity key with
        | error err =>
          rw [hf] at hcompile
          exact hcompile.fail
        | ok f? =>
          rw [hf] at hcompile
          refine hcompile.bind ?_
          cases f? with
          | none => exact answers_pure none
          | some f =>
            have hkept : c.filter entity k = .ok (some f) := by
              rw [Catalog.filter_canonical hcanonical, hf]
            exact (answers_keepFilter hne hdivided hkept).bind (answers_pure _)

/-- Filters on related rows have shorter keys, so the number of parts is enough. -/
theorem answers_filterWithin (hc : c.Named) {parts : Nat} (hkey : key.Divided)
    (hparts : key.length ≤ parts) :
    Answers c (filterWithin parts entity key) (c.filter entity key) := by
  induction parts generalizing entity key with
  | zero =>
    have hnil : key = [] := List.length_eq_zero_iff.1 (Nat.le_zero.1 hparts)
    subst hnil
    exact answers_pure none
  | succ parts ih =>
    refine answers_filterBy hc hkey ?_
    intro rest hrest hlength name
    exact ih hrest (by omega)

/-- **The filter of a key is the one that the catalog says**, whether it is kept or not. -/
theorem answers_filter (hc : c.Named) (hkey : key.Divided) :
    Answers c (filter entity key) (c.filter entity key) :=
  answers_filterWithin hc hkey (Nat.le_refl _)

theorem answers_compile (hc : c.Named) (hkey : key.Divided) :
    Answers c (compile entity key) (c.compile entity key) := by
  refine answers_compileBy ?_
  intro rest hrest _ name
  subst hrest
  exact answers_filter hc fun part hpart => hkey part (List.mem_of_mem_tail hpart)

end Steps

/-! ## Operations -/

/-- What can be done with a registry. Keys are given as texts. -/
inductive Operation where
  | register (d : Definition)
  | table (entity : String) (k : Kind)
  | filter (entity key : String)
  | compile (entity key : String)
  | clear

/-- The registry behind an operation, whether it succeeds or not. -/
def perform (r : Registry) : Operation → Registry
  | .register d => behind r (register d)
  | .table entity k => behind r (table entity k)
  | .filter entity key => behind r (filter entity (FilterKey.parse key))
  | .compile entity key => behind r (compile entity (FilterKey.parse key))
  | .clear => behind r clear

/-- The registry behind several operations, from one without entities on. -/
def after (ops : List Operation) : Registry := ops.foldl perform empty

/-- A registry that holds entities and nothing that was made from them. -/
def fresh (c : Catalog) : Registry := ⟨c, [], [], ⟨0, 0, 0, 0⟩⟩

theorem sound_of_nothing_kept {r : Registry} (hnamed : r.catalog.Named) (htables : r.tables = [])
    (hfilters : r.filters = []) : r.Sound := by
  refine ⟨hnamed, ?_, ?_⟩
  · intro e he
    rw [htables] at he
    cases he
  · intro e he
    rw [hfilters] at he
    cases he

/-- A catalog behind a registration, which changes nothing when it is refused. -/
def registered (c : Catalog) (d : Definition) : Catalog :=
  match c.register d with
  | .ok c' => c'
  | .error _ => c

/-- The entities behind an operation. -/
def Operation.entities (c : Catalog) : Operation → Catalog
  | .register d => registered c d
  | _ => c

/-- The entities that several operations bring in. -/
def entities (ops : List Operation) : Catalog := ops.foldl Operation.entities ∅

theorem behind_register (r : Registry) (d : Definition) :
    behind r (register d) = { r with catalog := registered r.catalog d } := by
  show ((Work.of (r.catalog.register d) >>= fun c => modify _).run.run r).2 = _
  unfold registered
  cases r.catalog.register d <;> rfl

theorem extends_registered (c : Catalog) (d : Definition) : c.Extends (registered c d) := by
  unfold registered
  split
  · rename_i c' hregister
    exact Catalog.extends_register hregister
  · exact fun _ _ h => h

theorem named_registered {c : Catalog} (hc : c.Named) (d : Definition) :
    (registered c d).Named := by
  unfold registered
  split
  · rename_i c' hregister
    exact hc.register hregister
  · exact hc

/-- What is kept is still right when an entity comes in. -/
theorem Sound.register {r : Registry} (hs : r.Sound) (d : Definition) :
    (behind r (register d)).Sound := by
  have hextends := extends_registered r.catalog d
  rw [behind_register]
  refine ⟨named_registered hs.named d, ?_, ?_⟩
  · intro e he
    exact Catalog.table_of_extends hextends (hs.tables e he)
  · intro e he
    exact Catalog.filter_of_extends hextends (hs.filters e he)

/-- **Every operation keeps a registry sound**, also one that fails. -/
theorem Sound.perform {r : Registry} (hs : r.Sound) (op : Operation) :
    (perform r op).Sound ∧ (perform r op).catalog = op.entities r.catalog := by
  cases op with
  | register d => exact ⟨hs.register d, congrArg Registry.catalog (behind_register r d)⟩
  | table entity k =>
    obtain ⟨-, hcatalog, hsound⟩ := answers_table rfl r rfl hs
    exact ⟨hsound, hcatalog⟩
  | filter entity key =>
    obtain ⟨-, hcatalog, hsound⟩ := answers_filter hs.named (FilterKey.divided_parse key) r rfl hs
    exact ⟨hsound, hcatalog⟩
  | compile entity key =>
    obtain ⟨-, hcatalog, hsound⟩ := answers_compile hs.named (FilterKey.divided_parse key) r rfl hs
    exact ⟨hsound, hcatalog⟩
  | clear => exact ⟨sound_of_nothing_kept hs.named rfl rfl, rfl⟩

/-- Whatever was done with it, a registry is sound, and has the entities that were brought in. -/
theorem sound_after (ops : List Operation) :
    (after ops).Sound ∧ (after ops).catalog = entities ops := by
  -- a run from any sound registry on
  have hrun : ∀ r : Registry, r.Sound → (ops.foldl perform r).Sound ∧
      (ops.foldl perform r).catalog = ops.foldl Operation.entities r.catalog := by
    induction ops with
    | nil => exact fun r hs => ⟨hs, rfl⟩
    | cons op ops ih =>
      intro r hs
      obtain ⟨hstep, hcatalog⟩ := hs.perform op
      rw [List.foldl_cons, List.foldl_cons, ← hcatalog]
      exact ih _ hstep
  exact hrun empty (sound_of_nothing_kept Catalog.named_empty rfl rfl)

open CompiledFilter (AgreeUpTo) in
/-- **No answer depends on what is kept.** After any operations, a table is made from the entity
as it was registered, and a filter is the one of a registry that has the same entities and keeps
nothing. A filter that is made directly differs from it only in its own key, which is given
instead of canonical: both make the same predicates and the same joins, or refuse a value for
the same reason. -/
theorem caches_transparent (ops : List Operation) :
    let r := after ops
    let c := entities ops
    (∀ entity kind, result r (table entity kind) =
      (c.get entity).bind fun d => Table.of d.toEntity kind) ∧
    ∀ entity text,
      let key := FilterKey.parse text
      result r (filter entity key) = result (fresh c) (filter entity key) ∧
      match result r (filter entity key), result r (compile entity key) with
      | .error err, .error err' => err = err'
      | .ok none, .ok none => True
      | .ok (some f), .ok (some g) =>
        g = f.withKey text ∧ result r (canonical entity key) = .ok (some (FilterKey.parse f.key)) ∧
        ∀ settings v,
          AgreeUpTo f.key g.key (f.applyAlone settings v) (g.applyAlone settings v) ∧
          ∀ c root js,
            ((f.apply c root settings v).run.run js).2 = ((g.apply c root settings v).run.run js).2 ∧
            AgreeUpTo f.key g.key ((f.apply c root settings v).run.run js).1
              ((g.apply c root settings v).run.run js).1
      | _, _ => False := by
  intro r c
  obtain ⟨hs, hc⟩ : r.Sound ∧ r.catalog = c := sound_after ops
  have hnamed : c.Named := hc ▸ hs.named
  refine ⟨fun entity kind => (answers_table rfl r hc hs).1, ?_⟩
  intro entity text key
  have hkey : key.Divided := FilterKey.divided_parse text
  have hfilter : result r (filter entity key) = c.filter entity key :=
    (answers_filter hnamed hkey r hc hs).1
  have hcompile : result r (compile entity key) = c.compile entity key :=
    (answers_compile hnamed hkey r hc hs).1
  have hcanonical : result r (canonical entity key) = c.canonical entity key :=
    (answers_canonical hnamed rfl r hc hs).1
  have hfresh : result (fresh c) (filter entity key) = c.filter entity key :=
    (answers_filter hnamed hkey (fresh c) rfl (sound_of_nothing_kept hnamed rfl rfl)).1
  refine ⟨hfilter.trans hfresh.symm, ?_⟩
  -- the catalog alone decides both filters, so what is left says nothing of caches
  rw [hfilter, hcompile, hcanonical, Catalog.compile, FilterKey.text_parse]
  cases hf : c.filter entity key with
  | error err => exact rfl
  | ok f? =>
    cases f? with
    | none => exact trivial
    | some f =>
      refine ⟨rfl, Catalog.canonical_of_filter hkey hf, ?_⟩
      intro settings v
      rw [CompiledFilter.key_withKey]
      refine ⟨CompiledFilter.applyAlone_withKey text settings v f, ?_⟩
      intro c root js
      exact CompiledFilter.run_apply_withKey text c root settings v f js

end Registry
end RequestPlan
