import RequestPlan.Proofs.Catalog
import RequestPlan.Proofs.Filter.Compiled
import RequestPlan.Proofs.Filter.Key

/-!
# Filters without a cache

* `Catalog.table`, `Catalog.filter`: what a catalog says about a table and about the filter of
  a request key, by one recursion on the key.
* `Catalog.canonical`: the part of a key that matters.
* `filter_canonical`: **the canonical form of a key has the same filter**, and a key without
  one has none.
* `filter_of_extends`: a filter stays the same when entities are added.
-/

namespace RequestPlan

namespace Catalog

/-! ## Tables and relations -/

/-- The table of a kind of an entity. -/
def table (c : Catalog) (entity : String) (k : Kind) : Except Error Table :=
  (c.get entity).bind fun d => Table.of d.toEntity k

/-- An entity, with what an alias of it stands for in filters. -/
def entry? (c : Catalog) (entity aliasName : String) : Except Error (Option (Definition × Entry)) :=
  (c.get entity).bind fun d =>
    (Table.of d.toEntity .filterable).map fun t => (t.find? aliasName).map fun entry => (d, entry)

/-- The relation that a filter goes through: its link and the related entity. -/
def filterLink (c : Catalog) (d : Definition) (key : String) : Except Error (Link × Definition) :=
  match d.relation? key with
  | none => .error (.unknownRelation d.name key)
  | some r =>
    if r.kind = .manyToMany then .error (.unsupportedRelation d.name r.name .filter)
    else
      (c.get r.related).bind fun related =>
        match r.link? d.toEntity related.toEntity with
        | none => .error (.unsupportedRelation d.name r.name .filter)
        | some link => .ok (link, related)

/-! ## Filters -/

/-- The filter of a key. Its own key is what it needed of the one that was given. -/
def filter (c : Catalog) (entity : String) : FilterKey → Except Error (Option CompiledFilter)
  | [] => .ok none
  | aliasName :: rest =>
    match c.entry? entity aliasName with
    | .error err => .error err
    | .ok none => .ok none
    | .ok (some (d, entry)) =>
      if Mode.parse entry.mode = .relation then
        match c.filterLink d entry.key with
        | .error err => .error err
        | .ok (link, related) =>
          if FilterKey.isBlank rest then .ok (some (.related d.name aliasName link))
          else
            (filter c related.name rest).map fun f => f.map fun child =>
              .relatedWhere d.name (aliasName ++ "$" ++ child.key) link child
      else .ok (some (Registry.columnFilter d [aliasName] aliasName entry))

/-- The filter of a key under the key as it is given. -/
def compile (c : Catalog) (entity : String) (key : FilterKey) :
    Except Error (Option CompiledFilter) :=
  (c.filter entity key).map fun f => f.map (·.withKey (FilterKey.text key))

/-- The part of a key that matters: behind an alias that is no relation nothing does, and
behind a relation that cannot be followed everything. -/
def canonical (c : Catalog) (entity : String) : FilterKey → Except Error (Option FilterKey)
  | [] => .ok none
  | aliasName :: rest =>
    match c.entry? entity aliasName with
    | .error err => .error err
    | .ok none => .ok none
    | .ok (some (d, entry)) =>
      if Mode.parse entry.mode = .relation ∧ FilterKey.isBlank rest = false then
        match c.filterLink d entry.key with
        | .error _ => .ok (some (aliasName :: rest))
        | .ok (_, related) =>
          (canonical c related.name rest).map fun k => k.map (aliasName :: ·)
      else .ok (some [aliasName])

variable {c c' : Catalog} {entity aliasName : String} {key k : FilterKey}

theorem table_of_get {kind : Kind} {d : Definition} (h : c.get entity = .ok d) :
    c.table entity kind = Table.of d.toEntity kind := by
  rw [table, h]
  rfl

theorem table_eq_ok_iff {kind : Kind} {t : Table} :
    c.table entity kind = .ok t ↔ ∃ d, c.get entity = .ok d ∧ Table.of d.toEntity kind = .ok t := by
  unfold table
  cases c.get entity with
  | error err => simp [Except.bind]
  | ok d => simp [Except.bind]

/-- An alias is looked up in the table for filters. -/
theorem entry?_of_table {t : Table} (h : c.table entity .filterable = .ok t) :
    ∃ d, c.get entity = .ok d ∧
      c.entry? entity aliasName = .ok ((t.find? aliasName).map fun entry => (d, entry)) := by
  obtain ⟨d, hget, ht⟩ := table_eq_ok_iff.1 h
  refine ⟨d, hget, ?_⟩
  unfold entry?
  rw [hget]
  show (Table.of d.toEntity .filterable).map _ = _
  rw [ht]
  rfl

theorem entry?_of_table_error {err : Error} (h : c.table entity .filterable = .error err) :
    c.entry? entity aliasName = .error err := by
  unfold table at h
  unfold entry?
  cases hget : c.get entity with
  | error err' =>
    rw [hget] at h
    cases h
    rfl
  | ok d =>
    rw [hget] at h
    have ht : Table.of d.toEntity .filterable = .error err := h
    show (Table.of d.toEntity .filterable).map _ = _
    rw [ht]
    rfl

/-- A relation has a link to an entity that is there, unless it is a table of pairs. -/
theorem filterLink_of_relation {d related : Definition} {name : String} {r : Relation}
    (hr : d.relation? name = some r) (hkind : r.kind ≠ .manyToMany)
    (hget : c.get r.related = .ok related) : ∃ link, c.filterLink d name = .ok (link, related) := by
  have hlink : ∃ link, r.link? d.toEntity related.toEntity = some link := by
    unfold Relation.link?
    cases hk : r.kind with
    | manyToMany => exact absurd hk hkind
    | _ => exact ⟨_, rfl⟩
  obtain ⟨link, hlink⟩ := hlink
  refine ⟨link, ?_⟩
  unfold filterLink
  rw [hr]
  dsimp only
  rw [if_neg hkind, hget]
  simp only [Except.bind, hlink]

/-- A table of pairs cannot be followed, nor can a relation to an entity that is not there. -/
theorem filterLink_of_stop {d : Definition} {name : String} {r : Relation}
    (hr : d.relation? name = some r) (h : r.kind = .manyToMany ∨ c.contains r.related = false) :
    ∃ err, c.filterLink d name = .error err := by
  unfold filterLink
  rw [hr]
  dsimp only
  rcases h with hkind | hcontains
  · exact ⟨_, if_pos hkind⟩
  · have hfind : c.find? r.related = none := by
      simpa [Dict.contains] using hcontains
    have hget : c.get r.related = .error (.unknownEntity r.related) :=
      get_eq_error_iff.2 ⟨hfind, rfl⟩
    rw [hget]
    split
    · exact ⟨_, rfl⟩
    · exact ⟨_, rfl⟩

/-- Where a relation can be followed, it leads to the entity that it names. -/
theorem filterLink_of_not_stop (hc : c.Named) {d : Definition} {name : String} {r : Relation}
    (hr : d.relation? name = some r) (h : ¬(r.kind = .manyToMany ∨ c.contains r.related = false)) :
    ∃ link related, c.filterLink d name = .ok (link, related) ∧ related.name = r.related := by
  rw [not_or] at h
  obtain ⟨hkind, hcontains⟩ := h
  cases hfind : c.find? r.related with
  | none => exact absurd (by simp [Dict.contains, hfind]) hcontains
  | some related =>
    obtain ⟨link, hlink⟩ := filterLink_of_relation hr hkind (get_eq_ok_iff.2 hfind)
    exact ⟨link, related, hlink, hc _ _ hfind⟩

theorem map_eq_ok_some {α β : Type} {x : Except Error (Option α)} {g : α → β} {b : β}
    (h : (x.map fun a? => a?.map g) = .ok (some b)) : ∃ a, x = .ok (some a) ∧ g a = b := by
  cases x with
  | error err => cases h
  | ok a? =>
    cases a? with
    | none => cases h
    | some a =>
      cases h
      exact ⟨a, rfl, rfl⟩

theorem find?_empty_of_table {kind : Kind} {t : Table} (h : c.table entity kind = .ok t) :
    t.find? "" = none := by
  obtain ⟨d, -, ht⟩ := table_eq_ok_iff.1 h
  exact Table.find?_empty ht

theorem aliasName_ne_empty {d : Definition} {entry : Entry}
    (h : c.entry? entity aliasName = .ok (some (d, entry))) : aliasName ≠ "" := by
  rintro rfl
  cases ht : c.table entity .filterable with
  | error err =>
    rw [entry?_of_table_error ht] at h
    cases h
  | ok t =>
    obtain ⟨d', -, hentry⟩ := @entry?_of_table c entity "" t ht
    rw [hentry, find?_empty_of_table ht] at h
    cases h

/-! ## Canonical keys -/

theorem isBlank_cons_of_ne_nil (hk : k ≠ []) : FilterKey.isBlank (aliasName :: k) = false := by
  obtain ⟨part, k, rfl⟩ := List.exists_cons_of_ne_nil hk
  rfl

theorem ne_nil_of_isBlank (hk : FilterKey.isBlank k = false) : k ≠ [] := by
  rintro rfl
  cases hk

/-- How an alias with what is behind it gets its canonical form. -/
inductive Shortens (c : Catalog) (entity aliasName : String) (rest : FilterKey) : FilterKey → Prop
  /-- Nothing behind the alias matters. -/
  | alone {d : Definition} {entry : Entry}
      (hentry : c.entry? entity aliasName = .ok (some (d, entry)))
      (hrest : ¬(Mode.parse entry.mode = .relation ∧ FilterKey.isBlank rest = false)) :
      Shortens c entity aliasName rest [aliasName]
  /-- The relation cannot be followed. -/
  | broken {d : Definition} {entry : Entry} {err : Error}
      (hentry : c.entry? entity aliasName = .ok (some (d, entry)))
      (hmode : Mode.parse entry.mode = .relation) (hrest : FilterKey.isBlank rest = false)
      (hlink : c.filterLink d entry.key = .error err) :
      Shortens c entity aliasName rest (aliasName :: rest)
  /-- What is behind the relation gets a canonical form. -/
  | followed {d related : Definition} {entry : Entry} {link : Link} {k : FilterKey}
      (hentry : c.entry? entity aliasName = .ok (some (d, entry)))
      (hmode : Mode.parse entry.mode = .relation) (hrest : FilterKey.isBlank rest = false)
      (hlink : c.filterLink d entry.key = .ok (link, related))
      (hk : c.canonical related.name rest = .ok (some k)) :
      Shortens c entity aliasName rest (aliasName :: k)

theorem shortens_of_canonical {rest : FilterKey}
    (h : c.canonical entity (aliasName :: rest) = .ok (some k)) :
    Shortens c entity aliasName rest k := by
  rw [canonical] at h
  split at h
  · cases h
  · cases h
  · rename_i d entry hentry
    split at h
    · rename_i hrelation
      split at h
      · rename_i err hlink
        cases h
        exact .broken hentry hrelation.1 hrelation.2 hlink
      · rename_i link related hlink
        obtain ⟨k', hrest, rfl⟩ := map_eq_ok_some h
        exact .followed hentry hrelation.1 hrelation.2 hlink hrest
    · rename_i hrelation
      cases h
      exact .alone hentry hrelation

/-- Something is asked for in a canonical key. -/
theorem isBlank_canonical (h : c.canonical entity key = .ok (some k)) :
    FilterKey.isBlank k = false := by
  induction key generalizing entity k with
  | nil => cases h
  | cons aliasName rest ih =>
    cases shortens_of_canonical h with
    | alone hentry hrest => simpa [FilterKey.isBlank] using aliasName_ne_empty hentry
    | broken hentry hmode hrest hlink => exact isBlank_cons_of_ne_nil (ne_nil_of_isBlank hrest)
    | followed hentry hmode hrest hlink hk =>
      exact isBlank_cons_of_ne_nil (ne_nil_of_isBlank (ih hk))

theorem divided_canonical (hkey : key.Divided) (h : c.canonical entity key = .ok (some k)) :
    k.Divided := by
  induction key generalizing entity k with
  | nil => cases h
  | cons aliasName rest ih =>
    have hname : '$' ∉ aliasName.toList := hkey aliasName List.mem_cons_self
    cases shortens_of_canonical h with
    | alone hentry hrest => exact List.forall_mem_singleton.2 hname
    | broken hentry hmode hrest hlink => exact hkey
    | followed hentry hmode hrest hlink hk =>
      exact List.forall_mem_cons.2 ⟨hname, ih hkey.tail hk⟩

theorem length_canonical (h : c.canonical entity key = .ok (some k)) : k.length ≤ key.length := by
  induction key generalizing entity k with
  | nil => cases h
  | cons aliasName rest ih =>
    cases shortens_of_canonical h with
    | alone hentry hrest => simp
    | broken hentry hmode hrest hlink => exact Nat.le_refl _
    | followed hentry hmode hrest hlink hk => exact Nat.succ_le_succ (ih hk)

theorem prefix_of_canonical (h : c.canonical entity key = .ok (some k)) : k <+: key := by
  induction key generalizing entity k with
  | nil => cases h
  | cons aliasName rest ih =>
    cases shortens_of_canonical h with
    | alone hentry hrest => exact ⟨rest, rfl⟩
    | broken hentry hmode hrest hlink => exact List.prefix_rfl
    | followed hentry hmode hrest hlink hk => exact (List.prefix_cons_inj aliasName).2 (ih hk)

/-- **A canonical form is its own canonical form.** -/
theorem canonical_canonical (h : c.canonical entity key = .ok (some k)) :
    c.canonical entity k = .ok (some k) := by
  induction key generalizing entity k with
  | nil => cases h
  | cons aliasName rest ih =>
    cases shortens_of_canonical h with
    | alone hentry hrest =>
      rw [canonical, hentry]
      exact if_neg fun hfollowed => absurd hfollowed.2 (by decide)
    | broken hentry hmode hrest hlink => exact h
    | followed hentry hmode hrest hlink hk =>
      rw [canonical, hentry]
      dsimp only
      rw [if_pos ⟨hmode, isBlank_canonical hk⟩, hlink]
      dsimp only
      rw [ih hk]
      rfl

theorem filter_of_column {d : Definition} {entry : Entry} (rest : FilterKey)
    (hentry : c.entry? entity aliasName = .ok (some (d, entry)))
    (hmode : Mode.parse entry.mode ≠ .relation) :
    c.filter entity (aliasName :: rest) =
      .ok (some (Registry.columnFilter d [aliasName] aliasName entry)) := by
  rw [filter, hentry]
  exact if_neg hmode

theorem filter_of_broken {d : Definition} {entry : Entry} {err : Error} (rest : FilterKey)
    (hentry : c.entry? entity aliasName = .ok (some (d, entry)))
    (hmode : Mode.parse entry.mode = .relation) (hlink : c.filterLink d entry.key = .error err) :
    c.filter entity (aliasName :: rest) = .error err := by
  rw [filter, hentry]
  dsimp only
  rw [if_pos hmode, hlink]

theorem filter_of_related {d related : Definition} {entry : Entry} {link : Link} {rest : FilterKey}
    (hentry : c.entry? entity aliasName = .ok (some (d, entry)))
    (hmode : Mode.parse entry.mode = .relation)
    (hlink : c.filterLink d entry.key = .ok (link, related))
    (hrest : FilterKey.isBlank rest = true) :
    c.filter entity (aliasName :: rest) = .ok (some (.related d.name aliasName link)) := by
  rw [filter, hentry]
  dsimp only
  rw [if_pos hmode, hlink]
  exact if_pos hrest

theorem filter_of_followed {d related : Definition} {entry : Entry} {link : Link} {rest : FilterKey}
    (hentry : c.entry? entity aliasName = .ok (some (d, entry)))
    (hmode : Mode.parse entry.mode = .relation)
    (hlink : c.filterLink d entry.key = .ok (link, related))
    (hrest : FilterKey.isBlank rest = false) :
    c.filter entity (aliasName :: rest) =
      (c.filter related.name rest).map fun f => f.map fun child =>
        .relatedWhere d.name (aliasName ++ "$" ++ child.key) link child := by
  rw [filter, hentry]
  dsimp only
  rw [if_pos hmode, hlink]
  dsimp only
  rw [hrest]
  rfl

/-- Nothing but an existence test is asked for by a blank. -/
theorem filter_of_isBlank {rest : FilterKey} (hrest : FilterKey.isBlank rest = true) :
    c.filter entity (aliasName :: rest) = c.filter entity [aliasName] := by
  have hnil : FilterKey.isBlank [] = true := rfl
  rw [filter, filter, hrest, hnil]
  simp only [if_true]

/-- **The canonical form of a key has the same filter.** -/
theorem filter_canonical (h : c.canonical entity key = .ok (some k)) :
    c.filter entity k = c.filter entity key := by
  induction key generalizing entity k with
  | nil => cases h
  | cons aliasName rest ih =>
    cases shortens_of_canonical h with
    | @alone d entry hentry hrest =>
      by_cases hmode : Mode.parse entry.mode = .relation
      · -- a blank behind a relation asks for what the relation alone asks for
        have hblank : FilterKey.isBlank rest = true := by
          simpa [hmode] using hrest
        exact (filter_of_isBlank hblank).symm
      · rw [filter_of_column _ hentry hmode, filter_of_column _ hentry hmode]
    | broken hentry hmode hrest hlink => rfl
    | followed hentry hmode hrest hlink hk =>
      rw [filter_of_followed hentry hmode hlink hrest,
        filter_of_followed hentry hmode hlink (isBlank_canonical hk), ih hk]

/-- The filter of a key has the canonical form as its own key. -/
theorem key_of_filter {f : CompiledFilter} (h : c.canonical entity key = .ok (some k))
    (hf : c.filter entity key = .ok (some f)) : f.key = FilterKey.text k := by
  induction key generalizing entity k f with
  | nil => cases h
  | cons aliasName rest ih =>
    cases shortens_of_canonical h with
    | @alone d entry hentry hrest =>
      by_cases hmode : Mode.parse entry.mode = .relation
      · have hblank : FilterKey.isBlank rest = true := by
          simpa [hmode] using hrest
        cases hlink : c.filterLink d entry.key with
        | error err =>
          rw [filter_of_broken _ hentry hmode hlink] at hf
          cases hf
        | ok p =>
          obtain ⟨link, related⟩ := p
          rw [filter_of_related hentry hmode hlink hblank] at hf
          cases hf
          rfl
      · rw [filter_of_column _ hentry hmode] at hf
        cases hf
        exact Registry.key_columnFilter d [aliasName] aliasName entry
    | broken hentry hmode hrest hlink =>
      -- there is no filter behind a relation that cannot be followed
      rw [filter_of_broken _ hentry hmode hlink] at hf
      cases hf
    | @followed d related entry link k hentry hmode hrest hlink hk =>
      rw [filter_of_followed hentry hmode hlink hrest] at hf
      obtain ⟨child, hchild, rfl⟩ := map_eq_ok_some hf
      rw [FilterKey.text_cons _ (ne_nil_of_isBlank (isBlank_canonical hk)), ← ih hk hchild]
      rfl

/-- A key with a canonical form has a filter, unless a relation on its way cannot be followed. -/
theorem filter_ne_none (h : c.canonical entity key = .ok (some k)) :
    c.filter entity key ≠ .ok none := by
  induction key generalizing entity k with
  | nil => cases h
  | cons aliasName rest ih =>
    cases shortens_of_canonical h with
    | @alone d entry hentry hrest =>
      by_cases hmode : Mode.parse entry.mode = .relation
      · have hblank : FilterKey.isBlank rest = true := by
          simpa [hmode] using hrest
        cases hlink : c.filterLink d entry.key with
        | error err => simp [filter_of_broken _ hentry hmode hlink]
        | ok p => simp [filter_of_related hentry hmode hlink hblank]
      · simp [filter_of_column _ hentry hmode]
    | broken hentry hmode hrest hlink => simp [filter_of_broken _ hentry hmode hlink]
    | @followed d related entry link k hentry hmode hrest hlink hk =>
      rw [filter_of_followed hentry hmode hlink hrest]
      have hchild := ih hk
      cases hf : c.filter related.name rest with
      | error err => simp [Except.map]
      | ok child? =>
        cases child? with
        | none => exact absurd hf hchild
        | some child => simp [Except.map]

/-- A key without a canonical form has no filter, for the same reason. -/
theorem filter_of_canonical {x : Except Error (Option FilterKey)}
    (h : c.canonical entity key = x) (hx : ∀ k, x ≠ .ok (some k)) :
    c.filter entity key = x.map fun _ => none := by
  subst h
  induction key generalizing entity with
  | nil => rfl
  | cons aliasName rest ih =>
    cases hentry : c.entry? entity aliasName with
    | error err => rw [filter, canonical, hentry]; rfl
    | ok found =>
      cases found with
      | none => rw [filter, canonical, hentry]; rfl
      | some p =>
        obtain ⟨d, entry⟩ := p
        rw [canonical, hentry] at hx ⊢
        dsimp only at hx ⊢
        by_cases hrelation : Mode.parse entry.mode = .relation ∧ FilterKey.isBlank rest = false
        · rw [if_pos hrelation] at hx ⊢
          cases hlink : c.filterLink d entry.key with
          | error err =>
            rw [hlink] at hx
            exact absurd rfl (hx (aliasName :: rest))
          | ok p =>
            obtain ⟨link, related⟩ := p
            rw [hlink] at hx
            dsimp only at hx ⊢
            -- what is behind the relation has no canonical form either
            have hnone : ∀ k, c.canonical related.name rest ≠ .ok (some k) := by
              intro k hk
              rw [hk] at hx
              exact hx (aliasName :: k) rfl
            rw [filter_of_followed hentry hrelation.1 hlink hrelation.2, ih hnone]
            cases hk : c.canonical related.name rest <;> rfl
        · rw [if_neg hrelation] at hx
          exact absurd rfl (hx [aliasName])

/-- A key with a filter has a canonical form, which is what the filter's own key spells. -/
theorem canonical_of_filter {f : CompiledFilter} (hkey : key.Divided)
    (hf : c.filter entity key = .ok (some f)) :
    c.canonical entity key = .ok (some (FilterKey.parse f.key)) := by
  cases hcanonical : c.canonical entity key with
  | error err =>
    rw [filter_of_canonical hcanonical (by intro k hk; cases hk)] at hf
    cases hf
  | ok k? =>
    cases k? with
    | none =>
      rw [filter_of_canonical hcanonical (by intro k hk; cases hk)] at hf
      cases hf
    | some k =>
      have hne : k ≠ [] := ne_nil_of_isBlank (isBlank_canonical hcanonical)
      rw [key_of_filter hcanonical hf, FilterKey.parse_text hne (divided_canonical hkey hcanonical)]

/-! ## More entities -/

section Extends

variable (hc : c.Extends c')

include hc

theorem get_of_extends {d : Definition} (h : c.get entity = .ok d) : c'.get entity = .ok d :=
  get_eq_ok_iff.2 (hc entity d (get_eq_ok_iff.1 h))

theorem table_of_extends {kind : Kind} {t : Table} (h : c.table entity kind = .ok t) :
    c'.table entity kind = .ok t := by
  obtain ⟨d, hget, ht⟩ := table_eq_ok_iff.1 h
  exact table_eq_ok_iff.2 ⟨d, get_of_extends hc hget, ht⟩

theorem entry?_of_extends {p : Definition × Entry} (h : c.entry? entity aliasName = .ok (some p)) :
    c'.entry? entity aliasName = .ok (some p) := by
  unfold entry? at h ⊢
  cases hget : c.get entity with
  | error err =>
    rw [hget] at h
    cases h
  | ok d =>
    rw [hget] at h
    rw [get_of_extends hc hget]
    exact h

theorem filterLink_of_extends {d : Definition} {name : String} {p : Link × Definition}
    (h : c.filterLink d name = .ok p) : c'.filterLink d name = .ok p := by
  unfold filterLink at h ⊢
  split at h
  · cases h
  · split at h
    · cases h
    · rename_i r _ hkind
      cases hget : c.get r.related with
      | error err =>
        rw [hget] at h
        cases h
      | ok related =>
        rw [hget] at h
        rw [if_neg hkind, get_of_extends hc hget]
        exact h

/-- **A filter that is found stays the same** when entities are added. -/
theorem filter_of_extends {f : CompiledFilter} (h : c.filter entity key = .ok (some f)) :
    c'.filter entity key = .ok (some f) := by
  induction key generalizing entity f with
  | nil => cases h
  | cons aliasName rest ih =>
    cases hentry : c.entry? entity aliasName with
    | error err =>
      rw [filter, hentry] at h
      cases h
    | ok found =>
      cases found with
      | none =>
        rw [filter, hentry] at h
        cases h
      | some p =>
        obtain ⟨d, entry⟩ := p
        have hentry' := entry?_of_extends hc hentry
        by_cases hmode : Mode.parse entry.mode = .relation
        · cases hlink : c.filterLink d entry.key with
          | error err =>
            rw [filter_of_broken _ hentry hmode hlink] at h
            cases h
          | ok p =>
            obtain ⟨link, related⟩ := p
            -- the relation leads to the same entity in the larger catalog
            have hlink' := filterLink_of_extends hc hlink
            cases hrest : FilterKey.isBlank rest with
            | true =>
              rw [filter_of_related hentry hmode hlink hrest] at h
              rw [filter_of_related hentry' hmode hlink' hrest, h]
            | false =>
              rw [filter_of_followed hentry hmode hlink hrest] at h
              obtain ⟨child, hchild, rfl⟩ := map_eq_ok_some h
              rw [filter_of_followed hentry' hmode hlink' hrest, ih hchild]
              rfl
        · rw [filter_of_column _ hentry hmode] at h
          rw [filter_of_column _ hentry' hmode, h]

end Extends

end Catalog
end RequestPlan
