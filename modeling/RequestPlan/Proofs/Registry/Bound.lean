import Mathlib.Data.List.Nodup
import Mathlib.Data.List.Perm.Subperm
import RequestPlan.Proofs.Columns.Plans
import RequestPlan.Proofs.Columns.Subqueries
import RequestPlan.Proofs.Registry.Counts

/-!
# How many filters are kept

* `Catalog.Circular`: relations for filters lead from an entity back to it.
* `Catalog.filterKeys`: the canonical keys of an entity with a limited number of parts, and
  `Catalog.keysOfFilters`: those of all entities, as far as a catalog that is not circular needs
  them.
* `Registry.Compact`: each filter is kept under its own key, once.
* `length_le_of_not_circular`, `exists_keys_of_circular`: **the filters that are kept are bounded by
  the entities exactly where no relations lead back**.
-/

namespace RequestPlan

namespace Catalog

/-! ## Canonical keys of a catalog -/

/-- Relations that filters go through lead from an entity back to it. -/
def Circular (c : Catalog) : Prop :=
  ∃ d aliases links, c.find? d.name = some d ∧ aliases ≠ [] ∧ c.Chain d aliases links d

/-- The keys of an entity's filters with no more than so many parts: each alias, and behind one that
stands for a relation the keys of the related entity. -/
def filterKeys (c : Catalog) : (parts : Nat) → Definition → List FilterKey
  | 0, _ => []
  | parts + 1, d =>
    match Table.of d.toEntity .filterable with
    | .error _ => []
    | .ok t => t.entries.entries.flatMap fun (a, entry) =>
      [a] :: match Mode.parse entry.mode, c.filterLink d entry.key with
        | .relation, .ok (_, related) => (filterKeys c parts related).map (a :: ·)
        | _, _ => []

/-- The keys of all filters that relations lead to which do not lead back. -/
def keysOfFilters (c : Catalog) : List (String × String) :=
  c.entries.flatMap fun (name, d) =>
    (c.filterKeys c.size d).map fun k => (name, FilterKey.text k)

variable {c : Catalog} {d e last : Definition} {a : String} {link : Link}
  {aliases more : List String} {links links' : List Link} {key : FilterKey} {f : CompiledFilter}

/-- **A canonical key with a filter is among the keys of its entity.** -/
theorem mem_filterKeys (hc : c.Named) (hd : c.find? d.name = some d)
    (hk : c.canonical d.name key = .ok (some key)) (hf : c.filter d.name key = .ok (some f))
    {parts : Nat} (hparts : key.length ≤ parts) : key ∈ c.filterKeys parts d := by
  induction key generalizing d f parts with
  | nil => cases hf
  | cons a rest ih =>
    obtain ⟨parts, rfl⟩ : ∃ n, parts = n + 1 := ⟨parts - 1, by simp at hparts; omega⟩
    have hmem : ∀ {d' entry}, c.entry? d.name a = .ok (some (d', entry)) → d' = d ∧
        ∃ t, Table.of d.toEntity .filterable = .ok t ∧ (a, entry) ∈ t.entries.entries := by
      intro d' entry hentry
      obtain ⟨hd', t, ht, hfind⟩ := entry?_eq_ok_some hentry
      cases hd.symm.trans hd'
      exact ⟨rfl, t, ht, Entries.mem_of_find? hfind⟩
    cases shortens_of_canonical hk with
    | alone hentry hrest =>
      obtain ⟨rfl, t, ht, hentries⟩ := hmem hentry
      rw [filterKeys, ht]
      exact List.mem_flatMap.2 ⟨_, hentries, List.mem_cons_self⟩
    | broken hentry hmode hrest hlink =>
      rw [filter_of_broken _ hentry hmode hlink] at hf
      cases hf
    | @followed d' related entry link _ hentry hmode hrest hlink hrest' =>
      obtain ⟨rfl, t, ht, hentries⟩ := hmem hentry
      rw [filter_of_followed hentry hmode hlink hrest] at hf
      obtain ⟨child, hchild, -⟩ := map_eq_ok_some hf
      have hrelated : c.find? related.name = some related :=
        Passes.find? hc ((passes_iff hd).2 ⟨entry, hentry, hmode, hlink⟩)
      have hlength : rest.length ≤ parts := by simpa using hparts
      have hkeys : rest ∈ c.filterKeys parts related := ih hrelated hrest' hchild hlength
      rw [filterKeys, ht]
      refine List.mem_flatMap.2 ⟨_, hentries, List.mem_cons_of_mem _ ?_⟩
      simp only [hmode, hlink]
      exact List.mem_map_of_mem hkeys

/-! ## Keys that do not lead back -/

/-- A canonical key follows a chain up to its last part. -/
theorem exists_chain_of_canonical (hc : c.Named) (hd : c.find? d.name = some d)
    (hk : c.canonical d.name key = .ok (some key)) (hf : c.filter d.name key = .ok (some f)) :
    ∃ front a links last, key = front ++ [a] ∧ c.Chain d front links last := by
  induction key generalizing d f with
  | nil => cases hf
  | cons a rest ih =>
    cases shortens_of_canonical hk with
    | alone hentry hrest => exact ⟨[], a, [], d, rfl, .here⟩
    | broken hentry hmode hrest hlink =>
      rw [filter_of_broken _ hentry hmode hlink] at hf
      cases hf
    | @followed d' related entry link _ hentry hmode hrest hlink hrest' =>
      rw [filter_of_followed hentry hmode hlink hrest] at hf
      obtain ⟨child, hchild, -⟩ := map_eq_ok_some hf
      obtain ⟨hd', -⟩ := entry?_eq_ok_some hentry
      cases hd.symm.trans hd'
      have ha : c.Passes d a link related := (passes_iff hd).2 ⟨entry, hentry, hmode, hlink⟩
      obtain ⟨front, b, links, last, rfl, hchain⟩ := ih (ha.find? hc) hrest' hchild
      exact ⟨a :: front, b, link :: links, last, rfl, .step ha hchain⟩

/-- **A chain visits no entity twice**, unless relations lead back. -/
theorem Chain.exists_names (hc : c.Named) (hcircular : ¬c.Circular)
    (h : c.Chain d aliases links last) (hd : c.find? d.name = some d) :
    ∃ names : List String, names.length = aliases.length + 1 ∧ names.Nodup ∧
      ∀ name ∈ names, ∃ e as ls, c.find? name = some e ∧ c.Chain d as ls e := by
  induction h with
  | @here d =>
    refine ⟨[d.name], rfl, List.pairwise_singleton _ _, fun name hname => ?_⟩
    cases List.mem_singleton.1 hname
    exact ⟨d, [], [], hd, .here⟩
  | @step d related last a link aliases links ha _ ih =>
    obtain ⟨names, hlength, hnodup, hnames⟩ := ih (ha.find? hc)
    have hnew : d.name ∉ names := by
      intro hmem
      obtain ⟨e, as, ls, he, hchain⟩ := hnames _ hmem
      cases hd.symm.trans he
      exact hcircular ⟨d, a :: as, link :: ls, hd, List.cons_ne_nil a as, .step ha hchain⟩
    refine ⟨d.name :: names, by simp [hlength], List.nodup_cons.2 ⟨hnew, hnodup⟩, ?_⟩
    intro name hname
    rcases List.mem_cons.1 hname with rfl | hname
    · exact ⟨d, [], [], hd, .here⟩
    · obtain ⟨e, as, ls, he, hchain⟩ := hnames _ hname
      exact ⟨e, a :: as, link :: ls, he, .step ha hchain⟩

/-- Where no relations lead back, canonical keys have no more parts than there are entities. -/
theorem length_le_of_canonical (hc : c.Named) (hcircular : ¬c.Circular)
    (hd : c.find? d.name = some d) (hk : c.canonical d.name key = .ok (some key))
    (hf : c.filter d.name key = .ok (some f)) : key.length ≤ c.size := by
  obtain ⟨front, a, links, last, rfl, hchain⟩ := exists_chain_of_canonical hc hd hk hf
  obtain ⟨names, hlength, hnodup, hnames⟩ := hchain.exists_names hc hcircular hd
  have hsubset : names ⊆ c.keys := by
    intro name hname
    obtain ⟨e, -, -, he, -⟩ := hnames name hname
    exact List.mem_map.2 ⟨(name, e), Entries.mem_of_find? he, rfl⟩
  have hle : names.length ≤ c.keys.length := (List.subperm_of_subset hnodup hsubset).length_le
  have hkeys : c.keys.length = c.size := List.length_map ..
  rw [List.length_append, List.length_singleton]
  omega

/-! ## Keys that lead back -/

theorem Chain.append (h : c.Chain d aliases links e) (h' : c.Chain e more links' last) :
    c.Chain d (aliases ++ more) (links ++ links') last := by
  induction h with
  | here => exact h'
  | step ha _ ih => exact .step ha (ih h')

/-- Relations that lead back can be followed any number of times. -/
theorem Chain.exists_loops (h : c.Chain d aliases links d) (n : Nat) :
    ∃ links', c.Chain d (List.replicate n aliases).flatten links' d := by
  induction n with
  | zero => exact ⟨[], .here⟩
  | succ n ih =>
    obtain ⟨links', hloops⟩ := ih
    rw [List.replicate_succ, List.flatten_cons]
    exact ⟨links ++ links', h.append hloops⟩

theorem Passes.not_mem (h : c.Passes d a link e) : '$' ∉ a.toList := by
  obtain ⟨t, entry, r, ht, hentry, -⟩ := h
  intro hmem
  have hreserved := (Table.aliasName_of_find? ht hentry).2.2 _ hmem
  exact absurd hreserved (by decide)

theorem Chain.divided (h : c.Chain d aliases links last) : FilterKey.Divided aliases := by
  induction h with
  | here => exact fun part hpart => absurd hpart List.not_mem_nil
  | step ha _ ih => exact List.forall_mem_cons.2 ⟨ha.not_mem, ih⟩

/-- **A chain is the key of a filter**, which is kept under the whole of it. -/
theorem Chain.exists_filter (hc : c.Named) (h : c.Chain d aliases links last)
    (hd : c.find? d.name = some d) (hne : aliases ≠ []) :
    ∃ f, c.filter d.name aliases = .ok (some f) ∧ f.key = FilterKey.text aliases := by
  induction h with
  | here => exact absurd rfl hne
  | @step d related last a link aliases links ha hchain ih =>
    cases hchain with
    | here => exact ⟨_, filter_of_passes_isBlank hd ha rfl, rfl⟩
    | @step _ _ _ b _ aliases _ hb _ =>
      obtain ⟨child, hchild, hkey⟩ := ih (ha.find? hc) (List.cons_ne_nil b aliases)
      have hblank : FilterKey.isBlank (b :: aliases) = false := by
        cases aliases with
        | nil => simpa [FilterKey.isBlank] using hb.ne_empty
        | cons b' aliases => rfl
      rw [filter_of_passes hd ha hblank, hchild]
      refine ⟨_, rfl, ?_⟩
      rw [FilterKey.text_cons a (List.cons_ne_nil b aliases), ← hkey]
      rfl

/-- Where relations lead back, there is a key for each number of times that they are followed. -/
theorem Circular.exists_loops (hc : c.Named) (h : c.Circular) :
    ∃ d, ∃ loops : Nat → FilterKey, c.find? d.name = some d ∧
      (∀ i, FilterKey.parse (FilterKey.text (loops i)) = loops i ∧
        ∃ f, c.filter d.name (loops i) = .ok (some f) ∧ f.key = FilterKey.text (loops i)) ∧
      ∀ {i j}, loops i = loops j → i = j := by
  obtain ⟨d, aliases, links, hd, hne, hchain⟩ := h
  have hpos : 0 < aliases.length := List.length_pos_iff.2 hne
  let loops : Nat → FilterKey := fun i => (List.replicate (i + 1) aliases).flatten
  have hlength : ∀ i, (loops i).length = (i + 1) * aliases.length := by
    intro i
    simp [loops, List.length_flatten]
  have hnil : ∀ i, loops i ≠ [] := by
    intro i
    have hmore : 0 < (loops i).length := by
      rw [hlength]
      exact Nat.mul_pos (Nat.succ_pos i) hpos
    exact List.length_pos_iff.1 hmore
  refine ⟨d, loops, hd, fun i => ?_, fun {i j} heq => ?_⟩
  · obtain ⟨links', hloops⟩ := hchain.exists_loops (i + 1)
    exact ⟨FilterKey.parse_text (hnil i) hloops.divided, hloops.exists_filter hc hd (hnil i)⟩
  · have hsame : (i + 1) * aliases.length = (j + 1) * aliases.length := by
      rw [← hlength, ← hlength, heq]
    have hsucc : i + 1 = j + 1 := Nat.eq_of_mul_eq_mul_right hpos hsame
    omega

end Catalog

namespace Registry

/-! ## Filters that are kept -/

/-- Each filter is kept under its own key, once. -/
structure Compact (r : Registry) : Prop where
  distinct : (r.filters.map Prod.fst).Nodup
  keyed : ∀ e ∈ r.filters, e.2.key = e.1.2

section Compact

variable {r : Registry} {entity : String}

/-- **Whatever is done with it, a registry is compact.** -/
theorem compact_usedBy (hs : r.Sound) (hr : r.Compact) (uses : List Use) :
    (r.usedBy uses).Compact := by
  have hlasting : Lasting fun r => r.Sound ∧ r.Compact := by
    refine lasting_of_growth (fun parts r s h hr => ?_) fun r s h hr => ?_
    · refine ⟨h.distinct hr.distinct, fun e he => ?_⟩
      obtain ⟨added, hfilters, -, hadded⟩ := h.exists_added
      rw [hfilters] at he
      exact (List.mem_append.1 he).elim (hr.keyed e) fun he => (hadded e he).1
    · exact ⟨h.filters.symm ▸ hr.distinct, fun e he => hr.keyed e (h.filters ▸ he)⟩
  have hclear : Work.Keeps (fun r => r.Sound ∧ r.Compact) clear := fun r hr =>
    ⟨keeps_clear_sound r hr.1, List.nodup_nil, fun e he => absurd he List.not_mem_nil⟩
  exact (hlasting.usedBy (fun _ _ _ => hclear) ⟨hs, hr⟩).2

theorem compact_empty : empty.Compact := ⟨List.nodup_nil, fun _ he => absurd he List.not_mem_nil⟩

/-- **Where no relations lead back, the filters that are kept are among those of the entities.** -/
theorem length_le_of_not_circular (hs : r.Sound) (hr : r.Compact) (h : ¬r.catalog.Circular) :
    r.filters.length ≤ r.catalog.keysOfFilters.length := by
  have hsubset : r.filters.map Prod.fst ⊆ r.catalog.keysOfFilters := by
    intro p hp
    obtain ⟨e, he, rfl⟩ := List.mem_map.1 hp
    have hf := hs.filters e he
    have hk := Catalog.canonical_of_filter (FilterKey.divided_parse e.1.2) hf
    rw [hr.keyed e he] at hk
    obtain ⟨d, hd⟩ := Catalog.exists_of_filter hf
    have hname : d.name = e.1.1 := hs.named _ _ hd
    rw [← hname] at hd hk hf
    have hlength := Catalog.length_le_of_canonical hs.named h hd hk hf
    have hmem := Catalog.mem_filterKeys hs.named hd hk hf hlength
    refine List.mem_flatMap.2 ⟨(d.name, d), Entries.mem_of_find? hd, List.mem_map.2 ⟨_, hmem, ?_⟩⟩
    rw [FilterKey.text_parse, hname]
  have hle := (List.subperm_of_subset hr.distinct hsubset).length_le
  rw [List.length_map] at hle
  exact hle

/-- The requests for the filters of keys of an entity. -/
def requestsFor (entity : String) (keys : List String) : List Use :=
  keys.map fun key => .operation (.filter entity key)

theorem not_registers_of_requestsFor (entity : String) (keys : List String) :
    ∀ use ∈ requestsFor entity keys, ¬use.Registers := by
  rintro use huse ⟨d, rfl⟩
  obtain ⟨key, -, hkey⟩ := List.mem_map.1 huse
  cases hkey

/-- A key that is the own key of its filter is kept as long as nothing is forgotten. -/
theorem mem_filters_usedBy (hs : r.Sound) {keys : List String}
    (h : ∀ key ∈ keys, ∃ f, r.catalog.filter entity (FilterKey.parse key) = .ok (some f) ∧
      f.key = key) :
    ∀ key ∈ keys, (entity, key) ∈ (r.usedBy (requestsFor entity keys)).filters.map Prod.fst := by
  induction keys generalizing r with
  | nil => exact fun key hkey => absurd hkey List.not_mem_nil
  | cons key keys ih =>
    obtain ⟨⟨f, hf, hown⟩, hkeys⟩ := List.forall_mem_cons.1 h
    have hanswers : Answers r.catalog (filter entity (FilterKey.parse key)) _ :=
      answers_filter hs.named (FilterKey.divided_parse key)
    obtain ⟨hresult, hcatalog, hsound⟩ := hanswers r rfl hs
    have hclear : ∀ use ∈ requestsFor entity keys, ¬use.Clears := by
      intro use huse
      obtain ⟨key, -, rfl⟩ := List.mem_map.1 huse
      exact fun hclears => by cases hclears
    refine List.forall_mem_cons.2 ⟨?_, ih hsound (hcatalog.symm ▸ hkeys)⟩
    rcases found_or_wants hs entity (FilterKey.divided_parse key) with
      ⟨f?, hok, hfound⟩ | ⟨err, herr, -⟩
    · rw [hresult, hf] at hok
      cases hok
      have hmem := mem_usedBy hsound hclear (hfound.kept f rfl)
      exact List.mem_map.2 ⟨_, hmem, congrArg (Prod.mk entity) hown⟩
    · rw [hresult, hf] at herr
      cases herr

/-- **Where relations lead back, the keys of requests decide how many filters are kept.** -/
theorem exists_keys_of_circular (hs : r.Sound) (h : r.catalog.Circular) (bound : Nat) :
    ∃ entity keys, bound < (r.usedBy (requestsFor entity keys)).filters.length := by
  obtain ⟨d, loops, hd, hloops⟩ := h.exists_loops hs.named
  -- one key for each number of times that the relations are followed
  let keys := (List.range (bound + 1)).map fun i => FilterKey.text (loops i)
  have hcount : keys.length = bound + 1 := by simp [keys]
  have hkept : ∀ key ∈ keys, ∃ f,
      r.catalog.filter d.name (FilterKey.parse key) = .ok (some f) ∧ f.key = key := by
    intro key hkey
    obtain ⟨i, -, rfl⟩ := List.mem_map.1 hkey
    obtain ⟨hparse, hfilter⟩ := hloops.1 i
    rw [hparse]
    exact hfilter
  have hdistinct : (keys.map fun key => (d.name, key)).Nodup := by
    rw [List.map_map]
    refine List.Nodup.map_on (fun i _ j _ heq => hloops.2 ?_) List.nodup_range
    have htexts : FilterKey.text (loops i) = FilterKey.text (loops j) := congrArg Prod.snd heq
    rw [← (hloops.1 i).1, ← (hloops.1 j).1, htexts]
  have hsubset : (keys.map fun key => (d.name, key)) ⊆
      (r.usedBy (requestsFor d.name keys)).filters.map Prod.fst := by
    intro p hp
    obtain ⟨key, hkey, rfl⟩ := List.mem_map.1 hp
    exact mem_filters_usedBy hs hkept key hkey
  have hle := (List.subperm_of_subset hdistinct hsubset).length_le
  rw [List.length_map, List.length_map (f := Prod.fst), hcount] at hle
  exact ⟨d.name, keys, hle⟩

end Compact

/-- **The filters that are kept are bounded by the entities exactly where no relations lead back.**
Behind any uses, with entities registered, caches cleared and calls failed in between: where no
relations lead from an entity back to it, no requests without registrations, whatever keys they ask
for, make a registry keep more filters than the entities have keys. Where relations lead back, there
are requests for keys that make it keep more filters than any number. -/
theorem filters_bounded_iff (uses : List Use) :
    let r := empty.usedBy uses
    (¬r.catalog.Circular → ∀ requests, (∀ use ∈ requests, ¬use.Registers) →
      (r.usedBy requests).filters.length ≤ r.catalog.keysOfFilters.length) ∧
    (r.catalog.Circular → ∀ bound, ∃ entity keys,
      bound < (r.usedBy (requestsFor entity keys)).filters.length) := by
  intro r
  have hs : r.Sound := sound_usedBy sound_empty uses
  have hr : r.Compact := compact_usedBy sound_empty compact_empty uses
  refine ⟨fun hcircular requests hrequests => ?_, fun hcircular bound => ?_⟩
  · have hcatalog : (r.usedBy requests).catalog = r.catalog := catalog_usedBy hs hrequests
    have hle := length_le_of_not_circular (sound_usedBy hs requests)
      (compact_usedBy hs hr requests) (hcatalog.symm ▸ hcircular)
    rw [hcatalog] at hle
    exact hle
  · exact exists_keys_of_circular hs hcircular bound

/-- Orders lead to customers, and these nowhere: there are four filters. -/
theorem filters_bounded_of_orders :
    let r := empty.usedBy [.operation (.register Entity.order.define),
      .operation (.register Entity.customer.define)]
    ¬r.catalog.Circular ∧
      (r.usedBy (requestsFor "Order" ["buyer$name$first", "status$open", "buyer$", "utm"])
        ).filters.length ≤ 4 := by
  intro r
  have hcustomer : ∀ {a link related},
      ¬r.catalog.Passes Entity.customer.define a link related := by
    rintro a link related ⟨t, entry, relation, -, -, -, hrelation, -⟩
    cases hrelation
  have horder : ∀ {a link related}, r.catalog.Passes Entity.order.define a link related →
      related = Entity.customer.define := by
    rintro a link related ⟨t, entry, relation, -, -, -, hrelation, hrelated, -⟩
    have hmem : (entry.key, relation) ∈ Entity.order.define.relations.entries :=
      Entries.mem_of_find? hrelation
    have hname : relation.related = "Customer" :=
      congrArg Relation.related (Prod.mk.inj (List.mem_singleton.1 hmem)).2
    rw [hname] at hrelated
    exact (Option.some.inj hrelated).symm
  have hend : ∀ {aliases links last},
      r.catalog.Chain Entity.customer.define aliases links last → last = Entity.customer.define := by
    rintro aliases links last (_ | ⟨hb, -⟩)
    · rfl
    · exact absurd hb hcustomer
  have hcircular : ¬r.catalog.Circular := by
    rintro ⟨d, aliases, links, hd, hne, hchain⟩
    cases hchain with
    | here => exact hne rfl
    | step ha hrest =>
      have hmem : (d.name, d) ∈ r.catalog.entries := Entries.mem_of_find? hd
      have hentries : r.catalog.entries = [("Customer", Entity.customer.define),
          ("Order", Entity.order.define)] := by rfl
      rw [hentries] at hmem
      rcases List.mem_cons.1 hmem with heq | hmem
      · cases (Prod.mk.inj heq).2
        exact hcustomer ha
      · cases (Prod.mk.inj (List.mem_singleton.1 hmem)).2
        cases horder ha
        have hname : "Order" = "Customer" := congrArg (fun d => d.name) (hend hrest)
        exact absurd hname (by decide)
  have hkeys : r.catalog.keysOfFilters.length = 4 := by decide +kernel
  have hle := (filters_bounded_iff [.operation (.register Entity.order.define),
    .operation (.register Entity.customer.define)]).1 hcircular _
      (not_registers_of_requestsFor "Order" ["buyer$name$first", "status$open", "buyer$", "utm"])
  exact ⟨hcircular, hkeys ▸ hle⟩

/-- Categories lead to their parents, which are categories: no number bounds their filters. -/
theorem unbounded_of_categories :
    ¬∃ bound, ∀ requests, (∀ use ∈ requests, ¬use.Registers) →
      (ofCategories.usedBy requests).filters.length ≤ bound := by
  rintro ⟨bound, hbound⟩
  let parent : Link := ⟨"parent", "categories", "categories.parent_id", "categories.id", none⟩
  have hpasses : ofCategories.catalog.Passes Entity.category.define "parent" parent
      Entity.category.define :=
    ⟨_, ⟨"parent", some "relation", "parent", some "Category"⟩,
      .plain .owning "parent" "Category" "parent_id" "", rfl, rfl, by decide, rfl, rfl, by decide⟩
  have hcircular : ofCategories.catalog.Circular :=
    ⟨Entity.category.define, ["parent"], [parent], rfl, List.cons_ne_nil _ _, .step hpasses .here⟩
  have hs : ofCategories.Sound := (sound_after _).1
  obtain ⟨entity, keys, hmore⟩ := exists_keys_of_circular hs hcircular bound
  have hless : (ofCategories.usedBy (requestsFor entity keys)).filters.length ≤ bound :=
    hbound _ (not_registers_of_requestsFor entity keys)
  omega

end Registry
end RequestPlan
