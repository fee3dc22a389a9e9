import RequestPlan.Proofs.Filter.Chains
import RequestPlan.Proofs.Planner.Uses

/-!
# How the filters of a registry grow

* `Rests`, `Fills`, `Wants`: no filter was asked for, filters came in, or none came in although some
  were to be made.
* `fetches_filterBy`, `fetches_filter`: **a filter that is found brings in as many filters as it
  counts as made, and one that fails brings in none**.
-/

namespace RequestPlan
namespace Registry

/-- The filters that are kept for an entity under the texts of keys. -/
abbrev Kept := List ((String × String) × CompiledFilter)

/-- No filter was kept or counted between two registries. -/
structure Rests (r r' : Registry) : Prop where
  filters : r'.filters = r.filters
  hits : r'.counters.filterHits = r.counters.filterHits
  misses : r'.counters.filterMisses = r.counters.filterMisses

/-- Filters came in under keys with no more than so many parts, and each was counted as made. -/
structure Fills (parts : Nat) (r r' : Registry) : Prop where
  exists_added : ∃ added : Kept, r'.filters = r.filters ++ added ∧
    r'.counters.filterMisses = r.counters.filterMisses + added.length ∧
    ∀ e ∈ added, e.2.key = e.1.2 ∧ (FilterKey.parse e.1.2).length ≤ parts
  distinct : (r.filters.map Prod.fst).Nodup → (r'.filters.map Prod.fst).Nodup

/-- Filters may have been counted as made, but none came in. -/
structure Wants (r r' : Registry) : Prop where
  filters : r'.filters = r.filters
  misses : r.counters.filterMisses ≤ r'.counters.filterMisses

section Steps

variable {r s t : Registry} {parts more : Nat}

theorem Rests.refl (r : Registry) : Rests r r := ⟨rfl, rfl, rfl⟩

theorem Rests.fills (h : Rests r s) (parts : Nat) : Fills parts r s where
  exists_added := ⟨[], by rw [h.filters, List.append_nil], h.misses, by simp⟩
  distinct hr := h.filters ▸ hr

theorem Rests.wants (h : Rests r s) : Wants r s := ⟨h.filters, Nat.le_of_eq h.misses.symm⟩

theorem Rests.trans_fills (h : Rests r s) (ht : Fills parts s t) : Fills parts r t where
  exists_added := by
    obtain ⟨added, hfilters, hmisses, hadded⟩ := ht.exists_added
    exact ⟨added, h.filters ▸ hfilters, h.misses ▸ hmisses, hadded⟩
  distinct hr := ht.distinct (h.filters.symm ▸ hr)

theorem Rests.trans_wants (h : Rests r s) (ht : Wants s t) : Wants r t :=
  ⟨ht.filters.trans h.filters, h.misses ▸ ht.misses⟩

theorem Fills.mono (h : Fills parts r s) (hparts : parts ≤ more) : Fills more r s where
  exists_added := by
    obtain ⟨added, hfilters, hmisses, hadded⟩ := h.exists_added
    exact ⟨added, hfilters, hmisses, fun e he =>
      ⟨(hadded e he).1, Nat.le_trans (hadded e he).2 hparts⟩⟩
  distinct := h.distinct

/-- A filter that is counted as made comes in behind those that are made for it. -/
theorem Fills.concat {e : (String × String) × CompiledFilter}
    (h : Fills parts { r with counters :=
      { r.counters with filterMisses := r.counters.filterMisses + 1 } } t)
    (hkey : e.2.key = e.1.2) (hparts : parts < (FilterKey.parse e.1.2).length)
    (hnew : r.filters.lookup e.1 = none) :
    Fills (FilterKey.parse e.1.2).length r { t with filters := t.filters ++ [e] } := by
  obtain ⟨added, hfilters, hmisses, hadded⟩ := h.exists_added
  have hout : e.1 ∉ t.filters.map Prod.fst := by
    rw [hfilters, List.map_append, List.mem_append, not_or]
    refine ⟨fun hold => ?_, fun hfresh => ?_⟩
    · obtain ⟨e', he', heq⟩ := List.mem_map.1 hold
      have hne := List.lookup_eq_none_iff.1 hnew e' he'
      rw [heq] at hne
      simp at hne
    · -- the filters that were made for it have shorter keys
      obtain ⟨e', he', heq⟩ := List.mem_map.1 hfresh
      have hshort : (FilterKey.parse e'.1.2).length ≤ parts := (hadded e' he').2
      rw [heq] at hshort
      omega
  refine ⟨⟨added ++ [e], ?_, ?_, ?_⟩, fun hr => ?_⟩
  · show t.filters ++ [e] = r.filters ++ (added ++ [e])
    rw [hfilters, List.append_assoc]
  · have hcount : t.counters.filterMisses = r.counters.filterMisses + 1 + added.length := hmisses
    rw [List.length_append, List.length_singleton]
    show t.counters.filterMisses = _
    omega
  · intro e' he'
    rcases List.mem_append.1 he' with he' | he'
    · obtain ⟨hown, hshort⟩ := hadded e' he'
      exact ⟨hown, by omega⟩
    · cases List.mem_singleton.1 he'
      exact ⟨hkey, Nat.le_refl _⟩
  · show ((t.filters ++ [e]).map Prod.fst).Nodup
    rw [List.map_append, List.nodup_append]
    refine ⟨h.distinct hr, List.pairwise_singleton _ _, fun a ha b hb hab => ?_⟩
    cases List.mem_singleton.1 hb
    exact hout (hab ▸ ha)

end Steps

/-! ## Work that rests -/

section Work

variable {r : Registry} {c : Catalog} {entity : String} {key k : FilterKey} {parts : Nat}

theorem rests_table (r : Registry) (entity : String) (kind : Kind) :
    Work.Keeps (Rests r) (table entity kind) := by
  unfold table
  refine Work.keeps_get.bind fun s => ?_
  split
  · exact (Work.keeps_modify fun _ hs => ⟨hs.filters, hs.hits, hs.misses⟩).bind
      fun _ => Work.keeps_pure _
  · refine (Work.keeps_modify fun _ hs => ⟨hs.filters, hs.hits, hs.misses⟩).bind fun _ => ?_
    have hdefinition : Work.Keeps (Rests r) (definition entity) :=
      Work.keeps_get.bind fun _ => Work.keeps_of _
    exact hdefinition.bind fun d => (Work.keeps_of _).bind fun t =>
      (Work.keeps_modify fun _ hs => ⟨hs.filters, hs.hits, hs.misses⟩).bind
        fun _ => Work.keeps_pure t

/-- At rest, a registry is sound and of the same catalog. -/
def AtRest (c : Catalog) (r s : Registry) : Prop := s.Of c ∧ Rests r s

theorem Answers.atRest {α : Type} {m : RegistryM α} {x : Except Error α} (h : Answers c m x)
    (hm : Reads m) :
    Work.Triple (AtRest c r) m (fun a s => AtRest c r s ∧ x = .ok a) (AtRest c r) :=
  (h.triple.and (hm.keeps (rests_table r))).imp fun _ _ hs => ⟨⟨hs.1.1, hs.2⟩, hs.1.2⟩

/-- What is known of the result of work, and of the registry behind it. -/
theorem Answers.triple_at {α : Type} {m : RegistryM α} {x : Except Error α}
    {Q : α → Registry → Prop} {E : Registry → Prop} (h : Answers c m x) (hr : r.Of c)
    (hm : Work.Triple (fun s => s = r) m Q E) :
    Work.Triple (fun s => s = r) m (fun a s => x = .ok a ∧ Q a s)
      fun s => (∃ err, x = .error err) ∧ E s := by
  rintro s rfl
  obtain ⟨hok, herr⟩ := hm s rfl
  have hresult : s.result m = x := (h s hr.1 hr.2).1
  exact ⟨fun a ha => ⟨hresult.symm.trans ha, hok a ha⟩,
    fun err he => ⟨⟨err, hresult.symm.trans he⟩, herr err he⟩⟩

/-! ## Filters that come in -/

/-- Behind a key of so many parts, filters came in, and the one that was found is kept. -/
structure Found (parts : Nat) (entity : String) (r : Registry) (f? : Option CompiledFilter)
    (s : Registry) : Prop where
  fills : Fills parts r s
  kept : ∀ f, f? = some f → ((entity, f.key), f) ∈ s.filters

/-- A key brings in the filter that it stands for, and none if it fails. -/
def Fetches (c : Catalog) (find : FilterFinder) (entity : String) (key : FilterKey) : Prop :=
  ∀ r : Registry, r.Of c →
    Work.Triple (fun s => s = r) (find entity key) (Found key.length entity r) (Wants r)

/-- The filter on related rows fails that a key asks for. -/
def FailsBelow (c : Catalog) (entity : String) (key : FilterKey) : Prop :=
  ∃ d a rest link related, c.find? entity = some d ∧ key = a :: rest ∧
    c.Passes d a link related ∧ FilterKey.isBlank rest = false ∧
    ∃ err, c.filter related.name rest = .error err

/-- A filter that is made anew has the key that it is made for, and brings in those below it. Only
where one of these fails, more may be counted than comes in. -/
theorem triple_compileBy {find : FilterFinder} (hr : r.Of c)
    (hfind : ∀ name, Answers c (find name k.tail) (c.filter name k.tail) ∧
      Fetches c find name k.tail) :
    Work.Triple (fun s => s = r) (compileBy find entity k)
      (fun f? s => Fills (k.length - 1) r s ∧ ∀ f, f? = some f → f.key = FilterKey.text k)
      (fun s => Rests r s ∨ Wants r s ∧ FailsBelow c entity k) := by
  have hrests : ∀ s, AtRest c r s → Rests r s ∨ Wants r s ∧ FailsBelow c entity k :=
    fun s hs => .inl hs.2
  have hstart : ∀ s, s = r → AtRest c r s := by
    rintro s rfl
    exact ⟨hr, Rests.refl s⟩
  refine Work.Triple.start ?_ hstart
  unfold compileBy
  cases k with
  | nil => exact Work.triple_pure fun s hs => ⟨hs.2.fills _, fun f hf => by cases hf⟩
  | cons a rest =>
    refine (((answers_definition rfl).atRest (reads_definition entity)).fail hrests).bind
      fun d => Work.triple_and fun hget => ?_
    refine (((answers_table rfl).atRest (.table entity .filterable)).fail hrests).bind
      fun t => Work.triple_and fun ht => ?_
    rw [Catalog.table_of_get hget] at ht
    split
    · exact Work.triple_pure fun s hs => ⟨hs.2.fills _, fun f hf => by cases hf⟩
    · rename_i entry hentry
      split
      · rename_i hmode
        refine (((answers_filterLink rfl).atRest (reads_filterLink d entry.key)).fail hrests).bind
          fun p => Work.triple_and fun hlink => ?_
        obtain ⟨link, related⟩ := p
        obtain ⟨relation, hrelation, hrelated, hlink⟩ := Catalog.filterLink_eq_ok_iff.1 hlink
        have hpasses : c.Passes d a link related :=
          ⟨t, entry, relation, ht, hentry, hmode, hrelation, hrelated, hlink⟩
        dsimp only
        split
        · refine Work.triple_pure fun s hs => ⟨hs.2.fills _, fun f hf => ?_⟩
          cases hf
          rfl
        · rename_i hblank
          -- what comes in with the filter on the related rows comes in with this one
          have hchild : Work.Triple (AtRest c r) (find related.name rest)
              (fun _ => Fills rest.length r)
              (fun s => Rests r s ∨ Wants r s ∧ FailsBelow c entity (a :: rest)) := by
            refine Work.triple_of_forall fun s hs => ?_
            obtain ⟨hanswers, hfetches⟩ := hfind related.name
            refine ((hanswers.triple_at hs.1 (hfetches s hs.1)).imp
              fun _ t ht => hs.2.trans_fills ht.2.fills).fail fun t ht => .inr ⟨?_, ?_⟩
            · exact hs.2.trans_wants ht.2
            · exact ⟨d, a, rest, link, related, Catalog.get_eq_ok_iff.1 hget, rfl, hpasses,
                Bool.eq_false_iff.2 hblank, ht.1⟩
          refine hchild.bind fun child? => Work.triple_pure fun s hs => ⟨hs, fun f hf => ?_⟩
          obtain ⟨child, -, rfl⟩ := Option.map_eq_some_iff.1 hf
          rfl
      · refine Work.triple_pure fun s hs => ⟨hs.2.fills _, fun f hf => ?_⟩
        cases hf
        exact key_columnFilter d (a :: rest) a entry

/-- The registry with a filter more counted as made. -/
def missed (r : Registry) : Registry :=
  { r with counters := { r.counters with filterMisses := r.counters.filterMisses + 1 } }

theorem Of.missed (hr : r.Of c) : r.missed.Of c := ⟨hr.1, hr.2.named, hr.2.tables, hr.2.filters⟩

theorem Wants.of_missed {s : Registry} (h : Wants r.missed s) : Wants r s := by
  have hmisses : r.counters.filterMisses + 1 ≤ s.counters.filterMisses := h.misses
  exact ⟨h.filters, by omega⟩

/-- A filter that is not kept is made and kept. -/
theorem found_of_make {m : RegistryM (Option CompiledFilter)} (hk : k ≠ []) (hdivided : k.Divided)
    (hlookup : r.filters.lookup (entity, FilterKey.text k) = none)
    (hm : Work.Triple (fun s => s = r.missed) m
      (fun f? s => (∃ f, f? = some f ∧ f.key = FilterKey.text k) ∧ Fills (k.length - 1) r.missed s)
      (Wants r.missed)) :
    Work.Triple (fun s => s = r)
      (do
        count fun n => { n with filterMisses := n.filterMisses + 1 }
        match ← m with
        | none => return none
        | some f =>
          modify fun r => { r with filters := r.filters ++ [((entity, FilterKey.text k), f)] }
          return some f)
      (Found k.length entity r) (Wants r) := by
  have hmiss : Work.Triple (fun s => s = r)
      (count fun n => { n with filterMisses := n.filterMisses + 1 }) (fun _ s => s = r.missed)
      (Wants r) := Work.triple_modify fun s hs => hs ▸ rfl
  refine hmiss.bind fun _ => (hm.fail fun s hs => hs.of_missed).bind fun f? => ?_
  refine Work.Triple.start (Work.triple_and fun hf => ?_) fun s hs => hs.symm
  obtain ⟨f, rfl, hkey⟩ := hf
  have hparse : FilterKey.parse (FilterKey.text k) = k := FilterKey.parse_text hk hdivided
  have hpos : 0 < k.length := List.length_pos_iff.2 hk
  have hlast : Work.Triple (Fills (k.length - 1) r.missed)
      (modify fun r => { r with filters := r.filters ++ [((entity, FilterKey.text k), f)] })
      (fun _ => Found k.length entity r (some f)) (Wants r) := by
    refine Work.triple_modify fun s hs => ⟨?_, fun g hg => ?_⟩
    · have hconcat : Fills (FilterKey.parse (FilterKey.text k)).length r _ :=
        Fills.concat (e := ((entity, FilterKey.text k), f)) hs hkey (by rw [hparse]; omega) hlookup
      rw [hparse] at hconcat
      exact hconcat
    · cases hg
      exact List.mem_append_right _ (hkey ▸ List.mem_singleton_self _)
  exact hlast.bind fun _ => Work.triple_pure fun s hs => hs

/-- A filter that is kept is found there, and counted as found. -/
theorem triple_hit {s : Registry} (f : CompiledFilter) (hs : Rests r s) :
    Work.Triple (fun t => t = s)
      (do
        count fun n => { n with filterHits := n.filterHits + 1 }
        return some f)
      (fun f? t => f? = some f ∧ t.tables = s.tables ∧ t.filters = r.filters ∧
        t.counters.filterHits = r.counters.filterHits + 1 ∧
        t.counters.filterMisses = r.counters.filterMisses)
      (Wants r) := by
  have hhit : Work.Triple (fun t => t = s)
      (count fun n => { n with filterHits := n.filterHits + 1 })
      (fun _ t => t.tables = s.tables ∧ t.filters = r.filters ∧
        t.counters.filterHits = r.counters.filterHits + 1 ∧
        t.counters.filterMisses = r.counters.filterMisses) (Wants r) := by
    refine Work.triple_modify fun t ht => ?_
    subst ht
    exact ⟨rfl, hs.filters, congrArg (· + 1) hs.hits, hs.misses⟩
  exact hhit.bind fun _ => Work.triple_pure fun t ht => ⟨rfl, ht⟩

/-- A filter that is kept under the canonical form of a key is the one of the key. -/
theorem filter_of_mem {f : CompiledFilter} (hr : r.Of c) (hkey : key.Divided)
    (hk : c.canonical entity key = .ok (some k)) (hf : ((entity, FilterKey.text k), f) ∈ r.filters) :
    c.filter entity key = .ok (some f) := by
  have hne : k ≠ [] := Catalog.ne_nil_of_isBlank (Catalog.isBlank_canonical hk)
  have hkept : r.catalog.filter entity (FilterKey.parse (FilterKey.text k)) = .ok (some f) :=
    hr.2.filters _ hf
  rw [FilterKey.parse_text hne (Catalog.divided_canonical hkey hk), hr.1,
    Catalog.filter_canonical hk] at hkept
  exact hkept

/-- A filter that is kept, or made and counted. -/
theorem fetches_filterBy {find : FilterFinder} (hc : c.Named) (hkey : key.Divided)
    (hfind : ∀ rest : FilterKey, rest.Divided → rest.length < key.length → ∀ name,
      Answers c (find name rest) (c.filter name rest) ∧ Fetches c find name rest) :
    Fetches c (filterBy find) entity key := by
  intro r hr
  have hstart : ∀ s, s = r → AtRest c r s := by
    rintro s rfl
    exact ⟨hr, Rests.refl s⟩
  refine Work.Triple.start ?_ hstart
  refine (((answers_canonical hc rfl).atRest (reads_canonical entity key)).fail
    fun s hs => hs.2.wants).bind fun k? => Work.triple_and fun hk => ?_
  cases k? with
  | none => exact Work.triple_pure fun s hs => ⟨hs.2.fills _, fun f hf => by cases hf⟩
  | some k =>
    have hne : k ≠ [] := Catalog.ne_nil_of_isBlank (Catalog.isBlank_canonical hk)
    have hlength : k.length ≤ key.length := Catalog.length_canonical hk
    have hdivided : k.Divided := Catalog.divided_canonical hkey hk
    refine Work.triple_get_bind fun s hs => ?_
    obtain ⟨hof, hrests⟩ := hs
    cases hlookup : s.filters.lookup (entity, FilterKey.text k) with
    | some f =>
      obtain ⟨l₁, l₂, hfilters, -⟩ := List.lookup_eq_some_iff.1 hlookup
      have hmem : ((entity, FilterKey.text k), f) ∈ s.filters := by simp [hfilters]
      have hown : f.key = FilterKey.text k :=
        Catalog.key_of_filter hk (filter_of_mem hof hkey hk hmem)
      refine (triple_hit f hrests).imp fun f? t ht => ?_
      obtain ⟨rfl, -, hkept, -, hmisses⟩ := ht
      refine ⟨⟨⟨[], by simpa using hkept, hmisses, by simp⟩, fun hr => hkept ▸ hr⟩, fun g hg => ?_⟩
      cases hg
      rw [hown, hkept, ← hrests.filters]
      exact hmem
    | none =>
      -- what the filter is made of stands behind the first part of the key
      have htail : FilterKey.Divided k.tail :=
        fun part hpart => hdivided part (List.mem_of_mem_tail hpart)
      have hshort : k.tail.length < key.length := by
        have hpos : 0 < k.length := List.length_pos_iff.2 hne
        rw [List.length_tail]
        omega
      have hanswers : Answers c (compileBy find entity k) (c.filter entity key) := by
        rw [← compile_canonical hk]
        refine answers_compileBy fun rest hrest _ name => ?_
        subst hrest
        exact (hfind _ htail hshort name).1
      have hcompile := hanswers.triple_at hof.missed
        (triple_compileBy hof.missed fun name => hfind _ htail hshort name)
      have hmade : Work.Triple (fun t => t = s.missed) (compileBy find entity k)
          (fun f? t => (∃ f, f? = some f ∧ f.key = FilterKey.text k) ∧
            Fills (k.length - 1) s.missed t) (Wants s.missed) := by
        refine (hcompile.imp fun f? t ht => ?_).fail fun t ht => ht.2.elim Rests.wants And.left
        obtain ⟨hf, hfills, hown⟩ := ht
        cases f? with
        | none => exact absurd hf (Catalog.filter_ne_none hk)
        | some f => exact ⟨⟨f, rfl, hown f rfl⟩, hfills⟩
      refine ((found_of_make hne hdivided hlookup hmade).imp fun f? t ht => ?_).fail
        fun t ht => hrests.trans_wants ht
      exact ⟨hrests.trans_fills (ht.fills.mono hlength), ht.kept⟩

/-- **A filter that is found brings in as many filters as it counts as made, and one that fails
brings in none.** -/
theorem fetches_filter (hc : c.Named) (hkey : key.Divided) : Fetches c filter entity key := by
  have hwithin : ∀ parts (key : FilterKey) entity, key.Divided → key.length ≤ parts →
      Fetches c (filterWithin parts) entity key := by
    intro parts
    induction parts with
    | zero =>
      intro key entity _ hparts r hr
      refine Work.triple_pure fun s hs => ?_
      subst hs
      exact ⟨(Rests.refl s).fills _, fun f hf => by cases hf⟩
    | succ parts ih =>
      intro key entity hkey hparts
      refine fetches_filterBy hc hkey fun rest hrest hlength name => ?_
      have hrests : rest.length ≤ parts := by omega
      exact ⟨answers_filterWithin hc hrest hrests, ih rest name hrest hrests⟩
  exact hwithin key.length key entity hkey (Nat.le_refl _)

end Work
end Registry
end RequestPlan
