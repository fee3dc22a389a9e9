import RequestPlan.Proofs.Registry.Growth

/-!
# Tables that filters are found with

* `CompiledFilter.entities`: the entities along a filter, and `Registry.Brings`: tables of entities
  are kept behind some work, which changes nothing where they were kept before.
* `brings_canonical`: the canonical form of a key is found with the tables along its filter.
* `allTabled_of_filter`: **behind a filter that was found, the tables along it are kept**, so that no
  more are needed to find it again.
-/

namespace RequestPlan

/-- The entities along a filter. -/
def CompiledFilter.entities : CompiledFilter → List String
  | .relatedWhere entity _ _ child => entity :: child.entities
  | .column entity _ _ _ | .hook entity _ _ _ _ | .related entity _ _ => [entity]

namespace Registry

theorem entities_columnFilter (d : Definition) (key : FilterKey) (a : String) (entry : Entry) :
    (columnFilter d key a entry).entities = [d.name] := by
  unfold columnFilter
  dsimp only
  split <;> rfl

/-- The table for filters of an entity is kept. -/
def Tabled (r : Registry) (name : String) : Prop := ∃ t, ((name, Kind.filterable), t) ∈ r.tables

/-- Behind some work, the tables of entities are kept besides those that were. Where they were kept,
nothing changes. -/
structure Brings (names : List String) (r s : Registry) : Prop where
  tabled : ∀ name ∈ names, s.Tabled name
  stays : (∀ name ∈ names, r.Tabled name) → s.tables = r.tables
  grows : ∀ e ∈ r.tables, e ∈ s.tables

section Brings

variable {r s t : Registry} {names more : List String} {c : Catalog}

theorem Brings.append (h : Brings names r s) (h' : Brings more s t) :
    Brings (names ++ more) r t where
  tabled name hname := by
    rcases List.mem_append.1 hname with hname | hname
    · obtain ⟨table, htable⟩ := h.tabled name hname
      exact ⟨table, h'.grows _ htable⟩
    · exact h'.tabled name hname
  stays hall := by
    have hfirst : s.tables = r.tables :=
      h.stays fun name hname => hall name (List.mem_append_left more hname)
    have hrest : ∀ name ∈ more, s.Tabled name := by
      intro name hname
      unfold Tabled
      rw [hfirst]
      exact hall name (List.mem_append_right names hname)
    exact (h'.stays hrest).trans hfirst
  grows e he := h'.grows e (h.grows e he)

theorem brings_table (entity : String) :
    Work.Triple (fun s => s = r) (table entity .filterable) (fun _ => Brings [entity] r)
      fun _ => True := by
  unfold table
  refine Work.triple_get_bind fun s hs => ?_
  subst hs
  cases hlookup : s.tables.lookup (entity, .filterable) with
  | some t =>
    obtain ⟨l₁, l₂, htables, -⟩ := List.lookup_eq_some_iff.1 hlookup
    have hmem : ((entity, Kind.filterable), t) ∈ s.tables := by simp [htables]
    have hhit : Work.Triple (fun s' => s' = s)
        (count fun n => { n with tableHits := n.tableHits + 1 }) (fun _ => Brings [entity] s)
        fun _ => True := by
      refine Work.triple_modify fun s' hs' => ?_
      subst hs'
      refine ⟨fun name hname => ?_, fun _ => rfl, fun e he => he⟩
      cases List.mem_singleton.1 hname
      exact ⟨t, hmem⟩
    exact hhit.bind fun _ => Work.triple_pure fun _ hs => hs
  | none =>
    have hnew : ¬s.Tabled entity := by
      rintro ⟨t, ht⟩
      have hne := List.lookup_eq_none_iff.1 hlookup _ ht
      simp at hne
    have hsame : Work.Keeps (fun s' => s'.tables = s.tables)
        (count fun n => { n with tableMisses := n.tableMisses + 1 }) :=
      Work.keeps_modify fun _ hs' => hs'
    have hdefinition : Work.Keeps (fun s' : Registry => s'.tables = s.tables) (definition entity) :=
      Work.keeps_get.bind fun _ => Work.keeps_of _
    have hstart : ∀ s', s' = s → s'.tables = s.tables := fun s' hs' => hs' ▸ rfl
    refine Work.Triple.start ?_ hstart
    refine (hsame.triple.fail fun _ _ => trivial).bind fun _ => ?_
    refine (hdefinition.triple.fail fun _ _ => trivial).bind fun d => ?_
    refine ((Work.keeps_of _).triple.fail fun _ _ => trivial).bind fun t => ?_
    have hkeep : Work.Triple (fun s' : Registry => s'.tables = s.tables)
        (modify fun r => { r with tables := r.tables ++ [((entity, Kind.filterable), t)] })
        (fun _ => Brings [entity] s) fun _ => True := by
      refine Work.triple_modify fun s' hs' => ⟨fun name hname => ?_, fun hall => ?_, fun e he => ?_⟩
      · cases List.mem_singleton.1 hname
        exact ⟨t, List.mem_append_right _ (List.mem_singleton_self _)⟩
      · exact absurd (hall entity (List.mem_singleton_self entity)) hnew
      · exact List.mem_append_left _ (hs' ▸ he)
    exact hkeep.bind fun _ => Work.triple_pure fun _ hs => hs

/-- The table of an entity is brought in by the table work, with its result. -/
theorem brings_answer (hr : r.Of c) (entity : String) :
    Work.Triple (fun s => s = r) (table entity .filterable)
      (fun t s => c.table entity .filterable = .ok t ∧ Brings [entity] r s ∧ s.Of c)
      fun _ => True := by
  have hanswers : Answers c (table entity .filterable) (c.table entity .filterable) :=
    answers_table rfl
  have hbrings := (hanswers.triple_at hr (brings_table entity)).and hanswers.keeps
  have hstart : ∀ s, s = r → s = r ∧ s.Of c := fun s hs => ⟨hs, hs ▸ hr⟩
  exact ((hbrings.start hstart).imp fun t s hs => ⟨hs.1.1, hs.1.2, hs.2⟩).fail fun _ _ => trivial

theorem triple_definition {name : String} {d : Definition} (hr : r.Of c) (h : c.get name = .ok d) :
    Work.Triple (fun s => s = r) (definition name) (fun d' s => s = r ∧ d = d') fun _ => True := by
  rintro s rfl
  have hrun : (definition name).run.run s = (.ok d, s) := by
    show (Work.of (s.catalog.get name)).run.run s = _
    rw [hr.1, h]
    rfl
  rw [hrun]
  exact ⟨fun d' hd' => ⟨rfl, Except.ok.inj hd'⟩, fun _ _ => trivial⟩

/-- **The canonical form of a key with a filter is found with the tables along the filter.** -/
theorem brings_canonical (hc : c.Named) {entity : String} {key : FilterKey} {f : CompiledFilter}
    (hf : c.filter entity key = .ok (some f)) (hr : r.Of c) :
    Work.Triple (fun s => s = r) (canonical entity key) (fun _ => Brings f.entities r)
      fun _ => True := by
  induction key generalizing entity f r with
  | nil => cases hf
  | cons a rest ih =>
    refine (brings_answer hr entity).bind fun t => Work.triple_of_forall fun s hs => ?_
    obtain ⟨ht, hbrings, hs⟩ := hs
    obtain ⟨d, hget, hentry?⟩ := @Catalog.entry?_of_table c entity a t ht
    have hname : d.name = entity := hc _ _ (Catalog.get_eq_ok_iff.1 hget)
    have hpure : ∀ k?, f.entities = [entity] → Work.Triple (fun s' => s' = s)
        (pure k? : RegistryM (Option FilterKey)) (fun _ => Brings f.entities r) fun _ => True :=
      fun k? hentities => Work.triple_pure fun s' hs' => by
        rw [hs', hentities]
        exact hbrings
    cases hentry : t.find? a with
    | none =>
      rw [hentry] at hentry?
      rw [Catalog.filter, hentry?] at hf
      cases hf
    | some entry =>
      rw [hentry] at hentry?
      dsimp only
      by_cases hmode : Mode.parse entry.mode = .relation
      · cases hlink : c.filterLink d entry.key with
        | error err =>
          rw [Catalog.filter_of_broken _ hentry? hmode hlink] at hf
          cases hf
        | ok p =>
          obtain ⟨link, related⟩ := p
          cases hrest : FilterKey.isBlank rest with
          | true =>
            rw [Catalog.filter_of_related hentry? hmode hlink hrest] at hf
            cases hf
            rw [if_pos (.inr rfl)]
            exact hpure _ (congrArg (fun name => [name]) hname)
          | false =>
            -- the tables behind the relation come in, too
            rw [Catalog.filter_of_followed hentry? hmode hlink hrest] at hf
            obtain ⟨child, hchild, rfl⟩ := Catalog.map_eq_ok_some hf
            obtain ⟨relation, hrelation, hrelated, -⟩ := Catalog.filterLink_eq_ok_iff.1 hlink
            have hname' : related.name = relation.related := hc _ _ hrelated
            have hstop : ¬(relation.kind = .manyToMany ∨ c.contains relation.related = false) := by
              intro hstop
              obtain ⟨err, herr⟩ := Catalog.filterLink_of_stop hrelation hstop
              rw [hlink] at herr
              cases herr
            rw [if_neg (by simp [hmode])]
            refine (triple_definition hs hget).bind fun d' => ?_
            refine Work.Triple.start (Work.triple_and fun hd' => ?_) fun _ hs' => hs'
            subst hd'
            rw [hrelation]
            refine Work.triple_get_bind fun s' hs' => ?_
            subst hs'
            rw [hs.1, if_neg hstop, ← hname']
            refine (ih hchild hs).bind fun k? => Work.triple_pure fun s'' hs'' => ?_
            have hall := hbrings.append hs''
            rw [← hname] at hall
            exact hall
      · rw [Catalog.filter_of_column _ hentry? hmode] at hf
        cases hf
        rw [if_pos (.inl hmode)]
        exact hpure _ (by rw [entities_columnFilter, hname])

end Brings

/-! ## Tables that stay -/

section Tabled

variable {r : Registry} {names : List String} {entity : String} {key k : FilterKey}
  {find : FilterFinder} {f : CompiledFilter} {P E : Registry → Prop}

/-- The tables for filters of some entities are kept. -/
def AllTabled (names : List String) (r : Registry) : Prop := ∀ name ∈ names, r.Tabled name

theorem tabled_count (g : Counters → Counters) : Work.Keeps (AllTabled names) (count g) :=
  fun _ hs => hs

theorem tabled_table (entity : String) (kind : Kind) :
    Work.Keeps (AllTabled names) (table entity kind) := by
  have hmore : ∀ e, Work.Keeps (AllTabled names) (modify fun r : Registry =>
      { r with tables := r.tables ++ [e] }) := fun e => Work.keeps_modify fun r hr name hname => by
    obtain ⟨t, ht⟩ := hr name hname
    exact ⟨t, List.mem_append_left _ ht⟩
  unfold table
  refine Work.keeps_get.bind fun s => ?_
  split
  · exact (tabled_count _).bind fun _ => Work.keeps_pure _
  · have hdefinition : Work.Keeps (AllTabled names) (definition entity) :=
      Work.keeps_get.bind fun _ => Work.keeps_of _
    exact (tabled_count _).bind fun _ => hdefinition.bind fun d =>
      (Work.keeps_of _).bind fun t => (hmore _).bind fun _ => Work.keeps_pure t

/-- Tables stay when a filter is found behind its canonical form. -/
theorem tabled_filterBy (hE : ∀ s, AllTabled names s → E s)
    (hcanonical : Work.Triple P (canonical entity key) (fun _ => AllTabled names) E)
    (hfind : ∀ name rest, Work.Keeps (AllTabled names) (find name rest)) :
    Work.Triple P (filterBy find entity key) (fun _ => AllTabled names) E := by
  refine hcanonical.bind fun k? => ?_
  cases k? with
  | none => exact Work.triple_pure fun _ hs => hs
  | some k =>
    refine Work.Triple.fail (Work.Keeps.triple ?_) hE
    refine Work.keeps_get.bind fun s => ?_
    split
    · exact (tabled_count _).bind fun _ => Work.keeps_pure _
    · refine (tabled_count _).bind fun _ => ?_
      refine (keeps_compileBy tabled_table (fun _ => hfind _ _) entity).bind fun f? => ?_
      split
      · exact Work.keeps_pure _
      · have hkept : ∀ e, Work.Keeps (AllTabled names) (modify fun r : Registry =>
            { r with filters := r.filters ++ [e] }) := fun _ _ hs => hs
        exact (hkept _).bind fun _ => Work.keeps_pure _

theorem tabled_filterWithin (parts : Nat) (entity : String) (key : FilterKey) :
    Work.Keeps (AllTabled names) (filterWithin parts entity key) := by
  induction parts generalizing entity key with
  | zero => exact Work.keeps_pure none
  | succ parts ih =>
    exact (tabled_filterBy (fun _ hs => hs)
      ((reads_canonical entity key).keeps tabled_table).triple ih).keeps

theorem lasting_allTabled : Lasting (AllTabled names) where
  table := tabled_table
  filter entity key _ := tabled_filterWithin key.length entity key
  register d r hr := by
    rw [show ((register d).run.run r).2 = behind r (register d) from rfl, behind_register]
    exact hr

/-- Behind a filter that was found, the tables along it are kept. -/
theorem allTabled_of_filter (hs : r.Sound) (hkey : key.Divided)
    (hf : r.result (filter entity key) = .ok (some f)) :
    AllTabled f.entities (behind r (filter entity key)) := by
  have hdirect : r.catalog.filter entity key = .ok (some f) :=
    (answers_filter hs.named hkey r rfl hs).1.symm.trans hf
  obtain ⟨parts, hparts⟩ : ∃ parts, key.length = parts + 1 := by
    cases key with
    | nil => cases hdirect
    | cons a rest => exact ⟨rest.length, rfl⟩
  have hbrings := (brings_canonical hs.named hdirect ⟨rfl, hs⟩).imp fun _ s hs => hs.tabled
  have hfilter := tabled_filterBy (fun _ _ => trivial) hbrings (tabled_filterWithin parts)
  have hbehind := (hfilter r rfl).1 (some f)
  rw [filter, hparts] at hf ⊢
  exact hbehind hf

end Tabled

end Registry
end RequestPlan
