import RequestPlan.Proofs.Planner.Lookups
import RequestPlan.Proofs.Registry.Tables

/-!
# Filters and their counts

* `lasting_of_growth`: what the filters of a registry have in common lasts if it stays when filters
  come in.
* `hits_of_kept`: **a filter that is kept is found there**, with one hit and nothing else.
* `Registry.Even`: as many filters are kept as were counted as made, and `even_usedBy`: it stays so
  as long as no filter fails.
* `filters_made_once`: canonical keys are normal forms, and the filter of each is made once.
-/

namespace RequestPlan
namespace Registry

variable {r s : Registry} {parts : Nat} {entity text : String} {key k : FilterKey}
  {f : CompiledFilter} {e : (String × String) × CompiledFilter}

/-! ## What stays when filters come in -/

theorem Fills.mem (h : Fills parts r s) (he : e ∈ r.filters) : e ∈ s.filters := by
  obtain ⟨added, hfilters, -⟩ := h.exists_added
  rw [hfilters]
  exact List.mem_append_left added he

theorem rests_register (r : Registry) (d : Definition) : Rests r (behind r (register d)) := by
  rw [behind_register]
  exact ⟨rfl, rfl, rfl⟩

/-- What a call for a filter leaves behind. -/
theorem found_or_wants (hs : r.Sound) (entity : String) (hkey : key.Divided) :
    (∃ f?, r.result (filter entity key) = .ok f? ∧
      Found key.length entity r f? (behind r (filter entity key))) ∨
    ∃ err, r.result (filter entity key) = .error err ∧
      Wants r (behind r (filter entity key)) := by
  obtain ⟨hok, herr⟩ := fetches_filter hs.named hkey r ⟨rfl, hs⟩ r rfl
  cases hresult : r.result (filter entity key) with
  | ok f? => exact .inl ⟨f?, rfl, hok f? hresult⟩
  | error err => exact .inr ⟨err, rfl, herr err hresult⟩

/-- What stays when filters come in, or are counted only, lasts. -/
theorem lasting_of_growth {P : Registry → Prop}
    (hfills : ∀ parts r s, Fills parts r s → P r → P s) (hwants : ∀ r s, Wants r s → P r → P s) :
    Lasting fun r => r.Sound ∧ P r where
  table entity kind r hr := by
    have hrests := rests_table r entity kind r (Rests.refl r)
    exact ⟨lasting_sound.table entity kind r hr.1, hwants _ _ hrests.wants hr.2⟩
  filter entity key hkey r hr := by
    refine ⟨lasting_sound.filter entity key hkey r hr.1, ?_⟩
    rcases found_or_wants hr.1 entity hkey with ⟨f?, -, hfound⟩ | ⟨err, -, hleft⟩
    · exact hfills _ _ _ hfound.fills hr.2
    · exact hwants _ _ hleft hr.2
  register d r hr := ⟨hr.1.register d, hwants _ _ (rests_register r d).wants hr.2⟩

/-- Filters stay until everything is forgotten. -/
theorem mem_usedBy (hs : r.Sound) {uses : List Use} (hclear : ∀ use ∈ uses, ¬use.Clears)
    (he : e ∈ r.filters) : e ∈ (r.usedBy uses).filters := by
  have hlasting : Lasting fun r => r.Sound ∧ e ∈ r.filters :=
    lasting_of_growth (fun _ _ _ h he => h.mem he) fun _ _ h he => h.filters.symm ▸ he
  exact (hlasting.usedBy (fun use huse hclears => absurd hclears (hclear use huse)) ⟨hs, he⟩).2

/-- No more filters are kept than were counted as made. -/
theorem length_le_usedBy (hs : r.Sound) {uses : List Use} (hclear : ∀ use ∈ uses, ¬use.Clears)
    (hr : r.filters.length ≤ r.counters.filterMisses) :
    (r.usedBy uses).filters.length ≤ (r.usedBy uses).counters.filterMisses := by
  have hlasting : Lasting fun r => r.Sound ∧ r.filters.length ≤ r.counters.filterMisses := by
    refine lasting_of_growth (fun parts r s h hr => ?_) fun r s h hr => ?_
    · obtain ⟨added, hfilters, hmisses, -⟩ := h.exists_added
      rw [hfilters, List.length_append, hmisses]
      omega
    · have hmisses := h.misses
      rw [h.filters]
      omega
  exact (hlasting.usedBy (fun use huse hclears => absurd hclears (hclear use huse)) ⟨hs, hr⟩).2

/-- **A filter that is kept is found there**, with one hit and nothing else, not even a table. -/
theorem hits_of_kept (hs : r.Sound) (hkey : key.Divided)
    (hk : r.catalog.canonical entity key = .ok (some k))
    (hf : ((entity, FilterKey.text k), f) ∈ r.filters) (htables : AllTabled f.entities r) :
    r.result (filter entity key) = .ok (some f) ∧
      (behind r (filter entity key)).tables = r.tables ∧
      (behind r (filter entity key)).filters = r.filters ∧
      (behind r (filter entity key)).counters.filterHits = r.counters.filterHits + 1 ∧
      (behind r (filter entity key)).counters.filterMisses = r.counters.filterMisses := by
  have hof : r.Of r.catalog := ⟨rfl, hs⟩
  have hdirect : r.catalog.filter entity key = .ok (some f) := filter_of_mem hof hkey hk hf
  have hresult : r.result (filter entity key) = .ok (some f) :=
    (answers_filter hs.named hkey r rfl hs).1.trans hdirect
  obtain ⟨parts, hparts⟩ : ∃ parts, key.length = parts + 1 := by
    cases key with
    | nil => cases hk
    | cons a rest => exact ⟨rest.length, rfl⟩
  have hcanonical := (((answers_canonical hs.named hk).triple_at hof
    (brings_canonical hs.named hdirect hof)).and
      ((reads_canonical entity key).keeps (rests_table r))).fail fun _ _ => trivial
  have hstart : ∀ s, s = r → s = r ∧ Rests r s := by
    rintro s rfl
    exact ⟨rfl, Rests.refl s⟩
  -- one step of the search is enough
  have hhit : Work.Triple (fun s => s = r) (filterBy (filterWithin parts) entity key)
      (fun _ s => s.tables = r.tables ∧ s.filters = r.filters ∧
        s.counters.filterHits = r.counters.filterHits + 1 ∧
        s.counters.filterMisses = r.counters.filterMisses) (fun _ => True) := by
    refine (hcanonical.start hstart).bind fun k? => Work.triple_of_forall fun s hs' => ?_
    obtain ⟨⟨hk?, hbrings⟩, hrests⟩ := hs'
    cases hk?
    refine Work.triple_get_bind fun s' hs' => ?_
    subst hs'
    cases hlookup : s'.filters.lookup (entity, FilterKey.text k) with
    | none =>
      have hnone := List.lookup_eq_none_iff.1 hlookup _ (hrests.filters.symm ▸ hf)
      simp at hnone
    | some g =>
      refine ((triple_hit g hrests).imp fun _ t ht => ?_).fail fun _ _ => trivial
      exact ⟨ht.2.1.trans (hbrings.stays htables), ht.2.2⟩
  have hfilter : filter entity key = filterBy (filterWithin parts) entity key := by
    rw [filter, hparts]
    rfl
  have hbehind := (hhit r rfl).1 (some f)
  rw [← hfilter] at hbehind
  exact ⟨hresult, hbehind hresult⟩

/-! ## Runs without failures -/

/-- As many filters are kept as were counted as made. -/
def Even (r : Registry) : Prop := r.filters.length = r.counters.filterMisses

theorem Fills.even (h : Fills parts r s) (hr : r.Even) : s.Even := by
  obtain ⟨added, hfilters, hmisses, -⟩ := h.exists_added
  unfold Even at hr ⊢
  rw [hfilters, List.length_append, hmisses, hr]

end Registry

/-- The registry fails to find a filter that a use asks for: the one of an operation, or one below it,
or one that a call of a planner looks up. -/
def Use.FilterFails (r : Registry) : Use → Prop
  | .operation (.filter entity key) =>
    ∃ err, r.result (Registry.filter entity (FilterKey.parse key)) = .error err
  | .operation (.compile entity key) =>
    Registry.FailsBelow r.catalog entity (FilterKey.parse key)
  | .call p asked => asked.LookupFails (r, p)
  | _ => False

namespace Registry

variable {r : Registry}

theorem even_of_use (hs : r.Sound) (hr : r.Even) {use : Use} (hclear : ¬use.Clears)
    (hfails : ¬use.FilterFails r) : (use.behind r).Even := by
  have hrests : ∀ {s}, Rests r s → s.Even := fun h => (h.fills 0).even hr
  cases use with
  | build p => exact hrests ((Planner.reads_build p).keeps (rests_table r) r (Rests.refl r))
  | call p asked =>
    -- as long as filters are found, they come in as they are counted
    have hcall := Planner.keeps_call_unless (R := fun r => r.Sound ∧ r.Even)
      (fun entity key hkey r hr => by
        refine ⟨fun f? hf? => ⟨lasting_sound.filter entity key hkey r hr.1, ?_⟩,
          fun _ _ => trivial⟩
        have hfound := (fetches_filter hr.1.named hkey r ⟨rfl, hr.1⟩ r rfl).1 f? hf?
        exact hfound.fills.even hr.2)
      (fun entity kind r hr => ⟨lasting_sound.table entity kind r hr.1,
        ((rests_table r entity kind r (Rests.refl r)).fills 0).even hr.2⟩) asked
    exact (hcall (r, p) ⟨hs, hr⟩ hfails).2
  | operation op =>
    cases op with
    | register d => exact hrests (rests_register r d)
    | table entity kind => exact hrests (rests_table r entity kind r (Rests.refl r))
    | clear => exact absurd rfl hclear
    | filter entity key =>
      rcases found_or_wants hs entity (FilterKey.divided_parse key) with
        ⟨f?, -, hfound⟩ | ⟨err, herr, -⟩
      · exact hfound.fills.even hr
      · exact absurd ⟨err, herr⟩ hfails
    | compile entity key =>
      have htail : FilterKey.Divided (FilterKey.parse key).tail :=
        fun part hpart => FilterKey.divided_parse key part (List.mem_of_mem_tail hpart)
      have hcompile : Work.Triple (fun s => s = r) (compile entity (FilterKey.parse key)) _ _ :=
        triple_compileBy ⟨rfl, hs⟩
          fun name => ⟨answers_filter hs.named htail, fetches_filter hs.named htail⟩
      obtain ⟨hok, herr⟩ := hcompile r rfl
      cases hresult : r.result (compile entity (FilterKey.parse key)) with
      | ok f? => exact (hok f? hresult).1.even hr
      | error err =>
        rcases herr err hresult with hrest | ⟨-, hbelow⟩
        · exact hrests hrest
        · exact absurd hbelow hfails

/-- As long as no filter fails, as many filters are kept as were counted as made. -/
theorem even_usedBy (hs : r.Sound) (hr : r.Even) {uses : List Use}
    (hclear : ∀ use ∈ uses, ¬use.Clears)
    (hfails : ∀ front use behind, uses = front ++ use :: behind →
      ¬use.FilterFails (r.usedBy front)) : (r.usedBy uses).Even := by
  induction uses generalizing r with
  | nil => exact hr
  | cons use uses ih =>
    obtain ⟨huse, huses⟩ := List.forall_mem_cons.1 hclear
    have hstep : (use.behind r).Even := even_of_use hs hr huse (hfails [] use uses rfl)
    refine ih (sound_usedBy hs [use]) hstep huses fun front use' behind heq => ?_
    exact hfails (use :: front) use' behind (congrArg (use :: ·) heq)

/-- **Canonical keys are normal forms, and the filter of each is made once.** Behind any uses, with
entities registered, caches cleared and calls failed in between, for every entity and key:

* A canonical form is its own canonical form, its parts are the first parts of the key, and the key
  fails or has a filter with the canonical form as its key. Without a canonical form, or where it
  fails, the filter is missing or fails in the same way.
* A filter that fails brings in none.
* Once a filter was found, all keys with its canonical form find the same one until everything is
  forgotten, with one hit and nothing else.

Without anything forgotten, no more filters are kept than were counted as made, and as many as were
where no filter failed. -/
theorem filters_made_once (uses : List Use) :
    let r := empty.usedBy uses
    (∀ entity text,
      let key := FilterKey.parse text
      (∀ k, r.result (canonical entity key) = .ok (some k) →
        r.result (canonical entity (FilterKey.parse (FilterKey.text k))) = .ok (some k) ∧
        FilterKey.parse (FilterKey.text k) <+: key ∧
        ((∃ err, r.result (filter entity key) = .error err) ∨
          ∃ f, r.result (filter entity key) = .ok (some f) ∧ f.key = FilterKey.text k)) ∧
      (r.result (canonical entity key) = .ok none → r.result (filter entity key) = .ok none) ∧
      (∀ err, r.result (canonical entity key) = .error err →
        r.result (filter entity key) = .error err) ∧
      (∀ err, r.result (filter entity key) = .error err →
        (behind r (filter entity key)).filters = r.filters) ∧
      ∀ f, r.result (filter entity key) = .ok (some f) →
        ∀ later, (∀ use ∈ later, ¬use.Clears) → ∀ text' k,
          let r' := (behind r (filter entity key)).usedBy later
          let again := filter entity (FilterKey.parse text')
          r'.result (canonical entity (FilterKey.parse text')) = .ok (some k) →
          f.key = FilterKey.text k →
            r'.result again = .ok (some f) ∧ (behind r' again).tables = r'.tables ∧
            (behind r' again).filters = r'.filters ∧
            (behind r' again).counters.filterHits = r'.counters.filterHits + 1 ∧
            (behind r' again).counters.filterMisses = r'.counters.filterMisses) ∧
    ((∀ use ∈ uses, ¬use.Clears) →
      r.filters.length ≤ r.counters.filterMisses ∧
      ((∀ front use behind, uses = front ++ use :: behind →
        ¬use.FilterFails (empty.usedBy front)) → r.filters.length = r.counters.filterMisses)) := by
  intro r
  have hs : r.Sound := sound_usedBy sound_empty uses
  have hcanonicalOf : ∀ {r : Registry}, r.Sound → ∀ {entity} {key : FilterKey},
      r.result (canonical entity key) = r.catalog.canonical entity key :=
    fun hs => (answers_canonical hs.named rfl _ rfl hs).1
  refine ⟨fun entity text => ?_, fun hclear => ⟨?_, fun hfails => ?_⟩⟩
  · intro key
    have hkey : key.Divided := FilterKey.divided_parse text
    have hcanonical : r.result (canonical entity key) = r.catalog.canonical entity key :=
      hcanonicalOf hs
    have hfilter : r.result (filter entity key) = r.catalog.filter entity key :=
      (answers_filter hs.named hkey r rfl hs).1
    refine ⟨fun k hk => ?_, fun hnone => ?_, fun err herr => ?_, fun err herr => ?_, ?_⟩
    · rw [hcanonical] at hk
      have hne : k ≠ [] := Catalog.ne_nil_of_isBlank (Catalog.isBlank_canonical hk)
      rw [FilterKey.parse_text hne (Catalog.divided_canonical hkey hk), hcanonicalOf hs, hfilter]
      refine ⟨Catalog.canonical_canonical hk, Catalog.prefix_of_canonical hk, ?_⟩
      cases hf : r.catalog.filter entity key with
      | error err => exact .inl ⟨err, rfl⟩
      | ok f? =>
        cases f? with
        | none => exact absurd hf (Catalog.filter_ne_none hk)
        | some f => exact .inr ⟨f, rfl, Catalog.key_of_filter hk hf⟩
    · rw [hcanonical] at hnone
      rw [hfilter, Catalog.filter_of_canonical hnone (by simp)]
      rfl
    · rw [hcanonical] at herr
      rw [hfilter, Catalog.filter_of_canonical herr (by simp)]
      rfl
    · rcases found_or_wants hs entity hkey with ⟨f?, hok, -⟩ | ⟨err', -, hwants⟩
      · rw [hok] at herr
        cases herr
      · exact hwants.filters
    · intro f hf later hclear text' k r' again hk hfk
      rcases found_or_wants hs entity hkey with ⟨f?, hok, hfound⟩ | ⟨err, herr, -⟩
      · rw [hf] at hok
        cases hok
        -- the filter is kept from the first call on
        have hbehind : (behind r (filter entity key)).Sound :=
          lasting_sound.filter entity key hkey r hs
        have hmem := mem_usedBy hbehind hclear (hfound.kept f rfl)
        have htables : AllTabled f.entities r' := lasting_allTabled.usedBy
          (fun use huse hclears => absurd hclears (hclear use huse))
          (allTabled_of_filter hs hkey hf)
        have hs' : r'.Sound := sound_usedBy hbehind later
        rw [hcanonicalOf hs'] at hk
        exact hits_of_kept hs' (FilterKey.divided_parse text') hk (hfk ▸ hmem) htables
      · rw [hf] at herr
        cases herr
  · exact length_le_usedBy sound_empty hclear (Nat.le_refl 0)
  · exact even_usedBy sound_empty rfl hclear hfails

end Registry
end RequestPlan
