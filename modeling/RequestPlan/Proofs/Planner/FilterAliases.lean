import RequestPlan.Proofs.Filter.Chains
import RequestPlan.Proofs.Planner.Failures
import RequestPlan.Proofs.Planner.Runs
import RequestPlan.Proofs.Text.Marks

/-!
# Filters by the aliases of an entity

* `Planner.taking`: what becomes of a planner that applies a filter to a value.
* `branches_eq_singleton_iff`: a key is read as one filter exactly when `_or_` is not in it.
* `filterKey_of_alias`: **an alias without `_or_` has the effect of its own filter**. An alias with
  `_or_` is never looked up, and nothing is said when its parts are no aliases either.
-/

namespace RequestPlan

namespace Planner

variable {r : Registry} {d : Definition} {s : Registry × Planner} {a : String} {v : Value}

/-! ## Branches of a key -/

theorem not_mem_branches (h : "_or_".toList <:+: a.toList) : a ∉ branches a :=
  fun hmem => Text.not_infix_of_mem_splitOnMark (by decide) hmem h

/-- **A key is its only branch exactly when it has no `_or_`.** -/
theorem branches_eq_singleton_iff : branches a = [a] ↔ ¬ "_or_".toList <:+: a.toList := by
  constructor
  · intro hbranches hinfix
    exact not_mem_branches hinfix (hbranches ▸ List.mem_singleton_self a)
  · exact Text.splitOnMark_of_not_infix

theorem parse_of_mem_branches {key : String} (ha : '$' ∉ a.toList) (hkey : key ∈ branches a) :
    FilterKey.parse key = [key] :=
  Text.splitOn_of_not_mem (Text.not_mem_of_mem_splitOnMark hkey ha)

/-! ## Filters on a planner -/

/-- What becomes of a planner when a filter has made something of a value. Joins stay when the
filter fails, and the predicate, if any, comes behind the others. -/
def answering (p : Planner) : Except Error (Option Predicate) × Joins → Except Error Unit × Planner
  | (.error err, js) => (.error err, { p with joins := js })
  | (.ok predicate, js) =>
    (.ok (), { p with joins := js, filters := p.filters ++ predicate.toList })

/-- What becomes of a planner that applies the filter it has found to a value. -/
def taking (p : Planner) (c : Catalog) (v : Value) :
    Except Error (Option CompiledFilter) → Except Error Unit × Planner
  | .error err => (.error err, p)
  | .ok none => (.ok (), p)
  | .ok (some f) => p.answering ((f.apply c p.entity p.settings v).run.run p.joins)

/-- A planner that looks up the filter of a key and applies it to a value: what it answers, and the
registry and the planner behind that. -/
def filteredBy (s : Registry × Planner) (key : FilterKey) (v : Value) :
    Except Error Unit × (Registry × Planner) :=
  let m := Registry.filter s.2.entity.name key
  let taken := s.2.taking s.1.catalog v (s.1.result m)
  (taken.1, (s.1.behind m, taken.2))

theorem keyPredicate_of_branches (h : branches a = [a]) (hv : v.isNull = false) :
    keyPredicate (a, v) = branchPredicate a v := by
  have hany (p? : Option Predicate) : Predicate.any? p?.toList = p? := by cases p? <;> rfl
  unfold keyPredicate
  simp only [hv, h, Bool.false_eq_true, if_false, predicatesOf, bind_assoc, pure_bind,
    List.append_nil, hany, bind_pure]

theorem run_apply (f : CompiledFilter) :
    (PlannerM.ofSort (SortM.ofJoins fun c => f.apply c s.2.entity s.2.settings v) >>=
        addFilter).run.run s =
      ((s.2.taking s.1.catalog v (.ok (some f))).1,
        (s.1, (s.2.taking s.1.catalog v (.ok (some f))).2)) := by
  have hrun : (PlannerM.ofSort (SortM.ofJoins fun c =>
      f.apply c s.2.entity s.2.settings v)).run.run s =
        (((f.apply s.1.catalog s.2.entity s.2.settings v).run.run s.2.joins).1,
          (s.1, { s.2 with
            joins := ((f.apply s.1.catalog s.2.entity s.2.settings v).run.run s.2.joins).2 })) :=
    rfl
  rw [taking]
  rcases happly : (f.apply s.1.catalog s.2.entity s.2.settings v).run.run s.2.joins with ⟨x, js⟩
  rw [happly] at hrun
  cases x with
  | error err => exact Work.run_bind_of_error hrun
  | ok predicate => exact Work.run_bind_of_ok hrun

theorem run_current (s : Registry × Planner) : current.run.run s = (.ok s.2, s) := rfl

/-- Work on the registry leaves the planner as it is. -/
theorem run_ofRegistry {α : Type} (m : RegistryM α) (s : Registry × Planner) :
    (PlannerM.ofRegistry m).run.run s = (s.1.result m, (s.1.behind m, s.2)) := rfl

/-- A key that is not divided has the effect of its own filter. -/
theorem run_branchPredicate (hs : s.1.Sound) (ha : FilterKey.parse a = [a]) :
    (branchPredicate a v >>= addFilter).run.run s = filteredBy s [a] v := by
  have hcatalog : (s.1.behind (Registry.filter s.2.entity.name [a])).catalog = s.1.catalog :=
    (Registry.answers_filter hs.named (ha ▸ FilterKey.divided_parse a) s.1 rfl hs).2.1
  have hfilter := run_ofRegistry (Registry.filter s.2.entity.name [a]) s
  unfold branchPredicate filteredBy
  dsimp only
  rw [bind_assoc, Work.run_bind_of_ok (run_current s), ha, bind_assoc]
  cases hresult : s.1.result (Registry.filter s.2.entity.name [a]) with
  | error err =>
    rw [hresult] at hfilter
    exact Work.run_bind_of_error hfilter
  | ok f? =>
    rw [hresult] at hfilter
    rw [Work.run_bind_of_ok hfilter]
    cases f? with
    | none =>
      rw [pure_bind, addFilter_none]
      rfl
    | some f =>
      rw [← hcatalog]
      exact run_apply (s := (s.1.behind (Registry.filter s.2.entity.name [a]), s.2)) f

/-- **A key that is read as one filter has the effect of this filter.** -/
theorem run_filterKey (hs : s.1.Sound) (hbranches : branches a = [a])
    (ha : FilterKey.parse a = [a]) (hv : v.isNull = false) :
    (filterKey a v).run.run s = filteredBy s [a] v := by
  rw [filterKey_eq, keyPredicate_of_branches hbranches hv]
  exact run_branchPredicate hs ha

/-! ## Keys that are ignored -/

/-- A planner whose filters come to nothing stays as it is. -/
theorem run_predicatesOf_of_none {ι : Type} {P : ι → PlannerM (Option Predicate)} {c : Catalog}
    {p : Planner} {es : List ι}
    (h : ∀ e ∈ es, ∀ r : Registry, r.Of c →
      ∃ r' : Registry, r'.Of c ∧ (P e).run.run (r, p) = (.ok none, (r', p))) (hr : r.Of c) :
    ∃ r', (predicatesOf P es).run.run (r, p) = (.ok [], (r', p)) := by
  induction es generalizing r with
  | nil => exact ⟨r, rfl⟩
  | cons e es ih =>
    obtain ⟨r₁, hr₁, hfirst⟩ := h e List.mem_cons_self r hr
    obtain ⟨r₂, hrest⟩ := ih (fun e he => h e (List.mem_cons_of_mem _ he)) hr₁
    refine ⟨r₂, ?_⟩
    rw [predicatesOf, Work.run_bind_of_ok hfirst, Work.run_bind_of_ok hrest]
    rfl

/-- A key that starts with no alias has no filter. -/
theorem run_branchPredicate_of_find?_eq_none {t : Table} {p : Planner} (hr : r.Sound)
    (ht : r.catalog.table p.entity.name .filterable = .ok t) {key : String} {rest : FilterKey}
    (hkey : FilterKey.parse key = key :: rest) (hfind : t.find? key = none) :
    ∃ r' : Registry, r'.Of r.catalog ∧
      (branchPredicate key v).run.run (r, p) = (.ok none, (r', p)) := by
  have hnone : r.catalog.filter p.entity.name (FilterKey.parse key) = .ok none := by
    obtain ⟨d, -, hentry⟩ := @Catalog.entry?_of_table r.catalog p.entity.name key t ht
    rw [hkey, Catalog.filter, hentry, hfind]
    rfl
  have hanswers : Registry.Answers r.catalog
      (Registry.filter p.entity.name (FilterKey.parse key)) (.ok none) :=
    hnone ▸ Registry.answers_filter hr.named (FilterKey.divided_parse key)
  obtain ⟨hresult, hof⟩ := hanswers r rfl hr
  have hfilter := run_ofRegistry (Registry.filter p.entity.name (FilterKey.parse key)) (r, p)
  rw [hresult] at hfilter
  refine ⟨_, hof, ?_⟩
  rw [branchPredicate, Work.run_bind_of_ok (run_current (r, p)), Work.run_bind_of_ok hfilter]
  rfl

/-- **A key none of whose branches is an alias is ignored**: the call succeeds and the planner stays
as it is. -/
theorem run_filterKey_of_find?_eq_none {t : Table} (hs : s.1.Sound)
    (ht : s.1.catalog.table s.2.entity.name .filterable = .ok t) (ha : '$' ∉ a.toList)
    (hv : v.isNull = false) (hkeys : ∀ key ∈ branches a, t.find? key = none) :
    ∃ r, (filterKey a v).run.run s = (.ok (), (r, s.2)) := by
  have hbranch : ∀ key ∈ branches a, ∀ r : Registry, r.Of s.1.catalog →
      ∃ r' : Registry, r'.Of s.1.catalog ∧
        (branchPredicate key v).run.run (r, s.2) = (.ok none, (r', s.2)) := by
    intro key hkey r hr
    rw [← hr.1] at ht ⊢
    have hparse : FilterKey.parse key = [key] := parse_of_mem_branches ha hkey
    exact run_branchPredicate_of_find?_eq_none hr.2 ht hparse (hkeys key hkey)
  obtain ⟨r, hrun⟩ := run_predicatesOf_of_none hbranch ⟨rfl, hs⟩
  refine ⟨r, ?_⟩
  have hnone : (keyPredicate (a, v)).run.run s = (.ok none, (r, s.2)) := by
    unfold keyPredicate
    rw [if_neg (Bool.eq_false_iff.1 hv), Work.run_bind_of_ok hrun]
    rfl
  rw [filterKey_eq, Work.run_bind_of_ok hnone, addFilter_none]
  rfl

/-! ## Aliases -/

/-- **An alias without `_or_` has the effect of its own filter**, behind any uses of the registry
and any steps of the planner. It has a filter, unless an error says why not. An alias with `_or_` is
never looked up, and when none of its parts is an alias either, the call succeeds without asking
for anything. -/
theorem filterKey_of_alias {t : Table} {entry : Entry} (uses : List Use) (settings : Settings)
    (steps : List Step) (hd : (Registry.empty.usedBy uses).catalog.find? d.name = some d)
    (ht : Table.of d.toEntity .filterable = .ok t) (ha : t.find? a = some entry)
    (hv : v.isNull = false) :
    let s := run (Registry.empty.usedBy uses, start d settings) steps
    s.1.result (Registry.filter d.name [a]) ≠ .ok none ∧
    (¬ "_or_".toList <:+: a.toList → (filterKey a v).run.run s = filteredBy s [a] v) ∧
    ("_or_".toList <:+: a.toList → a ∉ branches a ∧
      ((∀ key ∈ branches a, t.find? key = none) →
        ∃ r, (filterKey a v).run.run s = (.ok (), (r, s.2)))) := by
  intro s
  have hsound : (Registry.empty.usedBy uses).Sound :=
    Registry.sound_usedBy Registry.sound_empty uses
  obtain ⟨hregistered, hsession⟩ := (ready_start hsound hd settings).run steps
  have hs : s.1.Sound := hsession.registry.2
  have hentity : s.2.entity = d := hsession.entity
  have hreserved := (Table.aliasName_of_find? ht ha).2.2
  have hdollar : '$' ∉ a.toList := fun hmem => Bool.noConfusion (hreserved '$' hmem)
  have hparse : FilterKey.parse a = [a] := Text.splitOn_of_not_mem hdollar
  have hfilter : s.1.catalog.filter d.name [a] ≠ .ok none := by
    have hentry : s.1.catalog.entry? d.name a = .ok (some (d, entry)) :=
      Catalog.entry?_eq_ok_of_find? hregistered ht ha
    refine Catalog.filter_ne_none (k := [a]) ?_
    rw [Catalog.canonical, hentry]
    simp [FilterKey.isBlank]
  refine ⟨?_, fun hplain => ?_, fun hinfix => ⟨not_mem_branches hinfix, fun hnone => ?_⟩⟩
  · have hanswers : Registry.Answers s.1.catalog (Registry.filter d.name [a])
        (s.1.catalog.filter d.name [a]) :=
      Registry.answers_filter hs.named (hparse ▸ FilterKey.divided_parse a)
    rw [(hanswers s.1 rfl hs).1]
    exact hfilter
  · exact run_filterKey hs (branches_eq_singleton_iff.2 hplain) hparse hv
  · have htable : s.1.catalog.table s.2.entity.name .filterable = .ok t := by
      rw [hentity]
      exact (Catalog.table_of_get (Catalog.get_eq_ok_iff.2 hregistered)).trans ht
    exact run_filterKey_of_find?_eq_none hs htable hdollar hv hnone

end Planner

/-! ## Books -/

/-- Books, with the names of the people who made them in one column. -/
def Entity.book : Entity where
  name := "Book"
  table := "books"
  key := "id"
  relations := ∅
  queryable := none
  filterable := some [.bare "title", .bare "author_or_editor"]
  sortable := none
  selectable := some [.bare "title"]

namespace Planner

/-- The filters of a planner in words. -/
def filterTexts (s : Registry × Planner) : List String :=
  s.2.filters.map fun p => (Sql.clause 0 p).text

/-- A registry that knows books. -/
def knowingBooks : List Use := [.operation (.register Entity.book.define)]

theorem find?_knowingBooks : (Registry.empty.usedBy knowingBooks).catalog.find? "Book" =
    some Entity.book.define := by rfl

/-- Both aliases of books are in the table for filters, but no part of the longer one is. -/
theorem exists_table_book : ∃ t, Table.of Entity.book .filterable = .ok t ∧
    t.find? "title" = some ⟨"title", none, "title", none⟩ ∧
    t.find? "author_or_editor" = some ⟨"author_or_editor", none, "author_or_editor", none⟩ ∧
    ∀ key ∈ branches "author_or_editor", t.find? key = none :=
  ⟨_, rfl, by decide +kernel, by decide +kernel, by decide +kernel⟩

/-- Books are found by their titles, but not by who made them. -/
theorem filterKey_of_books :
    let s := run (Registry.empty.usedBy knowingBooks, start Entity.book.define .usual)
      [.call (.select ["title"])]
    (filterKey "title" (.string "Emma")).run.run s = filteredBy s ["title"] (.string "Emma") ∧
      filterTexts (filteredBy s ["title"] (.string "Emma")).2 = ["books.title = $1"] ∧
      ∃ r, (filterKey "author_or_editor" (.string "Ada")).run.run s = (.ok (), (r, s.2)) := by
  intro s
  obtain ⟨t, ht, htitle, hmaker, hparts⟩ := exists_table_book
  have hplain := (filterKey_of_alias (d := Entity.book.define) (v := .string "Emma")
    knowingBooks .usual [.call (.select ["title"])] find?_knowingBooks ht htitle rfl).2.1
  have hmarked := (filterKey_of_alias (d := Entity.book.define) (v := .string "Ada")
    knowingBooks .usual [.call (.select ["title"])] find?_knowingBooks ht hmaker rfl).2.2
  exact ⟨hplain (by decide), by decide +kernel, (hmarked (by decide)).2 hparts⟩

/-- An alias of books that has a filter, which no request reaches. -/
theorem filterKey_ignored_of_books :
    let s := (Registry.empty.usedBy knowingBooks, start Entity.book.define .usual)
    let a := "author_or_editor"
    s.1.catalog.find? "Book" = some Entity.book.define ∧
      (∃ t entry, Table.of Entity.book .filterable = .ok t ∧ t.find? a = some entry) ∧
      filterTexts (filteredBy s [a] (.string "Ada")).2 = ["books.author_or_editor = $1"] ∧
      ∃ r, (filterKey a (.string "Ada")).run.run s = (.ok (), (r, s.2)) ∧ s.2.filters = [] := by
  intro s a
  have hs : s.1.Sound := Registry.sound_usedBy Registry.sound_empty knowingBooks
  obtain ⟨t, ht, -, hmaker, hparts⟩ := exists_table_book
  have htable : s.1.catalog.table "Book" .filterable = .ok t :=
    (Catalog.table_of_get (Catalog.get_eq_ok_iff.2 find?_knowingBooks)).trans ht
  obtain ⟨r, hrun⟩ := run_filterKey_of_find?_eq_none (v := .string "Ada") hs htable (by decide) rfl
    hparts
  exact ⟨find?_knowingBooks, ⟨t, _, ht, hmaker⟩, by decide +kernel, r, hrun, rfl⟩

end Planner
end RequestPlan
