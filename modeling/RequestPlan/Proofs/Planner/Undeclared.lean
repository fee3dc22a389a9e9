import RequestPlan.Proofs.Planner.Errors
import RequestPlan.Proofs.Planner.FilterAliases
import RequestPlan.Proofs.Planner.Growing
import RequestPlan.Proofs.Sorting.Tokens

/-!
# Kinds that are not declared

* `Planner.Call.Needs`: a call that looks up the aliases of a kind.
* `Planner.fails_of_needs`: **a call that needs a kind fails when the kind is not declared**, with
  an error that says so.
* `Planner.undeclared_of_steps`: **no call fails with this error otherwise**. A kind counts as
  declared with a list of its own, and with a shared list, even one that has nothing for it: then
  the table of the kind is empty.
-/

namespace RequestPlan

/-- What is joined is reached behind any paths and registrations. -/
theorem Joins.enduring_reached {d : Definition} :
    Joins.Enduring d fun c js => js.Reached c d where
  extend hextends h := h.extend hextends
  path _ path := Joins.steps_reached.keeps_leftJoin (fun _ _ => .inl rfl) path

/-- Without its table, an entity has no filter of any key. -/
theorem Catalog.filter_of_table_error {c : Catalog} {entity : String} {key : FilterKey}
    {err : Error} (h : c.table entity .filterable = .error err) (hkey : key ≠ []) :
    c.filter entity key = .error err := by
  obtain ⟨aliasName, rest, rfl⟩ := List.exists_cons_of_ne_nil hkey
  rw [filter, entry?_of_table_error h]

namespace Planner

/-! ## Calls that need a kind -/

/-- The entries that a filter call looks at when no name of its own is declared as a filter: those
whose names have no other meaning, or the default ones where there are none. -/
def asked (p : Planner) (ps : Params) : List (String × Value) :=
  match ps.entries.filter fun e => !p.settings.names.has e.1 with
  | [] => p.defaultFilter.entries
  | es => es

/-- A call that looks up the aliases of a kind: it filters by a value that is not null, sorts by a
token, or selects. -/
def Call.Needs (p : Planner) : Kind → Call → Prop
  | .filterable, .filterKey _ v => v.isNull = false
  | .filterable, .filter ps => ∃ e ∈ p.asked ps, e.2.isNull = false
  | .sortable, .sort tokens | .sortable, .sortScoped tokens _ => p.tokensToSort tokens ≠ []
  | .selectable, .select _ | .selectable, .selectScoped _ _ => True
  | _, _ => False

variable {s : Registry × Planner} {err : Error} {v : Value} {es : List (String × Value)}

theorem filterKey_of_isNull (hv : v.isNull = true) (key : String) :
    filterKey key v = pure () := by
  unfold filterKey
  rw [hv, if_pos rfl]

section Filters

variable (hs : s.1.Sound) (ht : s.1.catalog.table s.2.entity.name .filterable = .error err)
include hs ht

theorem filterKey_of_error (key : String) (hv : v.isNull = false) :
    ((filterKey key v).run.run s).1 = .error err := by
  have hbranch : ∀ branch, ((branchPredicate branch v).run.run s).1 = .error err := by
    intro branch
    have hfilter : s.1.result (Registry.filter s.2.entity.name (FilterKey.parse branch)) =
        .error err :=
      (Registry.answers_filter hs.named (FilterKey.divided_parse branch) s.1 rfl hs).1.trans
        (Catalog.filter_of_table_error ht (Text.splitOn_ne_nil '$' branch))
    have hrun := run_ofRegistry (Registry.filter s.2.entity.name (FilterKey.parse branch)) s
    rw [hfilter] at hrun
    unfold branchPredicate
    rw [Work.run_bind_of_ok (run_current s), Work.run_bind_of_error hrun]
  obtain ⟨branch, rest, hbranches⟩ :=
    List.exists_cons_of_ne_nil (Text.splitOnMark_ne_nil "_or_" key)
  unfold filterKey
  rw [hv, if_neg Bool.false_ne_true, branches, hbranches]
  exact Work.result_bind_of_error (Work.result_bind_of_error (hbranch branch))

/-- Nulls are passed over, and the first value behind them fails. -/
theorem filterEntries_of_error (h : ∃ e ∈ es, e.2.isNull = false) :
    ((filterEntries es).run.run s).1 = .error err := by
  induction es with
  | nil =>
    obtain ⟨e, he, -⟩ := h
    cases he
  | cons first es ih =>
    cases hfirst : first.2.isNull with
    | false => exact Work.result_bind_of_error (filterKey_of_error hs ht first.1 hfirst)
    | true =>
      rw [filterEntries, filterKey_of_isNull hfirst, pure_bind]
      obtain ⟨e, he, hv⟩ := h
      rcases List.mem_cons.1 he with rfl | he
      · rw [hfirst] at hv
        cases hv
      · exact ih ⟨e, he, hv⟩

variable (hown : s.2.entity.filterable = none) (hshared : s.2.entity.queryable = none)
include hown hshared

omit hs ht in
/-- Without any filters, a parameter is meant as one by its name. -/
theorem run_isFilter_of_undeclared (name : String) :
    (isFilter name).run.run s = (.ok !s.2.settings.names.has name, s) := by
  have hdeclares : (declaresFilter name).run.run s = (.ok false, s) := by
    unfold declaresFilter
    rw [Work.run_bind_of_ok (run_current s)]
    dsimp only
    rw [hown, hshared]
    rfl
  unfold isFilter
  rw [Work.run_bind_of_ok (run_current s)]
  cases s.2.settings.names.has name with
  | true => exact hdeclares
  | false => rfl

omit hs ht in
theorem run_filterRequested_of_reserved (h : ∀ e ∈ es, s.2.settings.names.has e.1 = true) :
    (filterRequested es).run.run s = (.ok false, s) := by
  induction es with
  | nil => rfl
  | cons e es ih =>
    obtain ⟨hfirst, hrest⟩ := List.forall_mem_cons.1 h
    rw [filterRequested, Work.run_bind_of_ok (run_isFilter_of_undeclared hown hshared e.1), hfirst]
    exact ih hrest

theorem filterRequested_of_error
    (h : ∃ e ∈ es, s.2.settings.names.has e.1 = false ∧ e.2.isNull = false) :
    ((filterRequested es).run.run s).1 = .error err := by
  induction es with
  | nil =>
    obtain ⟨e, he, -⟩ := h
    cases he
  | cons first es ih =>
    rw [filterRequested,
      Work.run_bind_of_ok (run_isFilter_of_undeclared hown hshared first.1)]
    have hlater : s.2.settings.names.has first.1 = true ∨ first.2.isNull = true →
        ((filterRequested es).run.run s).1 = .error err := by
      intro hfirst
      obtain ⟨e, he, hname, hv⟩ := h
      refine ih ?_
      rcases List.mem_cons.1 he with rfl | he
      · rw [hname, hv] at hfirst
        simp at hfirst
      · exact ⟨e, he, hname, hv⟩
    cases hname : s.2.settings.names.has first.1 with
    | true => exact hlater (.inl hname)
    | false =>
      cases hfirst : first.2.isNull with
      | false => exact Work.result_bind_of_error (filterKey_of_error hs ht first.1 hfirst)
      | true =>
        rw [Bool.not_false, if_pos rfl, filterKey_of_isNull hfirst, pure_bind]
        exact Work.result_bind_of_error (hlater (.inr hfirst))

theorem filter_of_error {ps : Params} (h : ∃ e ∈ s.2.asked ps, e.2.isNull = false) :
    ((filter ps).run.run s).1 = .error err := by
  unfold filter
  unfold asked at h
  split at h
  · rename_i hnone
    have hreserved : ∀ e ∈ ps.entries, s.2.settings.names.has e.1 = true := by
      simpa using List.filter_eq_nil_iff.1 hnone
    rw [Work.run_bind_of_ok (run_filterRequested_of_reserved hown hshared hreserved)]
    exact filterEntries_of_error hs ht h
  · obtain ⟨e, he, hv⟩ := h
    obtain ⟨hmem, hname⟩ := List.mem_filter.1 he
    refine Work.result_bind_of_error (filterRequested_of_error hs ht hown hshared ?_)
    exact ⟨e, hmem, by simpa using hname, hv⟩

end Filters

theorem sortScoped_of_error (hs : s.1.Sound)
    (ht : s.1.catalog.table s.2.entity.name .sortable = .error err) {tokens : List String}
    (h : s.2.tokensToSort tokens ≠ []) (scope : Scope) :
    ((sortScoped tokens scope).run.run s).1 = .error err := by
  have htable : ((PlannerM.ofSort (Registry.sort s.2.entity (s.2.tokensToSort tokens)
      scope)).run.run s).1 = .error err := by
    rw [PlannerM.ofSort, Work.run_on, Registry.run_sort_eq_error ⟨rfl, hs⟩ ht]
  unfold sortScoped
  rw [Work.run_bind_of_ok (run_current s)]
  split
  · rename_i hnone
    exact absurd hnone h
  · exact Work.result_bind_of_error htable

theorem selectScoped_of_error (hs : s.1.Sound)
    (ht : s.1.catalog.table s.2.entity.name .selectable = .error err) (paths : List String)
    (scope : Scope) : ((selectScoped paths scope).run.run s).1 = .error err := by
  have hselect : ∀ depth paths, s.1.catalog.select depth s.2.entity.name paths scope =
      .error err := by
    intro depth paths
    have hlevel : ∀ below, s.1.catalog.selectLevel below s.2.entity.name paths scope =
        .error err := by
      intro below
      unfold Catalog.selectLevel
      unfold Catalog.table at ht
      cases hget : s.1.catalog.get s.2.entity.name with
      | error err' =>
        rw [hget] at ht
        cases ht
        rfl
      | ok d =>
        rw [hget] at ht
        show (Table.of d.toEntity .selectable).bind _ = _
        rw [show Table.of d.toEntity .selectable = .error err from ht]
        rfl
    cases depth <;> exact hlevel _
  rw [selectScoped_eq_error_iff, (Registry.answers_select _ _ _ _ s.1 rfl hs).1]
  exact hselect _ _

/-- **A call that needs a kind fails when the kind is not declared.** -/
theorem fails_of_needs (hs : s.1.Sound) {k : Kind} {call : Call}
    (ht : s.1.catalog.table s.2.entity.name k = .error err)
    (hown : s.2.entity.declarations k = none) (hshared : s.2.entity.queryable = none)
    (h : call.Needs s.2 k) : (call.work.run.run s).1 = .error err := by
  unfold Call.Needs at h
  split at h
  · exact filterKey_of_error hs ht _ h
  · exact filter_of_error hs ht hown hshared h
  · exact sortScoped_of_error hs ht h .all
  · exact sortScoped_of_error hs ht h _
  · exact selectScoped_of_error hs ht _ .all
  · exact selectScoped_of_error hs ht _ _
  · exact h.elim

/-- **A kind that is not declared is refused by every call that needs it, and by no other**, behind
any steps of a planner and its registry, when no hook ends with this error by itself. A kind counts
as declared, however, as soon as there is a list of its own or a shared list. When nothing in the
shared list is meant for it, its table is empty, which is no error. -/
theorem undeclared_of_steps {d : Definition} (uses : List Use) (settings : Settings)
    (steps : List Step) {k : Kind} (herr : d.undeclared k = some err)
    (hd : (Registry.empty.usedBy uses).catalog.find? d.name = some d)
    (hhooks : (run (Registry.empty.usedBy uses, start d settings) steps).1.catalog.Spare err) :
    let s := run (Registry.empty.usedBy uses, start d settings) steps
    let absent := d.declarations k = none ∧ d.queryable = none
    (Table.of d.toEntity k = .error err ↔ absent) ∧
    (∀ call : Call, (call.work.run.run s).1 = .error err → absent) ∧
    (∀ call : Call, call.Needs s.2 k → ((call.work.run.run s).1 = .error err ↔ absent)) ∧
    (d.declarations k = none → (∀ decl ∈ d.queryable.getD [], decl.uses.allows k = false) →
      d.queryable ≠ none → Table.of d.toEntity k = .ok ⟨d.name, k, ∅⟩) := by
  intro s absent
  have hsound : (Registry.empty.usedBy uses).Sound :=
    Registry.sound_usedBy Registry.sound_empty uses
  have hregistered : s.1.catalog.find? d.name = some d :=
    ((ready_start hsound hd settings).run steps).registered
  have hholding : Holding d (fun c js => js.Reached c d) s :=
    holding_run Joins.enduring_reached hsound Joins.reached_none settings steps
  have hs : s.1.Sound := hholding.registry.2
  have hiff : Table.of d.toEntity k = .error err ↔ absent := Table.of_eq_error_iff herr
  have habsent : ∀ call : Call, (call.work.run.run s).1 = .error err → absent := by
    intro call hcall
    by_contra hpresent
    have hlacks : s.1.catalog.Lacks err :=
      Catalog.lacks_of_table hs.named hregistered herr (mt hiff.1 hpresent)
    exact (spares_work hlacks hs.named hregistered hhooks call).result s hholding hcall
  refine ⟨hiff, habsent, fun call hneeds => ⟨habsent call, fun h => ?_⟩,
    fun hown hnothing hshared => ?_⟩
  · have htable : s.1.catalog.table s.2.entity.name k = .error err := by
      rw [hholding.entity, Catalog.table_of_get (Catalog.get_eq_ok_iff.2 hregistered)]
      exact hiff.2 h
    have hentity : s.2.entity = d := hholding.entity
    exact fails_of_needs hs htable (hentity ▸ h.1) (hentity ▸ h.2) hneeds
  · have hkind : k ≠ .queryable := by
      rintro rfl
      cases herr
    refine Table.of_eq_empty ?_ ?_
    · rw [Entity.declared, hown, if_neg hkind, Option.getD_none, List.append_nil,
        List.filter_eq_nil_iff]
      exact fun decl hdecl => Bool.eq_false_iff.1 (hnothing decl hdecl)
    · exact Bool.not_eq_false _ ▸ fun hdeclares =>
        hshared ((Entity.declares_eq_false_iff.1 hdeclares).2.resolve_left hkind)

end Planner

/-! ## Memos -/

/-- Memos with a list of shared declarations, or without one. -/
def Entity.memo (queryable : Option (List Declaration)) : Entity where
  name := "Memo"
  table := "memos"
  key := "id"
  relations := ∅
  queryable := queryable
  filterable := some [.bare "title"]
  sortable := none
  selectable := none

/-- The title of a memo can be asked for in all ways but one. -/
def Entity.unsortedMemo : Entity :=
  .memo (some [.full "title" (some "string") "title" ⟨true, false, true⟩])

namespace Planner

/-- A registry that knows memos. -/
def knowingMemos (e : Entity) : List Use := [.operation (.register e.define)]

theorem spare_knowingMemos {e : Entity}
    (h : (Registry.empty.usedBy (knowingMemos e)).catalog.entries = [("Memo", e.define)]) :
    (Registry.empty.usedBy (knowingMemos e)).catalog.Spare err := by
  refine Catalog.spare_of_entries fun p hp => ?_
  rw [h] at hp
  cases List.mem_singleton.1 hp
  rfl

/-- Memos that declare nothing cannot be sorted, and those that declare something else can. -/
theorem undeclared_of_memos :
    let s := run (Registry.empty.usedBy (knowingMemos (.memo none)),
      start (Entity.memo none).define .usual) []
    let t := run (Registry.empty.usedBy (knowingMemos .unsortedMemo),
      start Entity.unsortedMemo.define .usual) []
    let byTitle := Call.sort ["title"]
    (byTitle.work.run.run s).1 = .error (.notSortable "Memo") ∧
      (byTitle.work.run.run t).1 ≠ .error (.notSortable "Memo") ∧
      Table.of .unsortedMemo .sortable = .ok ⟨"Memo", .sortable, ∅⟩ := by
  intro s t byTitle
  obtain ⟨-, -, hneeds, -⟩ := undeclared_of_steps (d := (Entity.memo none).define) (k := .sortable)
    (knowingMemos (.memo none)) .usual [] rfl rfl (spare_knowingMemos rfl)
  obtain ⟨-, habsent, -, hempty⟩ := undeclared_of_steps (d := Entity.unsortedMemo.define)
    (k := .sortable) (knowingMemos .unsortedMemo) .usual [] rfl rfl (spare_knowingMemos rfl)
  have htokens : s.2.tokensToSort ["title"] ≠ [] := by decide +kernel
  refine ⟨(hneeds byTitle htokens).2 ⟨rfl, rfl⟩, fun h => ?_, hempty rfl (by decide) nofun⟩
  cases (habsent byTitle h).2

/-- A memo has no aliases to sort by, neither its own nor shared ones, and yet it can be sorted: the
token is left out. -/
theorem sort_left_out_of_memos :
    let e := Entity.unsortedMemo
    let s := (Registry.empty.usedBy (knowingMemos e), start e.define .usual)
    e.declarations .sortable = none ∧
      (∀ decl ∈ e.queryable.getD [], decl.uses.allows .sortable = false) ∧
      Table.of e .sortable ≠ .error (.notSortable "Memo") ∧
      ((sort ["title"]).run.run s).1 = .ok () ∧ ((sort ["title"]).run.run s).2.2.orders = [] :=
  ⟨rfl, by decide, nofun, Outcome.eq_ok_of_isOk (by decide +kernel), by decide +kernel⟩

end Planner
end RequestPlan
