import RequestPlan.Proofs.Joins.Aliases
import RequestPlan.Proofs.Planner.Plans

/-!
# Aliases in plans

* `Planner.kept_withJoins`: what the joins of all paths keep is kept by every call of a planner.
* `JoinRequest`, `Joins.requested`: joins that are asked for by paths and sort tokens.
* `apart_of_requests`: **without hooks for joins, no alias is the root table, and different paths
  have different aliases unless the word of the suffix is in a name**.
-/

namespace RequestPlan

/-! ## Joins of a planner -/

namespace Planner

/-- A sound registry of a catalog, and a planner for an entity with joins of a kind. -/
structure WithJoins (c : Catalog) (d : Definition) (J : Joins → Prop) (s : Registry × Planner) :
    Prop where
  registry : s.1.Of c
  entity : s.2.entity = d
  joins : J s.2.joins

variable {c : Catalog} {d : Definition} {J : Joins → Prop} {α : Type}

theorem withJoins_ofSort {m : SortM α} (h : Work.Keeps (SortM.Both (Registry.Of c) J) m) :
    Work.Keeps (WithJoins c d J) (PlannerM.ofSort m) :=
  h.on (fun _ hs => ⟨hs.registry, hs.joins⟩) fun _ _ hs ht => ⟨ht.1, hs.entity, ht.2⟩

theorem withJoins_ofRegistry {m : RegistryM α} (h : Work.Keeps (Registry.Of c) m) :
    Work.Keeps (WithJoins c d J) (PlannerM.ofRegistry m) :=
  h.on (fun _ hs => hs.registry) fun _ _ hs hr => ⟨hr, hs.entity, hs.joins⟩

theorem withJoins_update {f : Planner → Planner} (hentity : ∀ p, (f p).entity = p.entity)
    (hjoins : ∀ p, (f p).joins = p.joins) : Work.Keeps (WithJoins c d J) (PlannerM.update f) :=
  Work.keeps_modify fun s hs =>
    ⟨hs.registry, (hentity s.2).trans hs.entity, (hjoins s.2).symm ▸ hs.joins⟩

theorem withJoins_filterKey (hnamed : c.Named) (hJ : ∀ path, Work.Keeps J (leftJoin c d path))
    (key : String) (v : Value) : Work.Keeps (WithJoins c d J) (filterKey key v) := by
  have hbranch : ∀ key, Work.Keeps (WithJoins c d J) (branchPredicate key v) := by
    intro key
    refine Work.keeps_bind keeps_current fun s p hs hp => ?_
    cases hp
    have hfilter : Work.Keeps (WithJoins c d J) (PlannerM.ofRegistry
        (Registry.filter s.2.entity.name (FilterKey.parse key))) :=
      withJoins_ofRegistry (Registry.answers_filter hnamed (FilterKey.divided_parse key)).keeps
    refine hfilter.bind (fun f? => ?_) s hs
    split
    · exact Work.keeps_pure _
    · rename_i f
      -- a hook joins from the entity of the planner, which is the root
      rw [hs.entity]
      refine withJoins_ofSort (SortM.keeps_ofJoins fun r hr => ?_)
      rw [hr.1]
      exact f.keeps_apply hJ _ v
  exact keeps_filterKey_of hbranch (fun _ => withJoins_update (fun _ => rfl) fun _ => rfl) key

theorem withJoins_sortScoped (hJ : ∀ path, Work.Keeps J (leftJoin c d path))
    (tokens : List String) (scope : Scope) :
    Work.Keeps (WithJoins c d J) (sortScoped tokens scope) := by
  refine Work.keeps_bind keeps_current fun s p hs hp => ?_
  cases hp
  split
  · exact hs
  · rename_i requested _
    have hsort : Work.Keeps (SortM.Both (Registry.Of c) J)
        (Registry.sort s.2.entity (s.2.tokensToSort tokens) scope) := by
      rw [hs.entity]
      exact (Registry.made_sort _ _ _).keeps Registry.keeps_table fun r hr path => hr.1 ▸ hJ path
    have hwhole : Work.Keeps (WithJoins c d J) (PlannerM.ofSort
        (Registry.sort s.2.entity (s.2.tokensToSort tokens) scope) >>= fun orders =>
          PlannerM.update fun p => { p with orders := p.orders ++ orders }) :=
      (withJoins_ofSort hsort).bind fun _ => withJoins_update (fun _ => rfl) fun _ => rfl
    exact hwhole s hs

theorem withJoins_join (hJ : ∀ path, Work.Keeps J (leftJoin c d path)) (path : String) :
    Work.Keeps (WithJoins c d J) (join path) := by
  refine Work.keeps_bind keeps_current fun s p hs hp => ?_
  cases hp
  have hjoin : Work.Keeps (SortM.Both (Registry.Of c) J)
      (SortM.ofJoins fun c => leftJoin c s.2.entity path) := by
    rw [hs.entity]
    exact SortM.keeps_ofJoins fun r hr => hr.1 ▸ hJ path
  exact withJoins_ofSort hjoin s hs

/-- **What the joins of all paths keep is kept by every call**, with any hooks for filters and
orderings. -/
theorem kept_withJoins (hnamed : c.Named) (hJ : ∀ path, Work.Keeps J (leftJoin c d path)) :
    Kept (WithJoins c d J) where
  table _ _ := withJoins_ofRegistry (Registry.keeps_table _ _)
  filterKey := withJoins_filterKey hnamed hJ
  selectScoped _ _ := keeps_current.bind fun _ =>
    (withJoins_ofRegistry (Registry.answers_select _ _ _ _).keeps).bind fun _ =>
      withJoins_update (fun _ => rfl) fun _ => rfl
  unselect _ := (Work.keeps_of _).bind fun _ => withJoins_update (fun _ => rfl) fun _ => rfl
  sortScoped := withJoins_sortScoped hJ
  join := withJoins_join hJ
  update _ h := withJoins_update (fun p => (h p).entity) fun p => (h p).joins

end Planner

/-! ## Requests for joins -/

/-- What may be asked of joins without a planner. -/
inductive JoinRequest where
  | join (path : String)
  | sort (tokens : List String) (scope : Scope)

/-- The work of a request. -/
def JoinRequest.work (root : Definition) : JoinRequest → SortM Unit
  | .join path => do
    let _ ← SortM.ofJoins fun c => leftJoin c root path
  | .sort tokens scope => do
    let _ ← Registry.sort root tokens scope

/-- The registry and the joins behind several requests, whether they succeed or not. -/
def Joins.requested (root : Definition) (s : Registry × Joins) (requests : List JoinRequest) :
    Registry × Joins :=
  requests.foldl (fun s request => ((request.work root).run.run s).2) s

theorem JoinRequest.keeps_work {c : Catalog} {root : Definition} {J : Joins → Prop}
    (hJ : ∀ path, Work.Keeps J (leftJoin c root path)) (request : JoinRequest) :
    Work.Keeps (SortM.Both (Registry.Of c) J) (request.work root) := by
  have hpaths : ∀ r, Registry.Of c r → ∀ path, Work.Keeps J (leftJoin r.catalog root path) :=
    fun r hr path => hr.1 ▸ hJ path
  cases request with
  | join path =>
    have hjoin : Work.Keeps (SortM.Both (Registry.Of c) J)
        (SortM.ofJoins fun c => leftJoin c root path) :=
      SortM.keeps_ofJoins fun r hr => hpaths r hr path
    exact hjoin.bind fun _ => Work.keeps_pure _
  | sort tokens scope =>
    exact ((Registry.made_sort root scope tokens).keeps Registry.keeps_table hpaths).bind
      fun _ => Work.keeps_pure _

theorem Joins.both_requested {c : Catalog} {root : Definition} {J : Joins → Prop}
    (hJ : ∀ path, Work.Keeps J (leftJoin c root path)) {s : Registry × Joins}
    (hs : SortM.Both (Registry.Of c) J s) (requests : List JoinRequest) :
    SortM.Both (Registry.Of c) J (requested root s requests) := by
  induction requests generalizing s with
  | nil => exact hs
  | cons request requests ih => exact ih (request.keeps_work hJ s hs)

namespace Planner

variable {r : Registry} {root : Definition} {J : Joins → Prop}

/-- What the joins of all paths keep holds behind any requests, and behind any calls. -/
theorem joins_of_keeps (hs : r.Sound) (hJ : ∀ path, Work.Keeps J (leftJoin r.catalog root path))
    (hnone : J .none) (requests : List JoinRequest) (settings : Settings) (calls : List Call) :
    J (Joins.requested root (r, .none) requests).2 ∧
      WithJoins r.catalog root J (after (r, start root settings) calls) := by
  have hof : Registry.Of r.catalog r := ⟨rfl, hs⟩
  have hrequested := Joins.both_requested hJ (s := (r, Joins.none)) ⟨hof, hnone⟩ requests
  exact ⟨hrequested.2, (kept_withJoins hs.named hJ).after ⟨hof, rfl, hnone⟩ calls⟩

/-- **Without hooks for joins, the root table is no alias, and different paths have different
aliases unless a name has the word of the suffix.** This holds of the joins behind any requests for
paths and sort tokens, and behind any calls of a planner, which the plan lists. Every alias is made
of the root table and of the names along a path, each with its suffix. Names that are empty, or in
which `join` stands between underscores, are the only ones for which two paths may have one
alias. -/
theorem apart_of_requests (hs : r.Sound)
    (hhooks : ∀ d, r.catalog.Reaches root d → d.hooks.joins = ∅) (requests : List JoinRequest)
    (settings : Settings) (calls : List Call) :
    let s := after (r, start root settings) calls
    (∀ js ∈ [(Joins.requested root (r, .none) requests).2, s.2.joins],
      root.table ∉ js.clauses.map Join.aliasName ∧
      (∀ clause ∈ js.clauses, ∃ names, names ≠ [] ∧
        clause.aliasName = aliasAlong root.table names) ∧
      ((∀ d, r.catalog.Reaches root d → d.toEntity.NamesApart) → js.Apart)) ∧
    ∀ plan, s.1.result (build s.2) = .ok plan →
      plan.table = root.table ∧ plan.joins = s.2.joins.clauses := by
  intro s
  obtain ⟨halong, hsalong⟩ := joins_of_keeps hs (Joins.keeps_leftJoin_along hhooks)
    Joins.along_none requests settings calls
  refine ⟨fun js hjs => ?_, fun plan hbuild => ?_⟩
  · have hjsalong : js.Along r.catalog root := by
      rcases List.mem_pair.1 hjs with rfl | rfl
      · exact halong
      · exact hsalong.joins
    refine ⟨hjsalong.not_mem, hjsalong.clauses, fun hnames => ?_⟩
    -- joins are those of legs, which have different names
    obtain ⟨hholds, hsholds⟩ := joins_of_keeps hs
      (Joins.keeps_leftJoin_holds (Joins.not_mem_names_of_isLeg hhooks hnames))
      ⟨[], Joins.holds_none⟩ requests settings calls
    have hlegs : ∃ legs, js.Holds r.catalog root legs := by
      rcases List.mem_pair.1 hjs with rfl | rfl
      · exact hholds
      · exact hsholds.joins
    obtain ⟨legs, hlegs⟩ := hlegs
    exact hlegs.apart hhooks hnames
  · obtain ⟨projection, hplan⟩ : ∃ projection, plan = s.2.planWith projection := by
      rcases cases_of_build hsalong.registry hbuild with ⟨-, hplan⟩ | ⟨-, q, -, -, hplan⟩
      · exact ⟨none, hplan⟩
      · exact ⟨some q, hplan⟩
    have hentity : s.2.entity = root := hsalong.entity
    rw [hplan, ← hentity]
    exact ⟨rfl, rfl⟩

end Planner

/-! ## Tasks -/

/-- Tasks that are related to tasks, by relations of these names. -/
def Entity.task (names : List String) : Entity where
  name := "Task"
  table := "tasks"
  key := "id"
  relations := Dict.ofList (names.map fun name =>
    (name, .plain .owning name "Task" (name ++ "_id") ""))
  queryable := none
  filterable := none
  sortable := some [.bare "title"]
  selectable := none

/-- A registry that knows such tasks. -/
def Registry.ofTasks (names : List String) : Registry :=
  after [.register (Entity.task names).define]

namespace Planner

/-- Tasks by the tasks before and behind them: the paths have different aliases. -/
theorem apart_of_tasks :
    let r := Registry.ofTasks ["first", "next"]
    let root := (Entity.task ["first", "next"]).define
    let s := after (r, start root .usual) [.join "first.next", .sort ["next.first.title"]]
    let aliases := ["tasks_first_join", "tasks_first_join_next_join", "tasks_next_join",
      "tasks_next_join_first_join"]
    s.2.joins.clauses.map Join.aliasName = aliases ∧ s.2.joins.Apart := by
  intro r root s aliases
  have hs : r.Sound := (Registry.sound_after _).1
  have hentries : r.catalog.entries = [("Task", root)] := by rfl
  have hreaches : ∀ d, r.catalog.Reaches root d → d = root := by
    rintro d (rfl | ⟨name, hname⟩)
    · rfl
    · have hmem := Dict.find?_eq_some_iff.1 hname
      rw [hentries] at hmem
      exact (Prod.mk.inj (List.mem_singleton.1 hmem)).2
  have hhooks : ∀ d, r.catalog.Reaches root d → d.hooks.joins = ∅ := by
    intro d hd
    rw [hreaches d hd]
    rfl
  have hnames : ∀ d, r.catalog.Reaches root d → d.toEntity.NamesApart := by
    intro d hd
    rw [hreaches d hd]
    decide
  obtain ⟨hjoins, -⟩ := apart_of_requests hs hhooks [] .usual
    [.join "first.next", .sort ["next.first.title"]]
  obtain ⟨-, -, hapart⟩ := hjoins s.2.joins (by simp [s])
  exact ⟨by decide +kernel, hapart hnames⟩

/-- Tasks with a short cut: two paths have one alias. -/
theorem shared_of_tasks :
    let names := ["first", "next", "first_join_next"]
    let s := after (Registry.ofTasks names, start (Entity.task names).define .usual)
      [.join "first.next", .join "first_join_next"]
    (s.2.joins.find? "first.next").map Joined.aliasName = some "tasks_first_join_next_join" ∧
      (s.2.joins.find? "first_join_next").map Joined.aliasName =
        some "tasks_first_join_next_join" ∧
      ¬(s.2.joins.clauses.map Join.aliasName).Nodup := by
  decide +kernel

end Planner
end RequestPlan
