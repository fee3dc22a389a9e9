import RequestPlan.Planner
import RequestPlan.Proofs.Joins.Steps
import RequestPlan.Proofs.Selection.Fits

/-!
# Calls of a planner

* `SortM.Made`: what sorting is made of, and `Made.keeps`: what it keeps.
* `Planner.Call`: what can be asked of a planner, and `Planner.after`: the state behind calls.
* `Planner.Kept`: a property that each kind of work keeps of which calls are made, and `Kept.after`:
  it holds behind any calls. What work beside filters keeps is kept by calls without filters
  (`KeptBeside.work`).
* `Planner.Session`: a planner for an entity of a catalog, with something known of its selection.
* `kept_known`: what unions and removals keep of selections is known of the planner's.
* `kept_session`: **whatever is asked of a planner, its selection can be loaded**, and so it fits.
-/

namespace RequestPlan

/-! ## Work with the registry -/

namespace Registry

variable {c : Catalog} {α : Type} {m : RegistryM α} {x : Except Error α}

/-- A sound registry of a catalog. -/
def Of (c : Catalog) (r : Registry) : Prop := r.catalog = c ∧ r.Sound

theorem Answers.keeps (h : Answers c m x) : Work.Keeps (Of c) m := fun r hr => (h r hr.1 hr.2).2

/-- Work whose result the catalog says keeps a registry sound. -/
theorem Answers.triple (h : Answers c m x) :
    Work.Triple (Of c) m (fun a r => r.Of c ∧ x = .ok a) (Of c) := by
  intro r hr
  obtain ⟨hresult, hof⟩ := h r hr.1 hr.2
  exact ⟨fun a ha => ⟨hof, hresult.symm.trans ha⟩, fun _ _ => hof⟩

end Registry

namespace SortM

variable {R : Registry → Prop} {J : Joins → Prop} {α : Type}

/-- A registry of a kind, with joins of a kind. -/
def Both (R : Registry → Prop) (J : Joins → Prop) (s : Registry × Joins) : Prop := R s.1 ∧ J s.2

theorem keeps_ofRegistry {m : RegistryM α} (h : Work.Keeps R m) :
    Work.Keeps (Both R J) (ofRegistry m) :=
  h.on (fun _ hs => hs.1) fun _ _ hs hr => ⟨hr, hs.2⟩

/-- Work that may add joins leaves the registry alone. -/
theorem keeps_ofJoins {m : Catalog → JoinM α} (h : ∀ r, R r → Work.Keeps J (m r.catalog)) :
    Work.Keeps (Both R J) (ofJoins m) := by
  refine Work.keeps_bind Work.keeps_get fun s a hs ha => ?_
  cases ha
  have hjoins : Work.Keeps (Both R J) (Work.on (fun s => s.2) (fun s j => (s.1, j))
      (m s.1.catalog)) :=
    Work.Keeps.on (h s.1 hs.1) (fun _ ht => ht.2) fun _ _ ht hj => ⟨ht.1, hj⟩
  exact hjoins s hs

end SortM

/-- What the joins of all paths keep is kept by every filter. -/
theorem CompiledFilter.keeps_apply {c : Catalog} {root : Definition} {J : Joins → Prop}
    (h : ∀ path, Work.Keeps J (leftJoin c root path)) (settings : Settings) (v : Value)
    (f : CompiledFilter) : Work.Keeps J (f.apply c root settings v) := by
  cases f with
  | hook entity key name scope run => exact Joining.keeps_run h _
  | column entity key mode col | related entity key link | relatedWhere entity key link child =>
    exact Work.keeps_of _

namespace Registry

theorem keeps_sortable? {R : Registry → Prop}
    (hR : ∀ entity kind, Work.Keeps R (table entity kind)) (entity : String) :
    Work.Keeps R (sortable? entity) := by
  refine Work.keeps_tryCatch ((hR entity .sortable).bind fun t => Work.keeps_pure _) fun err => ?_
  split
  · exact Work.keeps_pure _
  · exact Work.keeps_of (.error _)

end Registry

/-- What sorting is made of: tables, columns of joined tables, and joins, also those of hooks. -/
inductive SortM.Made (root : Definition) : {α : Type} → SortM α → Prop
  | pure {α : Type} (a : α) : Made root (pure a)
  | bind {α β : Type} {m : SortM α} {f : α → SortM β} (hm : Made root m)
      (hf : ∀ a, Made root (f a)) : Made root (m >>= f)
  | table (entity : String) (kind : Kind) :
      Made root (SortM.ofRegistry (Registry.table entity kind))
  | column (j : Joined) (segment : String) :
      Made root (SortM.ofRegistry (Registry.joinedColumn? j segment))
  | path (path : String) : Made root (SortM.ofJoins fun c => leftJoin c root path)
  | hook {α : Type} (m : Joining α) : Made root (SortM.ofJoins fun c => m.run c root)

namespace Registry

open SortM (Made)

variable (root : Definition) (t : Table) (scope : Scope)

theorem made_sortJoined (path : String) (direction : Direction) :
    Made root (sortJoined root path direction) := by
  unfold sortJoined
  split
  · exact .pure _
  · refine .bind (.path _) fun joined => ?_
    split
    · exact .pure _
    · refine .bind (.column _ _) fun column => ?_
      split
      · exact .pure _
      · exact .pure _

theorem made_sortAlias (entry : Entry) (direction : Direction) :
    Made root (sortAlias root entry direction) := by
  unfold sortAlias
  dsimp only
  split
  · exact .pure _
  · exact .hook _

theorem made_sortToken (token : String) : Made root (sortToken root t scope token) := by
  unfold sortToken
  dsimp only
  split
  · split
    · exact made_sortAlias root _ _
    · exact made_sortJoined root _ _
  · exact .pure _

theorem made_sortTokens (tokens : List String) : Made root (sortTokens root t scope tokens) := by
  induction tokens with
  | nil => exact .pure _
  | cons token tokens ih =>
    exact .bind (made_sortToken root t scope token) fun _ => .bind ih fun _ => .pure _

/-- **Sorting is made of nothing else.** -/
theorem made_sort (tokens : List String) : Made root (sort root tokens scope) :=
  .bind (.table _ _) fun t => made_sortTokens root t scope _

end Registry

/-- **What tables and the joins of paths keep is kept by sorting.** -/
theorem SortM.Made.keeps {R : Registry → Prop} {J : Joins → Prop} {root : Definition} {α : Type}
    {m : SortM α} (h : Made root m)
    (hR : ∀ entity kind, Work.Keeps R (Registry.table entity kind))
    (hJ : ∀ r, R r → ∀ path, Work.Keeps J (leftJoin r.catalog root path)) :
    Work.Keeps (Both R J) m := by
  induction h with
  | pure a => exact Work.keeps_pure a
  | bind hm hf ihm ihf => exact ihm.bind ihf
  | table entity kind => exact keeps_ofRegistry (hR entity kind)
  | column j segment =>
    exact keeps_ofRegistry ((Registry.keeps_sortable? hR _).bind fun _ => Work.keeps_pure _)
  | path path => exact keeps_ofJoins fun r hr => hJ r hr path
  | hook m => exact keeps_ofJoins fun r hr => m.keeps_run (hJ r hr)

namespace Registry

theorem keeps_table {c : Catalog} (entity : String) (kind : Kind) :
    Work.Keeps (Of c) (table entity kind) := (answers_table rfl).keeps

end Registry

/-! ## Calls -/

namespace Planner

/-- What can be asked of a planner. -/
inductive Call where
  | filter (ps : Params)
  | filterKey (key : String) (v : Value)
  | setDefaultFilter (ps : Params)
  | select (paths : List String)
  | selectScoped (paths : List String) (scope : Scope)
  | selectOnly (patterns : List String)
  | selectExcept (patterns : List String)
  | unselect (patterns : List String)
  | setDefaultSelect (paths : List String)
  | sort (tokens : List String)
  | sortScoped (tokens : List String) (scope : Scope)
  | setDefaultSort (tokens : List String)
  | join (path : String)
  | paginate (number : Int64) (size : Option UInt64)
  | skipTake (skip : UInt64) (size : Option UInt64)
  | paginateBy (ps : Params)
  | apply (ps : Params)

/-- The work of a call. -/
def Call.work : Call → PlannerM Unit
  | .filter ps => Planner.filter ps
  | .filterKey key v => Planner.filterKey key v
  | .setDefaultFilter ps => Planner.setDefaultFilter ps
  | .select paths => Planner.select paths
  | .selectScoped paths scope => Planner.selectScoped paths scope
  | .selectOnly patterns => Planner.selectOnly patterns
  | .selectExcept patterns => Planner.selectExcept patterns
  | .unselect patterns => Planner.unselect patterns
  | .setDefaultSelect paths => Planner.setDefaultSelect paths
  | .sort tokens => Planner.sort tokens
  | .sortScoped tokens scope => Planner.sortScoped tokens scope
  | .setDefaultSort tokens => Planner.setDefaultSort tokens
  | .join path => do
    let _ ← Planner.join path
  | .paginate number size => Planner.paginate number size
  | .skipTake skip size => Planner.skipTake skip size
  | .paginateBy ps => Planner.paginateBy ps
  | .apply ps => Planner.apply ps

/-- The registry and the planner behind a call, whether it succeeds or not. -/
def perform (s : Registry × Planner) (call : Call) : Registry × Planner := (call.work.run.run s).2

/-- The registry and the planner behind several calls. -/
def after (s : Registry × Planner) (calls : List Call) : Registry × Planner :=
  calls.foldl perform s

/-! ### Properties that calls keep -/

/-- What is asked of two planners so far is the same. -/
structure SamePlan (p q : Planner) : Prop where
  entity : q.entity = p.entity
  settings : q.settings = p.settings
  filters : q.filters = p.filters
  selection : q.selection = p.selection
  joins : q.joins = p.joins
  orders : q.orders = p.orders

/-- Whether a call may ask for filters. -/
def Call.asksForFilters : Call → Bool
  | .filter _ | .filterKey _ _ | .apply _ => true
  | _ => false

/-- A property that holds behind each kind of work that calls without filters are made of, whether
the work succeeds or not. -/
structure KeptBeside (I : Registry × Planner → Prop) : Prop where
  table : ∀ entity kind, Work.Keeps I (PlannerM.ofRegistry (Registry.table entity kind))
  selectScoped : ∀ paths scope, Work.Keeps I (Planner.selectScoped paths scope)
  unselect : ∀ patterns, Work.Keeps I (Planner.unselect patterns)
  sortScoped : ∀ tokens scope, Work.Keeps I (Planner.sortScoped tokens scope)
  join : ∀ path, Work.Keeps I (Planner.join path)
  update : ∀ f : Planner → Planner, (∀ p, SamePlan p (f p)) → Work.Keeps I (PlannerM.update f)

/-- A property that holds behind each kind of work that calls are made of, whether the work succeeds
or not. -/
structure Kept (I : Registry × Planner → Prop) : Prop extends KeptBeside I where
  filterKey : ∀ key v, Work.Keeps I (Planner.filterKey key v)

section Kept

variable {I : Registry × Planner → Prop}

theorem keeps_current : Work.Keeps I current := Work.keeps_get.bind fun _ => Work.keeps_pure _

/-- Whether a parameter is meant as a filter is looked up in tables. -/
theorem keeps_isFilter
    (h : ∀ entity kind, Work.Keeps I (PlannerM.ofRegistry (Registry.table entity kind)))
    (name : String) : Work.Keeps I (isFilter name) := by
  refine keeps_current.bind fun p => ?_
  split
  · refine keeps_current.bind fun p => ?_
    dsimp only
    split
    · exact Work.keeps_pure _
    · exact (h _ _).bind fun _ => Work.keeps_pure _
  · exact Work.keeps_pure _

/-- What the predicates of keys keep is kept by the filter of a key, if a filter more keeps it. -/
theorem keeps_filterKey_of {v : Value} (hbranch : ∀ key, Work.Keeps I (branchPredicate key v))
    (hadd : ∀ predicate, Work.Keeps I
      (PlannerM.update fun p => { p with filters := p.filters ++ [predicate] }))
    (key : String) : Work.Keeps I (filterKey key v) := by
  have hbranches : ∀ keys, Work.Keeps I (branchPredicates v keys) := by
    intro keys
    induction keys with
    | nil => exact Work.keeps_pure _
    | cons key keys ih => exact (hbranch key).bind fun _ => ih.bind fun _ => Work.keeps_pure _
  unfold filterKey
  split
  · exact Work.keeps_pure _
  · refine (hbranches _).bind fun predicates => ?_
    split
    · exact Work.keeps_pure _
    · exact hadd _

theorem KeptBeside.page (h : KeptBeside I) (request : PageRequest) : Work.Keeps I (page request) :=
  keeps_current.bind fun _ => (Work.keeps_of _).bind fun _ =>
    h.update _ fun _ => ⟨rfl, rfl, rfl, rfl, rfl, rfl⟩

theorem KeptBeside.paginateBy (h : KeptBeside I) (ps : Params) : Work.Keeps I (paginateBy ps) :=
  keeps_current.bind fun _ => h.page _

/-- **Calls that ask for no filters keep what the work beside filters keeps.** -/
theorem KeptBeside.work (h : KeptBeside I) {call : Call} (hcall : call.asksForFilters = false) :
    Work.Keeps I call.work := by
  cases call with
  | filter ps | filterKey key v | apply ps => cases hcall
  | select paths => exact h.selectScoped paths .all
  | selectScoped paths scope => exact h.selectScoped paths scope
  | selectOnly patterns => exact (Work.keeps_of _).bind fun scope => h.selectScoped [] scope
  | selectExcept patterns => exact (Work.keeps_of _).bind fun scope => h.selectScoped [] scope
  | unselect patterns => exact h.unselect patterns
  | sort tokens => exact h.sortScoped tokens .all
  | sortScoped tokens scope => exact h.sortScoped tokens scope
  | join path => exact (h.join path).bind fun _ => Work.keeps_pure _
  | paginate number size => exact h.page _
  | skipTake skip size => exact h.page _
  | paginateBy ps => exact h.paginateBy ps
  | setDefaultFilter ps => exact h.update _ fun _ => ⟨rfl, rfl, rfl, rfl, rfl, rfl⟩
  | setDefaultSelect paths => exact h.update _ fun _ => ⟨rfl, rfl, rfl, rfl, rfl, rfl⟩
  | setDefaultSort tokens => exact h.update _ fun _ => ⟨rfl, rfl, rfl, rfl, rfl, rfl⟩

theorem Kept.filter (h : Kept I) (ps : Params) : Work.Keeps I (filter ps) := by
  have hrequested : ∀ es, Work.Keeps I (filterRequested es) := by
    intro es
    induction es with
    | nil => exact Work.keeps_pure _
    | cons e es ih =>
      refine (keeps_isFilter h.table e.1).bind fun isFilter => ?_
      split
      · exact (h.filterKey _ _).bind fun _ => ih.bind fun _ => Work.keeps_pure _
      · exact ih
  have hentries : ∀ es, Work.Keeps I (filterEntries es) := by
    intro es
    induction es with
    | nil => exact Work.keeps_pure _
    | cons e es ih => exact (h.filterKey _ _).bind fun _ => ih
  refine (hrequested _).bind fun any => ?_
  split
  · exact Work.keeps_pure _
  · exact keeps_current.bind fun _ => hentries _

/-- **What each kind of work keeps is kept by every call.** -/
theorem Kept.work (h : Kept I) (call : Call) : Work.Keeps I call.work := by
  cases hcall : call.asksForFilters with
  | false => exact h.toKeptBeside.work hcall
  | true =>
    cases call with
    | filter ps => exact h.filter ps
    | filterKey key v => exact h.filterKey key v
    | apply ps =>
      exact keeps_current.bind fun _ => (h.filter ps).bind fun _ =>
        (h.selectScoped _ .all).bind fun _ => (h.sortScoped _ .all).bind fun _ => h.paginateBy ps
    | _ => cases hcall

/-- **What every call keeps holds behind any calls.** -/
theorem Kept.after (h : Kept I) {s : Registry × Planner} (hs : I s) (calls : List Call) :
    I (after s calls) := by
  induction calls generalizing s with
  | nil => exact hs
  | cons call calls ih => exact ih (h.work call s hs)

end Kept

/-! ### Selections of planners -/

/-- A planner for an entity of a catalog, with a selection for which `P` holds, if it has one. -/
structure Session (c : Catalog) (d : Definition) (P : Selection → Prop) (s : Registry × Planner) :
    Prop where
  registry : s.1.Of c
  entity : s.2.entity = d
  selection : ∀ selection, s.2.selection = some selection → P selection

section Keeps

variable {c : Catalog} {d : Definition} {P Q : Selection → Prop} {α : Type}

theorem Session.imp {s : Registry × Planner} (h : Session c d P s)
    (hPQ : ∀ selection, P selection → Q selection) : Session c d Q s :=
  ⟨h.registry, h.entity, fun selection hsome => hPQ selection (h.selection selection hsome)⟩

theorem keeps_ofRegistry {m : RegistryM α} (h : Work.Keeps (Registry.Of c) m) :
    Work.Keeps (Session c d P) (PlannerM.ofRegistry m) :=
  h.on (fun _ hs => hs.registry) fun _ _ hs ht => ⟨ht, hs.entity, hs.selection⟩

theorem keeps_ofSort {m : SortM α}
    (h : Work.Keeps (SortM.Both (Registry.Of c) fun _ => True) m) :
    Work.Keeps (Session c d P) (PlannerM.ofSort m) :=
  h.on (fun _ hs => ⟨hs.registry, trivial⟩) fun _ _ hs ht => ⟨ht.1, hs.entity, hs.selection⟩

/-- A change of anything but the entity and the selection. -/
theorem keeps_update {f : Planner → Planner} (hentity : ∀ p, (f p).entity = p.entity)
    (hselection : ∀ p, (f p).selection = p.selection) :
    Work.Keeps (Session c d P) (PlannerM.update f) :=
  Work.keeps_modify fun s hs => ⟨hs.registry, (hentity s.2).trans hs.entity,
    fun selection hsome => hs.selection selection (hselection s.2 ▸ hsome)⟩

theorem keeps_filterKey (hc : c.Named) (key : String) (v : Value) :
    Work.Keeps (Session c d P) (filterKey key v) := by
  have hbranch : ∀ key, Work.Keeps (Session c d P) (branchPredicate key v) := by
    intro key
    refine keeps_current.bind fun p => ?_
    refine (keeps_ofRegistry (Registry.answers_filter hc (FilterKey.divided_parse key)).keeps).bind
      fun f => ?_
    split
    · exact Work.keeps_pure _
    · exact keeps_ofSort (SortM.keeps_ofJoins fun _ _ _ _ => trivial)
  exact keeps_filterKey_of hbranch (fun _ => keeps_update (fun _ => rfl) fun _ => rfl) key

/-- What is known of every selection of a planner: of what paths select, alone or besides what there
is, and of what is left when a part is taken back. -/
structure KnownOf (c : Catalog) (d : Definition) (P : Selection → Prop) : Prop where
  first : ∀ {depth paths scope selection}, c.select depth d.name paths scope = .ok selection →
    P (Selection.empty.merge selection)
  more : ∀ {depth paths scope selection own}, c.select depth d.name paths scope = .ok selection →
    P own → P (own.merge selection)
  remove : ∀ {own} patterns, P own → P (own.remove patterns)

/-- Selections that can be loaded stay so. -/
theorem knownOf_loadable (hd : c.find? d.name = some d) : KnownOf c d (c.Loadable d) where
  first h := by
    have hloadable := Catalog.loadable_select h hd
    obtain ⟨t, ht⟩ := hloadable.table .here
    exact (Catalog.loadable_empty ht).merge hloadable
  more h hown := hown.merge (Catalog.loadable_select h hd)
  remove patterns hown := hown.remove patterns

/-- A call that selects brings a selection to the one that there is. -/
theorem keeps_selectScoped (hP : KnownOf c d P) (paths : List String) (scope : Scope) :
    Work.Keeps (Session c d P) (selectScoped paths scope) := by
  refine Work.keeps_bind keeps_current fun s p hs hp => ?_
  cases hp
  have hanswers : Registry.Answers c _ _ := Registry.answers_select
    s.2.settings.selectDepth s.2.entity.name (s.2.pathsToSelect paths) scope
  have hkeeps : Work.Keeps (Session c d P) _ := keeps_ofRegistry hanswers.keeps
  refine Work.keeps_bind hkeeps (fun s' selection hs' hselection => ?_) s hs
  -- the paths are selected on the entity of the planner
  have hselect := (hanswers s'.1 hs'.registry.1 hs'.registry.2).1.symm.trans hselection
  rw [hs.entity] at hselect
  have hs'' := hkeeps s' hs'
  refine ⟨hs''.registry, hs''.entity, fun selection' hsome => ?_⟩
  cases hsome
  rcases hown : ((PlannerM.ofRegistry _).run.run s').2.2.selection with _ | own
  · exact hP.first hselect
  · exact hP.more hselect (hs''.selection own hown)

theorem keeps_unselect (hP : KnownOf c d P) (patterns : List String) :
    Work.Keeps (Session c d P) (unselect patterns) := by
  refine (Work.keeps_of _).bind fun t => Work.keeps_modify fun s hs => ?_
  refine ⟨hs.registry, hs.entity, fun selection hsome => ?_⟩
  obtain ⟨own, hown, rfl⟩ := Option.map_eq_some_iff.1 hsome
  exact hP.remove t (hs.selection own hown)

theorem keeps_sortScoped (tokens : List String) (scope : Scope) :
    Work.Keeps (Session c d P) (sortScoped tokens scope) := by
  refine keeps_current.bind fun p => ?_
  split
  · exact Work.keeps_pure _
  · exact (keeps_ofSort ((Registry.made_sort _ _ _).keeps Registry.keeps_table
      fun _ _ _ _ _ => trivial)).bind fun _ => keeps_update (fun _ => rfl) fun _ => rfl

/-- **Every kind of work keeps what is known of selections.** -/
theorem kept_known (hc : c.Named) (hP : KnownOf c d P) : Kept (Session c d P) where
  table _ _ := keeps_ofRegistry (Registry.keeps_table _ _)
  filterKey := keeps_filterKey hc
  selectScoped := keeps_selectScoped hP
  unselect := keeps_unselect hP
  sortScoped := keeps_sortScoped
  join _ := keeps_current.bind fun _ =>
    keeps_ofSort (SortM.keeps_ofJoins fun _ _ _ _ => trivial)
  update _ h := keeps_update (fun p => (h p).entity) fun p => (h p).selection

/-- **Every kind of work keeps a selection that can be loaded.** -/
theorem kept_session (hc : c.Named) (hd : c.find? d.name = some d) :
    Kept (Session c d (c.Loadable d)) :=
  kept_known hc (knownOf_loadable hd)

/-- **Whatever was asked of a planner, its selection fits its entity**, and the registry is sound
and has the same entities. -/
theorem session_after {r : Registry} (hs : r.Sound) (hd : r.catalog.find? d.name = some d)
    (settings : Settings) (calls : List Call) :
    Session r.catalog d (r.catalog.Fits d) (after (r, start d settings) calls) := by
  have hstart : Session r.catalog d (r.catalog.Loadable d) (r, start d settings) :=
    ⟨⟨rfl, hs⟩, rfl, fun _ hnone => by cases hnone⟩
  exact ((kept_session hs.named hd).after hstart calls).imp fun _ hloadable => hloadable.fits

end Keeps

end Planner
end RequestPlan
