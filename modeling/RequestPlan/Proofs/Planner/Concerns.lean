import RequestPlan.Proofs.Columns.Plans

/-!
# Concerns of calls

* `Call.concern?`: what a call is about; `Planner.part`: what a planner holds of it.
* `LocalTo`: work that looks at one part of a planner only, and changes no other.
* `local_reply`: **without hooks, every call is such work**.
* `replies_eq_of_concerns`: **calls of different concerns can be made in any order**: each of them
  is answered the same, and the plan is the same.
-/

namespace RequestPlan

/-! ## Work that does not depend on what is kept -/

theorem Registry.Answers.local {c : Catalog} {α : Type} {m : RegistryM α} {x : Except Error α}
    (h : Answers c m x) :
    Work.Local (Registry.Of c) (fun _ => ()) (fun _ => ()) m where
  keeps := h.keeps
  frame _ _ := rfl
  agree r r' hr hr' _ := by
    have hresult : result r m = x := (h r hr.1 hr.2).1
    have hresult' : result r' m = x := (h r' hr'.1 hr'.2).1
    exact ⟨hresult.trans hresult'.symm, rfl⟩

theorem Registry.local_sortable? {c : Catalog} (entity : String) :
    Work.Local (Registry.Of c) (fun _ => ()) (fun _ => ()) (sortable? entity) := by
  have htable : Work.Local (Registry.Of c) (fun _ => ()) (fun _ => ()) (table entity .sortable) :=
    (answers_table rfl).local
  refine Work.local_tryCatch (htable.bind fun t => Work.local_pure _) fun err => ?_
  split
  · exact Work.local_pure _
  · exact Work.local_of (.error _)

namespace SortM

variable {c : Catalog} {α : Type}

/-- Work that depends on the joins only, whatever is kept in the registry. -/
abbrev Settled (c : Catalog) (m : SortM α) : Prop :=
  Work.Local (fun s => s.1.Of c) (fun s => s.2) (fun _ => ()) m

theorem settled_ofRegistry {m : RegistryM α}
    (h : Work.Local (Registry.Of c) (fun _ => ()) (fun _ => ()) m) : Settled c (ofRegistry m) :=
  h.on (fun _ hs => hs) (fun _ _ _ hr => hr) (fun _ _ _ => rfl) (fun _ _ _ => rfl)
    fun _ _ _ _ hview _ => hview

/-- The catalog is all that joins need of the registry. -/
theorem settled_ofJoins (m : Catalog → JoinM α) : Settled c (ofJoins m) where
  keeps _ hs := hs
  frame _ _ := rfl
  agree s t hs ht hview := by
    show ((m s.1.catalog).run.run s.2).1 = ((m t.1.catalog).run.run t.2).1 ∧
      ((m s.1.catalog).run.run s.2).2 = ((m t.1.catalog).run.run t.2).2
    rw [hs.1, ht.1, hview]
    exact ⟨rfl, rfl⟩

/-- **Sorting depends on the joins only.** -/
theorem Made.settled {root : Definition} {m : SortM α} (h : Made root m) : Settled c m := by
  induction h with
  | pure a => exact Work.local_pure a
  | bind hm hf ihm ihf => exact ihm.bind ihf
  | table entity kind => exact settled_ofRegistry (Registry.answers_table rfl).local
  | column j segment =>
    exact settled_ofRegistry ((Registry.local_sortable? _).bind fun _ => Work.local_pure _)
  | path path => exact settled_ofJoins _
  | hook m => exact settled_ofJoins _

end SortM

namespace Planner

/-! ## Concerns -/

/-- What a call is about. -/
inductive Concern where
  | filtering
  | selecting
  /-- Orderings and joins. -/
  | ordering
  | windowing
deriving DecidableEq, Repr

/-- The concern of a call. A whole request has none of its own. -/
def Call.concern? : Call → Option Concern
  | .filter _ | .filterKey _ _ | .setDefaultFilter _ => some .filtering
  | .select _ | .selectScoped _ _ | .selectOnly _ | .selectExcept _ | .unselect _
  | .setDefaultSelect _ => some .selecting
  | .sort _ | .sortScoped _ _ | .setDefaultSort _ | .join _ => some .ordering
  | .paginate _ _ | .skipTake _ _ | .paginateBy _ => some .windowing
  | .apply _ => none

/-- What a planner holds of a concern: the rest is as it was at the start. -/
def part (p : Planner) : Concern → Planner
  | .filtering =>
    { start p.entity p.settings with filters := p.filters, defaultFilter := p.defaultFilter }
  | .selecting =>
    { start p.entity p.settings with selection := p.selection, defaultSelect := p.defaultSelect }
  | .ordering =>
    { start p.entity p.settings with
      joins := p.joins, orders := p.orders, defaultSort := p.defaultSort }
  | .windowing => { start p.entity p.settings with window := p.window }

variable {c : Catalog} {k : Concern} {p q : Planner} {α β : Type}

theorem part_filtering_eq_iff : p.part .filtering = q.part .filtering ↔
    (p.entity = q.entity ∧ p.settings = q.settings) ∧
      p.filters = q.filters ∧ p.defaultFilter = q.defaultFilter := by
  simp [part, start, and_assoc]

theorem part_selecting_eq_iff : p.part .selecting = q.part .selecting ↔
    (p.entity = q.entity ∧ p.settings = q.settings) ∧
      p.selection = q.selection ∧ p.defaultSelect = q.defaultSelect := by
  simp [part, start, and_assoc]

theorem part_ordering_eq_iff : p.part .ordering = q.part .ordering ↔
    (p.entity = q.entity ∧ p.settings = q.settings) ∧
      p.joins = q.joins ∧ p.orders = q.orders ∧ p.defaultSort = q.defaultSort := by
  simp [part, start, and_assoc]

theorem part_windowing_eq_iff : p.part .windowing = q.part .windowing ↔
    (p.entity = q.entity ∧ p.settings = q.settings) ∧ p.window = q.window := by
  simp [part, start, and_assoc]

theorem planner_of_part (h : p.part k = q.part k) :
    p.entity = q.entity ∧ p.settings = q.settings := by
  cases k with
  | filtering => exact (part_filtering_eq_iff.1 h).1
  | selecting => exact (part_selecting_eq_iff.1 h).1
  | ordering => exact (part_ordering_eq_iff.1 h).1
  | windowing => exact (part_windowing_eq_iff.1 h).1

/-- **A planner is the sum of its parts.** -/
theorem eq_of_parts (h : ∀ k, p.part k = q.part k) : p = q := by
  obtain ⟨⟨hentity, hsettings⟩, hfilters, hdefaultFilter⟩ :=
    part_filtering_eq_iff.1 (h .filtering)
  obtain ⟨-, hselection, hdefaultSelect⟩ := part_selecting_eq_iff.1 (h .selecting)
  obtain ⟨-, hjoins, horders, hdefaultSort⟩ := part_ordering_eq_iff.1 (h .ordering)
  obtain ⟨-, hwindow⟩ := part_windowing_eq_iff.1 (h .windowing)
  cases p
  cases q
  congr

/-! ## Work on one part -/

/-- Work with a sound registry of a catalog and one part of a planner. -/
abbrev LocalTo (c : Catalog) (k : Concern) (m : PlannerM α) : Prop :=
  Work.Local (fun s => s.1.Of c) (fun s => s.2.part k)
    (fun s (other : {other // other ≠ k}) => s.2.part other) m

theorem local_ofRegistry {m : RegistryM α} {x : Except Error α} (h : Registry.Answers c m x) :
    LocalTo c k (PlannerM.ofRegistry m) :=
  h.local.on (fun _ hs => hs) (fun _ _ _ hr => hr) (fun _ _ _ => rfl) (fun _ _ _ => rfl)
    fun _ _ _ _ hview _ => hview

/-- Work behind an answer of the registry has it at hand. -/
theorem local_ofRegistry_bind {m : RegistryM α} {x : Except Error α} {g : α → PlannerM β}
    (h : Registry.Answers c m x) (hg : ∀ a, x = .ok a → LocalTo c k (g a)) :
    LocalTo c k (PlannerM.ofRegistry m >>= g) := by
  refine Work.local_bind (local_ofRegistry h) fun s a hs ha => hg a ?_
  have hresult : s.1.result m = x := (h s.1 hs.1 hs.2).1
  exact hresult.symm.trans ha

theorem local_ofSort {m : SortM α} (h : SortM.Settled c m) :
    LocalTo c .ordering (PlannerM.ofSort m) := by
  refine h.on (fun _ hs => hs) (fun _ _ _ ht => ht) (fun s t _ => ?_) (fun s t hview => ?_)
    fun s t u w hview hjoins => ?_
  · funext other
    obtain ⟨other, hother⟩ := other
    cases other with
    | ordering => exact absurd rfl hother
    | filtering | selecting | windowing => rfl
  · exact (part_ordering_eq_iff.1 hview).2.1
  · obtain ⟨hplanner, -, horders⟩ := part_ordering_eq_iff.1 hview
    exact part_ordering_eq_iff.2 ⟨hplanner, hjoins, horders⟩

theorem local_update {f : Planner → Planner}
    (hpart : ∀ p q, p.part k = q.part k → (f p).part k = (f q).part k)
    (hothers : ∀ p, ∀ other ≠ k, (f p).part other = p.part other) :
    LocalTo c k (PlannerM.update f) :=
  Work.local_modify (fun _ hs => hs) (fun s => funext fun other => hothers s.2 other other.2)
    fun s t h => hpart s.2 t.2 h

/-- Work that sees the planner is local if it looks at the part only. -/
theorem local_current_bind {g : Planner → PlannerM β} (hlocal : ∀ p, LocalTo c k (g p))
    (hpart : ∀ p q, p.part k = q.part k → g p = g q) : LocalTo c k (current >>= g) :=
  Work.local_get_bind (fun s => hlocal s.2) fun s t h => hpart s.2 t.2 h

/-! ### Filters -/

theorem local_isFilter (name : String) : LocalTo c k (isFilter name) := by
  refine local_current_bind (fun p => ?_) fun p q h => ?_
  · split
    · refine local_current_bind (fun p => ?_) fun p q h => ?_
      · dsimp only
        split
        · exact Work.local_pure _
        · exact (local_ofRegistry (Registry.answers_table rfl)).bind fun _ => Work.local_pure _
      · rw [(planner_of_part h).1]
    · exact Work.local_pure _
  · rw [(planner_of_part h).2]

/-- Without hooks no filter asks for joins. -/
theorem local_branchPredicate (hnamed : c.Named)
    (hhooks : ∀ name d, c.find? name = some d → d.hooks = .none) (key : String) (v : Value) :
    LocalTo c k (branchPredicate key v) := by
  refine local_current_bind (fun p => ?_) fun p q h => ?_
  · refine local_ofRegistry_bind (Registry.answers_filter hnamed (FilterKey.divided_parse key))
      fun f? hf? => ?_
    cases f? with
    | none => exact Work.local_pure _
    | some f =>
      obtain ⟨d, hfind⟩ := Catalog.exists_of_filter hf?
      have hplain : ¬f.IsHook := (Catalog.of_filter hnamed hfind hf?).not_isHook (hhooks _ d hfind)
      -- such a filter is applied without joins, and no part of the planner changes
      have halone : (PlannerM.ofSort (SortM.ofJoins fun c => f.apply c p.entity p.settings v)) =
          Work.of (f.applyAlone p.settings v) := by
        simp only [CompiledFilter.apply_eq hplain]
        cases f.applyAlone p.settings v <;> rfl
      dsimp only
      rw [halone]
      exact Work.local_of _
  · rw [(planner_of_part h).1, (planner_of_part h).2]

theorem local_filterKey (hnamed : c.Named)
    (hhooks : ∀ name d, c.find? name = some d → d.hooks = .none) (key : String) (v : Value) :
    LocalTo c .filtering (filterKey key v) := by
  have hbranches : ∀ keys, LocalTo c .filtering (branchPredicates v keys) := by
    intro keys
    induction keys with
    | nil => exact Work.local_pure _
    | cons key keys ih =>
      exact (local_branchPredicate hnamed hhooks key v).bind fun _ =>
        ih.bind fun _ => Work.local_pure _
  unfold filterKey
  split
  · exact Work.local_pure _
  · refine (hbranches _).bind fun predicates => ?_
    split
    · exact Work.local_pure _
    · refine local_update (fun p q h => ?_) fun p other hother => ?_
      · obtain ⟨hplanner, hfilters, hdefault⟩ := part_filtering_eq_iff.1 h
        exact part_filtering_eq_iff.2 ⟨hplanner, by rw [hfilters], hdefault⟩
      · cases other <;> first | rfl | exact absurd rfl hother

theorem local_filter (hnamed : c.Named)
    (hhooks : ∀ name d, c.find? name = some d → d.hooks = .none) (ps : Params) :
    LocalTo c .filtering (filter ps) := by
  have hkey := local_filterKey hnamed hhooks
  have hrequested : ∀ es, LocalTo c .filtering (filterRequested es) := by
    intro es
    induction es with
    | nil => exact Work.local_pure _
    | cons e es ih =>
      refine (local_isFilter e.1).bind fun isFilter => ?_
      split
      · exact (hkey _ _).bind fun _ => ih.bind fun _ => Work.local_pure _
      · exact ih
  -- the default parameters are read when the call is made, from the part itself
  have hentries : ∀ es, LocalTo c .filtering (filterEntries es) := by
    intro es
    induction es with
    | nil => exact Work.local_pure _
    | cons e es ih => exact (hkey _ _).bind fun _ => ih
  refine (hrequested _).bind fun any => ?_
  split
  · exact Work.local_pure _
  · refine local_current_bind (fun p => hentries _) fun p q h => ?_
    rw [(part_filtering_eq_iff.1 h).2.2]

/-! ### The other calls -/

theorem local_selectScoped (paths : List String) (scope : Scope) :
    LocalTo c .selecting (selectScoped paths scope) := by
  refine local_current_bind (fun p => ?_) fun p q h => ?_
  · refine (local_ofRegistry (Registry.answers_select _ _ _ _)).bind fun selection => ?_
    refine local_update (fun p q h => ?_) fun p other hother => ?_
    · obtain ⟨hplanner, hselection, hdefault⟩ := part_selecting_eq_iff.1 h
      exact part_selecting_eq_iff.2 ⟨hplanner, by rw [hselection], hdefault⟩
    · cases other <;> first | rfl | exact absurd rfl hother
  · obtain ⟨⟨hentity, hsettings⟩, -, hdefault⟩ := part_selecting_eq_iff.1 h
    have hpaths : p.pathsToSelect paths = q.pathsToSelect paths := by
      unfold pathsToSelect
      rw [hdefault]
    rw [hentity, hsettings, hpaths]

theorem local_unselect (patterns : List String) : LocalTo c .selecting (unselect patterns) := by
  refine (Work.local_of _).bind fun t => local_update (fun p q h => ?_) fun p other hother => ?_
  · obtain ⟨hplanner, hselection, hdefault⟩ := part_selecting_eq_iff.1 h
    exact part_selecting_eq_iff.2 ⟨hplanner, by rw [hselection], hdefault⟩
  · cases other <;> first | rfl | exact absurd rfl hother

theorem local_sortScoped (tokens : List String) (scope : Scope) :
    LocalTo c .ordering (sortScoped tokens scope) := by
  refine local_current_bind (fun p => ?_) fun p q h => ?_
  · split
    · exact Work.local_pure _
    · have hsort := (Registry.made_sort p.entity scope (p.tokensToSort tokens)).settled (c := c)
      refine (local_ofSort hsort).bind fun orders => ?_
      refine local_update (fun p q h => ?_) fun p other hother => ?_
      · obtain ⟨hplanner, hjoins, horders, hdefault⟩ := part_ordering_eq_iff.1 h
        exact part_ordering_eq_iff.2 ⟨hplanner, hjoins, by rw [horders], hdefault⟩
      · cases other <;> first | rfl | exact absurd rfl hother
  · obtain ⟨⟨hentity, -⟩, -, -, hdefault⟩ := part_ordering_eq_iff.1 h
    have htokens : p.tokensToSort tokens = q.tokensToSort tokens := by
      unfold tokensToSort
      rw [hdefault]
    rw [hentity, htokens]

theorem local_join (path : String) : LocalTo c .ordering (join path) := by
  refine local_current_bind (fun p => local_ofSort (SortM.settled_ofJoins _)) fun p q h => ?_
  rw [(planner_of_part h).1]

theorem local_page (request : PageRequest) : LocalTo c .windowing (page request) := by
  refine local_current_bind (fun p => ?_) fun p q h => ?_
  · refine (Work.local_of _).bind fun w => local_update (fun p q h => ?_) fun p other hother => ?_
    · exact part_windowing_eq_iff.2 ⟨(part_windowing_eq_iff.1 h).1, rfl⟩
    · cases other <;> first | rfl | exact absurd rfl hother
  · rw [(planner_of_part h).2]

/-- **Without hooks, every call is work on the part of its concern.** -/
theorem local_work (hnamed : c.Named)
    (hhooks : ∀ name d, c.find? name = some d → d.hooks = .none) {call : Call}
    (h : call.concern? = some k) : LocalTo c k call.work := by
  cases call <;> cases h
  case filter ps => exact local_filter hnamed hhooks ps
  case filterKey key v => exact local_filterKey hnamed hhooks key v
  case setDefaultFilter ps =>
    show LocalTo c .filtering (PlannerM.update fun p => { p with defaultFilter := ps })
    refine local_update (fun p q h => ?_) fun p other hother => ?_
    · obtain ⟨hplanner, hfilters, -⟩ := part_filtering_eq_iff.1 h
      exact part_filtering_eq_iff.2 ⟨hplanner, hfilters, rfl⟩
    · cases other <;> first | rfl | exact absurd rfl hother
  case select paths => exact local_selectScoped paths .all
  case selectScoped paths scope => exact local_selectScoped paths scope
  case selectOnly patterns =>
    exact (Work.local_of _).bind fun scope => local_selectScoped [] scope
  case selectExcept patterns =>
    exact (Work.local_of _).bind fun scope => local_selectScoped [] scope
  case unselect patterns => exact local_unselect patterns
  case setDefaultSelect paths =>
    show LocalTo c .selecting (PlannerM.update fun p => { p with defaultSelect := paths })
    refine local_update (fun p q h => ?_) fun p other hother => ?_
    · obtain ⟨hplanner, hselection, -⟩ := part_selecting_eq_iff.1 h
      exact part_selecting_eq_iff.2 ⟨hplanner, hselection, rfl⟩
    · cases other <;> first | rfl | exact absurd rfl hother
  case sort tokens => exact local_sortScoped tokens .all
  case sortScoped tokens scope => exact local_sortScoped tokens scope
  case setDefaultSort tokens =>
    show LocalTo c .ordering (PlannerM.update fun p => { p with defaultSort := tokens })
    refine local_update (fun p q h => ?_) fun p other hother => ?_
    · obtain ⟨hplanner, hjoins, horders, -⟩ := part_ordering_eq_iff.1 h
      exact part_ordering_eq_iff.2 ⟨hplanner, hjoins, horders, rfl⟩
    · cases other <;> first | rfl | exact absurd rfl hother
  case join path => exact (local_join path).bind fun _ => Work.local_pure _
  case paginate number size => exact local_page _
  case skipTake skip size => exact local_page _
  case paginateBy ps =>
    refine local_current_bind (fun p => local_page _) fun p q h => ?_
    rw [(planner_of_part h).2]

/-! ## Answers to calls -/

/-- The work of a call, with what it answers: a join says which table it led to. -/
def Call.reply : Call → PlannerM (Option Joined)
  | .join path => Planner.join path
  | call => do
    call.work
    return none

/-- What each of several calls answers, one after the other, also behind those that fail. -/
def replies (s : Registry × Planner) : List Call → List (Call × Except Error (Option Joined))
  | [] => []
  | call :: calls => (call, (call.reply.run.run s).1) :: replies (perform s call) calls

/-- A call does the same, whether its answer is asked for or not. -/
theorem run_reply (s : Registry × Planner) (call : Call) :
    (call.reply.run.run s).2 = perform s call := by
  have hpure : ∀ {α β : Type} (m : PlannerM α) (b : β),
      ((m >>= fun _ => pure b).run.run s).2 = (m.run.run s).2 := by
    intro α β m b
    cases hresult : (m.run.run s).1 with
    | error err => rw [Work.run_bind_of_error (Prod.ext hresult rfl)]
    | ok a =>
      rw [Work.run_bind_of_ok (Prod.ext hresult rfl)]
      rfl
  cases call with
  | join path => exact (hpure (Planner.join path) ()).symm
  | _ => exact hpure _ none

theorem local_reply (hnamed : c.Named)
    (hhooks : ∀ name d, c.find? name = some d → d.hooks = .none) {call : Call}
    (h : call.concern? = some k) : LocalTo c k call.reply := by
  cases call
  case join path =>
    cases h
    exact local_join path
  all_goals exact (local_work hnamed hhooks h).bind fun _ => Work.local_pure _

section Order

variable {s t : Registry × Planner} {calls : List Call}

/-- **What the calls of one concern answer, and the part they leave, do not depend on the calls of
other concerns between them.** -/
theorem replies_of_concern (hnamed : c.Named)
    (hhooks : ∀ name d, c.find? name = some d → d.hooks = .none)
    (hconcern : ∀ call ∈ calls, call.concern? ≠ none) (hs : s.1.Of c) (ht : t.1.Of c)
    (hpart : s.2.part k = t.2.part k) :
    (replies s calls).filter (fun reply => reply.1.concern? = some k) =
        replies t (calls.filter fun call => call.concern? = some k) ∧
      (after s calls).2.part k =
        (after t (calls.filter fun call => call.concern? = some k)).2.part k ∧
      (after s calls).1.Of c := by
  induction calls generalizing s t with
  | nil => exact ⟨rfl, hpart, hs⟩
  | cons call calls ih =>
    obtain ⟨hcall, hcalls⟩ := List.forall_mem_cons.1 hconcern
    obtain ⟨k', hk'⟩ := Option.ne_none_iff_exists'.1 hcall
    have hlocal : LocalTo c k' call.reply := local_reply hnamed hhooks hk'
    have hs' : (perform s call).1.Of c := run_reply s call ▸ hlocal.keeps s hs
    by_cases hk : k' = k
    · -- both do the call, on the same part
      subst hk
      have ht' : (perform t call).1.Of c := run_reply t call ▸ hlocal.keeps t ht
      obtain ⟨hsame, hbehind⟩ := hlocal.agree s t hs ht hpart
      rw [run_reply, run_reply] at hbehind
      obtain ⟨hreplies, hafter, hof⟩ := ih hcalls hs' ht' hbehind
      refine ⟨?_, ?_, hof⟩
      · rw [replies, List.filter_cons_of_pos (by simpa using hk'),
          List.filter_cons_of_pos (by simpa using hk'), replies, hsame, hreplies]
      · rw [List.filter_cons_of_pos (by simpa using hk')]
        exact hafter
    · -- the call leaves the part alone
      have hframe := congrFun (hlocal.frame s hs) ⟨k, fun h => hk h.symm⟩
      rw [run_reply] at hframe
      obtain ⟨hreplies, hafter, hof⟩ := ih hcalls hs' ht (hframe.trans hpart)
      have hne : call.concern? ≠ some k := by
        rw [hk']
        exact fun h => hk (Option.some.inj h)
      refine ⟨?_, ?_, hof⟩
      · rw [replies, List.filter_cons_of_neg (by simpa using hne),
          List.filter_cons_of_neg (by simpa using hne), hreplies]
      · rw [List.filter_cons_of_neg (by simpa using hne)]
        exact hafter

end Order

/-- **Calls of different concerns can be made in any order.** In a catalog without hooks, take two
sequences of calls, none of them a whole request, that have the same calls in the same order for
each concern. Whatever was kept in the registry before, each call is answered the same in both: it
fails with the same error, or succeeds with the same table. So is what is asked of the planner
behind them, and the plan. -/
theorem replies_eq_of_concerns {r r' : Registry} (hs : r.Sound) (hs' : r'.Sound)
    (hcatalog : r'.catalog = r.catalog)
    (hhooks : ∀ name d, r.catalog.find? name = some d → d.hooks = .none) (d : Definition)
    (settings : Settings) {calls calls' : List Call}
    (hconcern : ∀ call ∈ calls ++ calls', call.concern? ≠ none)
    (hsame : ∀ k, calls.filter (fun call => call.concern? = some k) =
      calls'.filter fun call => call.concern? = some k) :
    let s := after (r, start d settings) calls
    let s' := after (r', start d settings) calls'
    (∀ k, (replies (r, start d settings) calls).filter (fun reply => reply.1.concern? = some k) =
      (replies (r', start d settings) calls').filter fun reply => reply.1.concern? = some k) ∧
    s.2 = s'.2 ∧ s.1.result (build s.2) = s'.1.result (build s'.2) := by
  intro s s'
  have hof : Registry.Of r.catalog r := ⟨rfl, hs⟩
  have hof' : Registry.Of r.catalog r' := ⟨hcatalog, hs'⟩
  have hcalls : ∀ call ∈ calls, call.concern? ≠ none := fun call h =>
    hconcern call (List.mem_append_left _ h)
  have hcalls' : ∀ call ∈ calls', call.concern? ≠ none := fun call h =>
    hconcern call (List.mem_append_right _ h)
  -- both are compared with the calls of one concern alone
  have hone : ∀ k, _ := fun k => replies_of_concern (k := k) hs.named hhooks hcalls
    (s := (r, start d settings)) (t := (r, start d settings)) hof hof rfl
  have hone' : ∀ k, _ := fun k => replies_of_concern (k := k) hs.named hhooks hcalls'
    (s := (r', start d settings)) (t := (r, start d settings)) hof' hof rfl
  have hplanner : s.2 = s'.2 := by
    refine eq_of_parts fun k => ?_
    have hpart := (hone k).2.1
    rw [hsame k, ← (hone' k).2.1] at hpart
    exact hpart
  refine ⟨fun k => ?_, hplanner, ?_⟩
  · rw [(hone k).1, hsame k, (hone' k).1]
  · have hsound : s.1.Of r.catalog := (hone .filtering).2.2
    have hsound' : s'.1.Of r.catalog := (hone' .filtering).2.2
    rw [(answers_build s.2 s.1 hsound.1 hsound.2).1,
      (answers_build s'.2 s'.1 hsound'.1 hsound'.2).1, hplanner]

/-- Orders by buyers, asked for in two orders, where a filter was made before: the joins and the
orderings come out the same. -/
theorem replies_eq_of_orders :
    let root := Entity.order.define
    let kept := (after (Registry.ofOrders, start root .usual)
      [.filterKey "buyer$name" (.string "Bob")]).1
    let calls : List Call := [.filterKey "buyer$name" (.string "Ada"), .sort ["buyer.region"],
      .select ["status"], .join "seller", .paginate 0 none]
    let calls' : List Call := [.sort ["buyer.region"], .paginate 0 none, .join "seller",
      .filterKey "buyer$name" (.string "Ada"), .select ["status"]]
    let s := after (Registry.ofOrders, start root .usual) calls
    let s' := after (kept, start root .usual) calls'
    kept.filters.length ≠ Registry.ofOrders.filters.length ∧
      (replies (Registry.ofOrders, start root .usual) calls).filter
          (fun reply => reply.1.concern? = some .ordering) =
        (replies (kept, start root .usual) calls').filter
          (fun reply => reply.1.concern? = some .ordering) ∧
      s.1.result (build s.2) = s'.1.result (build s'.2) := by
  intro root kept calls calls' s s'
  have hs : Registry.ofOrders.Sound := (Registry.sound_after _).1
  have hd : Registry.ofOrders.catalog.find? "Order" = some root := by rfl
  have hkept : kept.Of Registry.ofOrders.catalog :=
    (session_after hs hd .usual [.filterKey "buyer$name" (.string "Bob")]).registry
  have hconcern : ∀ call ∈ calls ++ calls', call.concern? ≠ none := by
    simp [calls, calls', Call.concern?]
  have hsame : ∀ k, calls.filter (fun call => call.concern? = some k) =
      calls'.filter fun call => call.concern? = some k := by
    intro k
    cases k <;> rfl
  obtain ⟨hreplies, -, hplan⟩ := replies_eq_of_concerns hs hkept.2 hkept.1
    Registry.plain_ofOrders.hooks root .usual hconcern hsame
  exact ⟨by decide +kernel, hreplies .ordering, hplan⟩

end Planner
end RequestPlan
