import RequestPlan.Proofs.Columns.Plans

/-!
# Calls that fail

What a call did before it failed stays done. That is not much: joins, and the filters of earlier
parameters.

* `Joins.Grows`: joins to which others may have been added; `keeps_leftJoin_grows`: a path adds
  joins and changes none.
* `Planner.Intact`: a planner as it was, except that more may be joined.
* `filterBy`, `FailsAt`: filters added one after the other, up to the entry that fails;
  `exists_failsAt`: **those in front of it are added, and no others**.
* `intact_of_failure`: **a call that fails leaves the planner intact**, a filter call up to those.
-/

namespace RequestPlan

/-! ## Joins that are added to -/

namespace Joins

/-- Joins to which others may have been added: what was joined stays as it was. -/
structure Grows (js js' : Joins) : Prop where
  clauses : js.clauses <+: js'.clauses
  memo : ∀ path j, js.find? path = some j → js'.find? path = some j

theorem Grows.refl (js : Joins) : js.Grows js := ⟨List.prefix_rfl, fun _ _ hj => hj⟩

theorem Grows.trans {js js' js'' : Joins} (h : js.Grows js') (h' : js'.Grows js'') :
    js.Grows js'' :=
  ⟨h.clauses.trans h'.clauses, fun path j hj => h'.memo path j (h.memo path j hj)⟩

/-- A new join stands behind the others, for a path that was not joined. -/
theorem steps_grows {c : Catalog} {js : Joins} : Steps c js.Grows fun _ _ _ => True where
  found _ _ := trivial
  add {js' start _ _ _ clause next} hjs _ hnew _ := by
    refine ⟨⟨hjs.clauses.trans (List.prefix_append _ _), fun path j hj => ?_⟩, trivial⟩
    have hold : js'.find? path = some j := hjs.memo path j hj
    have hne : path ≠ start := by
      rintro rfl
      rw [hold] at hnew
      cases hnew
    rw [find?, Joins.add, Dict.find?_put, if_neg hne]
    exact hold

theorem keeps_leftJoin_grows (c : Catalog) (root : Definition) (js : Joins) (path : String) :
    Work.Keeps js.Grows (leftJoin c root path) :=
  steps_grows.keeps_leftJoin (fun _ _ => trivial) path

end Joins

namespace Planner

/-! ## Planners as they were -/

/-- The planner with other filters. -/
def withFilters (p : Planner) (filters : List Predicate) : Planner := { p with filters := filters }

@[simp] theorem withFilters_filters (p : Planner) (filters : List Predicate) :
    (p.withFilters filters).filters = filters := rfl

@[simp] theorem withFilters_withFilters (p : Planner) (filters filters' : List Predicate) :
    (p.withFilters filters).withFilters filters' = p.withFilters filters' := rfl

@[simp] theorem withFilters_self (p : Planner) : p.withFilters p.filters = p := rfl

/-- The planner is as it was, except that more may be joined. -/
structure Intact (p : Planner) (s : Registry × Planner) : Prop where
  rest : s.2 = { p with joins := s.2.joins }
  joins : p.joins.Grows s.2.joins

variable {p : Planner} {α β ι : Type} {s t : Registry × Planner}

theorem Intact.refl (s : Registry × Planner) : Intact s.2 s := ⟨rfl, .refl _⟩

/-- What is intact but for other filters is that from the beginning. -/
theorem Intact.trans {filters : List Predicate} (h : Intact p s)
    (ht : Intact (s.2.withFilters filters) t) : Intact (p.withFilters filters) t := by
  have hrest : t.2 = { s.2.withFilters filters with joins := t.2.joins } := ht.rest
  rw [h.rest] at hrest
  exact ⟨hrest, h.joins.trans ht.joins⟩

theorem intact_ofRegistry (m : RegistryM α) : Work.Keeps (Intact p) (PlannerM.ofRegistry m) :=
  fun _ hs => ⟨hs.rest, hs.joins⟩

theorem intact_ofSort {m : SortM α}
    (h : Work.Keeps (SortM.Both (fun _ => True) p.joins.Grows) m) :
    Work.Keeps (Intact p) (PlannerM.ofSort m) := by
  refine h.on (fun _ hs => ⟨trivial, hs.joins⟩) fun s t hs ht => ⟨?_, ht.2⟩
  exact congrArg (fun q : Planner => { q with joins := t.2 }) hs.rest

/-- Hooks can join, and nothing else. -/
theorem intact_branchPredicate (key : String) (v : Value) :
    Work.Keeps (Intact p) (branchPredicate key v) := by
  refine keeps_current.bind fun q => (intact_ofRegistry _).bind fun f? => ?_
  split
  · exact Work.keeps_pure _
  · rename_i f
    refine intact_ofSort (SortM.keeps_ofJoins fun r _ => ?_)
    exact f.keeps_apply (Joins.keeps_leftJoin_grows _ _ _) _ v

theorem intact_sort (root : Definition) (tokens : List String) (scope : Scope) :
    Work.Keeps (Intact p) (PlannerM.ofSort (Registry.sort root tokens scope)) :=
  intact_ofSort ((Registry.made_sort _ _ _).keeps (fun _ _ _ _ => trivial)
    fun _ _ => Joins.keeps_leftJoin_grows _ _ _)

theorem intact_join (path : String) : Work.Keeps (Intact p) (join path) :=
  keeps_current.bind fun _ =>
    intact_ofSort (SortM.keeps_ofJoins fun _ _ => Joins.keeps_leftJoin_grows _ _ _ path)

/-! ## Work that fails before its change -/

/-- Work that leaves the planner intact when it fails. -/
def FailsIntact (m : PlannerM α) : Prop :=
  ∀ p, Work.Triple (Intact p) m (fun _ _ => True) (Intact p)

theorem failsIntact_of_keeps {m : PlannerM α} (h : ∀ p, Work.Keeps (Intact p) m) : FailsIntact m :=
  fun p => (h p).triple.imp fun _ _ _ => trivial

/-- The change comes last: it cannot fail. -/
theorem failsIntact_update (f : Planner → Planner) : FailsIntact (PlannerM.update f) :=
  fun _ => Work.triple_modify fun _ _ => trivial

/-- Work in front may join, and keeps the rest, so that a failure behind it leaves no more. -/
theorem FailsIntact.behind {m : PlannerM α} {f : α → PlannerM β}
    (hm : ∀ p, Work.Keeps (Intact p) m) (hf : ∀ a, FailsIntact (f a)) : FailsIntact (m >>= f) :=
  fun p => (hm p).triple.bind fun a => hf a p

theorem failsIntact_selectScoped (paths : List String) (scope : Scope) :
    FailsIntact (selectScoped paths scope) :=
  .behind (fun _ => keeps_current) fun _ =>
    .behind (fun _ => intact_ofRegistry _) fun _ => failsIntact_update _

theorem failsIntact_unselect (patterns : List String) : FailsIntact (unselect patterns) :=
  .behind (fun _ => Work.keeps_of _) fun _ => failsIntact_update _

theorem failsIntact_sortScoped (tokens : List String) (scope : Scope) :
    FailsIntact (sortScoped tokens scope) := by
  refine .behind (fun _ => keeps_current) fun p => ?_
  split
  · exact failsIntact_of_keeps fun _ => Work.keeps_pure _
  · exact .behind (fun _ => intact_sort _ _ _) fun _ => failsIntact_update _

theorem failsIntact_page (request : PageRequest) : FailsIntact (page request) :=
  .behind (fun _ => keeps_current) fun _ =>
    .behind (fun _ => Work.keeps_of _) fun _ => failsIntact_update _

/-! ## Filters, one after the other -/

/-- The predicates of several things, one after the other. -/
def predicatesOf (P : ι → PlannerM (Option Predicate)) : List ι → PlannerM (List Predicate)
  | [] => return []
  | e :: es => do
    let predicate ← P e
    return predicate.toList ++ (← predicatesOf P es)

/-- The filter that a key with a value asks for, if any. -/
def keyPredicate (e : String × Value) : PlannerM (Option Predicate) := do
  if e.2.isNull then return none
  else return Predicate.any? (← predicatesOf (branchPredicate · e.2) (branches e.1))

/-- The filter that a parameter asks for, if it is meant as one. -/
def paramPredicate (e : String × Value) : PlannerM (Option Predicate) := do
  if ← isFilter e.1 then keyPredicate e else return none

/-- Adds a filter, if there is one. -/
def addFilter (predicate : Option Predicate) : PlannerM Unit :=
  PlannerM.update fun p => p.withFilters (p.filters ++ predicate.toList)

/-- Adds the filters of several things, each before the next is looked at. -/
def filterBy (P : ι → PlannerM (Option Predicate)) : List ι → PlannerM Unit
  | [] => return
  | e :: es => do
    addFilter (← P e)
    filterBy P es

theorem branchPredicates_eq (v : Value) (keys : List String) :
    branchPredicates v keys = predicatesOf (branchPredicate · v) keys := by
  induction keys with
  | nil => rfl
  | cons key keys ih => rw [branchPredicates, predicatesOf, ih]

theorem addFilter_none : addFilter none = pure () := by
  have hsame : ∀ p : Planner, p.withFilters (p.filters ++ []) = p := by simp
  funext s
  exact congrArg (fun p => (Except.ok (), s.1, p)) (hsame s.2)

theorem filterKey_eq (key : String) (v : Value) :
    filterKey key v = keyPredicate (key, v) >>= addFilter := by
  unfold filterKey keyPredicate
  split
  · rw [pure_bind, addFilter_none]
  · rw [bind_assoc, branchPredicates_eq]
    refine congrArg (_ >>= ·) (funext fun predicates => ?_)
    rw [pure_bind]
    cases Predicate.any? predicates with
    | none => exact addFilter_none.symm
    | some predicate => rfl

theorem filterEntries_eq (es : List (String × Value)) :
    filterEntries es = filterBy keyPredicate es := by
  induction es with
  | nil => rfl
  | cons e es ih => rw [filterEntries, filterBy, filterKey_eq, ih, bind_assoc]

theorem filterRequested_eq (es : List (String × Value)) :
    (do let _ ← filterRequested es) = filterBy paramPredicate es := by
  induction es with
  | nil => rfl
  | cons e es ih =>
    rw [filterRequested, filterBy, paramPredicate, bind_assoc, bind_assoc, ← ih]
    refine congrArg (_ >>= ·) (funext fun isFilter => ?_)
    cases isFilter with
    | true => simp [filterKey_eq, bind_assoc]
    | false => simp [addFilter_none]

/-! ### Work that does not know the filters -/

/-- Work that neither looks at the filters nor changes them. -/
abbrev OffFilters (m : PlannerM α) : Prop :=
  Work.Local (fun _ => True) (fun s => (s.1, s.2.withFilters [])) (fun s => s.2.filters) m

theorem same_of_withFilters {q : Planner} (h : p.withFilters [] = q.withFilters []) :
    p.entity = q.entity ∧ p.settings = q.settings ∧ p.joins = q.joins := by
  obtain ⟨hentity, hsettings, -, -, hjoins, -⟩ := Planner.mk.inj h
  exact ⟨hentity, hsettings, hjoins⟩

theorem offFilters_ofRegistry (m : RegistryM α) : OffFilters (PlannerM.ofRegistry m) := by
  refine (Work.local_whole m).on (fun _ _ => trivial) (fun _ _ _ _ => trivial) (fun _ _ _ => rfl)
    (fun s t h => ?_) fun s t u w h hu => ?_
  · exact (Prod.mk.inj h).1
  · exact Prod.ext hu (Prod.mk.inj h).2

theorem offFilters_ofSort (m : SortM α) : OffFilters (PlannerM.ofSort m) := by
  refine (Work.local_whole m).on (fun _ _ => trivial) (fun _ _ _ _ => trivial) (fun _ _ _ => rfl)
    (fun s t h => ?_) fun s t u w h hu => ?_
  · exact Prod.ext (Prod.mk.inj h).1 (same_of_withFilters (Prod.mk.inj h).2).2.2
  · cases (show u = w from hu)
    exact congrArg (fun p : Planner => (u.1, { p with joins := u.2 })) (Prod.mk.inj h).2

theorem offFilters_current_bind {g : Planner → PlannerM β} (hoff : ∀ p, OffFilters (g p))
    (hsame : ∀ p q, p.withFilters [] = q.withFilters [] → g p = g q) :
    OffFilters (current >>= g) :=
  Work.local_get_bind (fun s => hoff s.2) fun s t h => hsame s.2 t.2 (Prod.mk.inj h).2

theorem offFilters_isFilter (key : String) : OffFilters (isFilter key) := by
  refine offFilters_current_bind (fun p => ?_) fun p q h => ?_
  · split
    · refine offFilters_current_bind (fun p => ?_) fun p q h => ?_
      · dsimp only
        split
        · exact Work.local_pure _
        · exact (offFilters_ofRegistry _).bind fun _ => Work.local_pure _
      · rw [(same_of_withFilters h).1]
    · exact Work.local_pure _
  · rw [(same_of_withFilters h).2.1]

theorem offFilters_branchPredicate (key : String) (v : Value) :
    OffFilters (branchPredicate key v) := by
  refine offFilters_current_bind (fun p => ?_) fun p q h => ?_
  · refine (offFilters_ofRegistry _).bind fun f? => ?_
    split
    · exact Work.local_pure _
    · exact offFilters_ofSort _
  · rw [(same_of_withFilters h).1, (same_of_withFilters h).2.1]

section Parameters

variable {P : ι → PlannerM (Option Predicate)} {es : List ι} {err : Error}

theorem offFilters_predicatesOf (hP : ∀ e, OffFilters (P e)) (es : List ι) :
    OffFilters (predicatesOf P es) := by
  induction es with
  | nil => exact Work.local_pure _
  | cons e es ih => exact (hP e).bind fun _ => ih.bind fun _ => Work.local_pure _

theorem keeps_predicatesOf {I : Registry × Planner → Prop} (hP : ∀ e, Work.Keeps I (P e))
    (es : List ι) : Work.Keeps I (predicatesOf P es) := by
  induction es with
  | nil => exact Work.keeps_pure _
  | cons e es ih => exact (hP e).bind fun _ => ih.bind fun _ => Work.keeps_pure _

/-- From a planner with other filters, such work does the same. -/
theorem run_of_offFilters {m : PlannerM α} (h : OffFilters m) (s : Registry × Planner)
    (filters : List Predicate) : m.run.run (s.1, s.2.withFilters filters) =
      ((m.run.run s).1, (m.run.run s).2.1, (m.run.run s).2.2.withFilters filters) := by
  obtain ⟨hresult, hview⟩ := h.agree (s.1, s.2.withFilters filters) s trivial trivial rfl
  have hframe := h.frame (s.1, s.2.withFilters filters) trivial
  obtain ⟨hregistry, hplanner⟩ := Prod.mk.inj hview
  generalize m.run.run (s.1, s.2.withFilters filters) = behind
    at hresult hframe hregistry hplanner ⊢
  have hfilters : behind.2.2.filters = filters := hframe
  -- a planner is its filters and the rest, which is what such work agrees on
  have hsame : behind.2.2 = (m.run.run s).2.2.withFilters filters := by
    calc behind.2.2 = (behind.2.2.withFilters []).withFilters behind.2.2.filters := rfl
      _ = ((m.run.run s).2.2.withFilters []).withFilters filters := by rw [hplanner, hfilters]
      _ = (m.run.run s).2.2.withFilters filters := rfl
  exact Prod.ext hresult (Prod.ext hregistry hsame)

/-- An entry fails, and those in front of it have filters. -/
def FailsAt (P : ι → PlannerM (Option Predicate)) (s : Registry × Planner) (es : List ι)
    (err : Error) (added : List Predicate) : Prop :=
  ∃ before e behind t, es = before ++ e :: behind ∧
    (predicatesOf P before).run.run s = (.ok added, t) ∧ ((P e).run.run t).1 = .error err

theorem FailsAt.cons {e : ι} {predicate : Option Predicate} {added : List Predicate}
    (he : (P e).run.run s = (.ok predicate, t)) (h : FailsAt P t es err added) :
    FailsAt P s (e :: es) err (predicate.toList ++ added) := by
  obtain ⟨before, e', behind, u, rfl, hbefore, hfails⟩ := h
  refine ⟨e :: before, e', behind, u, rfl, ?_, hfails⟩
  rw [predicatesOf, Work.run_bind_of_ok he, Work.run_bind_of_ok hbefore]
  rfl

/-- The filters that there are already make no difference. -/
theorem FailsAt.of_filters {filters added : List Predicate} (hP : ∀ e, OffFilters (P e))
    (h : FailsAt P (s.1, s.2.withFilters filters) es err added) :
    FailsAt P s es err added := by
  obtain ⟨before, e, behind, t, rfl, hbefore, hfails⟩ := h
  rw [run_of_offFilters (offFilters_predicatesOf hP before)] at hbefore
  obtain ⟨hadded, rfl⟩ := Prod.mk.inj hbefore
  rw [run_of_offFilters (hP e)] at hfails
  exact ⟨before, e, behind, _, rfl, Prod.ext hadded rfl, hfails⟩

/-- **The filters of the entries in front of the one that fails are added, and no others.** -/
theorem exists_failsAt (hP : ∀ e, OffFilters (P e)) (hI : ∀ e p, Work.Keeps (Intact p) (P e))
    (h : ((filterBy P es).run.run s).1 = .error err) : ∃ added, FailsAt P s es err added ∧
      Intact (s.2.withFilters (s.2.filters ++ added)) ((filterBy P es).run.run s).2 := by
  -- the state of the rest has the filter of the first entry, which the rest does not look at
  induction es generalizing s with
  | nil => cases h
  | cons e es ih =>
    have hbehind : Intact s.2 ((P e).run.run s).2 := hI e s.2 s (.refl s)
    rcases he : (P e).run.run s with ⟨result, t⟩
    rw [he] at hbehind
    cases result with
    | error err' =>
      have hrun : (filterBy P (e :: es)).run.run s = (.error err', t) := by
        rw [filterBy, Work.run_bind_of_error he]
      rw [hrun] at h ⊢
      cases h
      refine ⟨[], ⟨[], e, es, s, rfl, rfl, by rw [he]⟩, ?_⟩
      rw [List.append_nil]
      exact hbehind
    | ok predicate =>
      have hfilters : t.2.filters = s.2.filters := by rw [hbehind.rest]
      have hrun : (filterBy P (e :: es)).run.run s = (filterBy P es).run.run
          (t.1, t.2.withFilters (s.2.filters ++ predicate.toList)) := by
        rw [filterBy, Work.run_bind_of_ok he, ← hfilters]
        rfl
      rw [hrun] at h ⊢
      obtain ⟨added, hfails, hadded⟩ := ih h
      refine ⟨predicate.toList ++ added, (hfails.of_filters hP).cons he, ?_⟩
      rw [withFilters_filters, withFilters_withFilters, List.append_assoc] at hadded
      exact hbehind.trans hadded

end Parameters

/-! ### Keys and parameters -/

theorem offFilters_keyPredicate (e : String × Value) : OffFilters (keyPredicate e) := by
  unfold keyPredicate
  split
  · exact Work.local_pure _
  · exact (offFilters_predicatesOf (offFilters_branchPredicate · _) _).bind fun _ =>
      Work.local_pure _

theorem intact_keyPredicate (e : String × Value) (p : Planner) :
    Work.Keeps (Intact p) (keyPredicate e) := by
  unfold keyPredicate
  split
  · exact Work.keeps_pure _
  · exact (keeps_predicatesOf (intact_branchPredicate · _) _).bind fun _ => Work.keeps_pure _

theorem offFilters_paramPredicate (e : String × Value) : OffFilters (paramPredicate e) := by
  refine (offFilters_isFilter e.1).bind fun isFilter => ?_
  split
  · exact offFilters_keyPredicate e
  · exact Work.local_pure _

theorem intact_paramPredicate (e : String × Value) (p : Planner) :
    Work.Keeps (Intact p) (paramPredicate e) := by
  refine (keeps_isFilter (fun _ _ => intact_ofRegistry _) e.1).bind fun isFilter => ?_
  split
  · exact intact_keyPredicate e p
  · exact Work.keeps_pure _

theorem failsIntact_filterKey (key : String) (v : Value) : FailsIntact (filterKey key v) := by
  rw [filterKey_eq]
  exact .behind (intact_keyPredicate (key, v)) fun _ => failsIntact_update _

/-- Parameters that are not meant as filters leave the planner alone. -/
theorem triple_filterRequested (p : Planner) (es : List (String × Value)) :
    Work.Triple (fun s => s.2 = p) (filterRequested es)
      (fun requested s => requested = false → s.2 = p) (fun _ => True) := by
  induction es with
  | nil => exact Work.triple_pure fun s hs _ => hs
  | cons e es ih =>
    have hkeeps : Work.Keeps (fun s => s.2 = p) (isFilter e.1) :=
      keeps_isFilter (fun _ _ _ hs => hs) e.1
    refine (hkeeps.triple.fail fun _ _ => trivial).bind fun isFilter => ?_
    split
    · refine Work.triple_true.bind fun _ => Work.triple_true.bind fun _ => ?_
      exact Work.triple_pure fun _ _ hfalse => by cases hfalse
    · exact ih

/-- **A filter call that fails has added the filters in front of the failure**: of the parameters,
or of the default ones where no parameter is meant as a filter. -/
theorem exists_failsAt_of_filter {ps : Params} {err : Error}
    (h : ((filter ps).run.run s).1 = .error err) :
    ∃ added, Intact (s.2.withFilters (s.2.filters ++ added)) ((filter ps).run.run s).2 ∧
      (FailsAt paramPredicate s ps.entries err added ∨
        ∃ r, (filterRequested ps.entries).run.run s = (.ok false, r, s.2) ∧
          FailsAt keyPredicate (r, s.2) s.2.defaultFilter.entries err added) := by
  have hplanner := (triple_filterRequested s.2 ps.entries s rfl).1
  have hparams := filterRequested_eq ps.entries
  rcases hrun : (filterRequested ps.entries).run.run s with ⟨result, r, q⟩
  rw [hrun] at hplanner
  cases result with
  | error err' =>
    -- a parameter fails
    have hfilter : (filter ps).run.run s = (.error err', r, q) := Work.run_bind_of_error hrun
    have hby : (filterBy paramPredicate ps.entries).run.run s = (.error err', r, q) := by
      rw [← hparams, Work.run_bind_of_error hrun]
    rw [hfilter] at h ⊢
    cases h
    obtain ⟨added, hfails, hadded⟩ := exists_failsAt offFilters_paramPredicate
      intact_paramPredicate (congrArg Prod.fst hby)
    rw [hby] at hadded
    exact ⟨added, hadded, .inl hfails⟩
  | ok requested =>
    have hfilter : (filter ps).run.run s = _ := Work.run_bind_of_ok hrun
    rw [hfilter] at h ⊢
    cases requested with
    | true => cases h
    | false =>
      -- only the tables were looked at, so that the default parameters start from the same planner
      obtain rfl : q = s.2 := hplanner false rfl rfl
      have hby : filterEntries s.2.defaultFilter.entries =
          filterBy keyPredicate s.2.defaultFilter.entries := filterEntries_eq _
      change ((filterEntries s.2.defaultFilter.entries).run.run (r, s.2)).1 = .error err at h
      change ∃ added, Intact _ ((filterEntries s.2.defaultFilter.entries).run.run (r, s.2)).2 ∧ _
      rw [hby] at h ⊢
      obtain ⟨added, hfails, hadded⟩ := exists_failsAt offFilters_keyPredicate
        intact_keyPredicate h
      exact ⟨added, hadded, .inr ⟨r, rfl, hfails⟩⟩

/-! ## Calls -/

/-- **A call that fails leaves the planner intact**, except that more may be joined: this holds in
all states and with any hooks, of all calls but two. A filter call adds the filters of the
parameters in front of the one that fails, in their order; where no parameter is meant as a filter,
those of the default parameters in front of the one that fails. A whole request keeps what its
parts did. -/
theorem intact_of_failure (s : Registry × Planner) (call : Call) {err : Error}
    (h : (call.work.run.run s).1 = .error err) :
    ((∀ ps, call ≠ .filter ps ∧ call ≠ .apply ps) → Intact s.2 (perform s call)) ∧
    ∀ ps, call = .filter ps →
      ∃ added, Intact (s.2.withFilters (s.2.filters ++ added)) (perform s call) ∧
        (FailsAt paramPredicate s ps.entries err added ∨
          ∃ r, (filterRequested ps.entries).run.run s = (.ok false, r, s.2) ∧
            FailsAt keyPredicate (r, s.2) s.2.defaultFilter.entries err added) := by
  refine ⟨fun hcall => ?_, ?_⟩
  · have hfails : FailsIntact call.work := by
      cases call with
      | filter ps => exact absurd rfl (hcall ps).1
      | apply ps => exact absurd rfl (hcall ps).2
      | filterKey key v => exact failsIntact_filterKey key v
      | select paths => exact failsIntact_selectScoped paths .all
      | selectScoped paths scope => exact failsIntact_selectScoped paths scope
      | selectOnly patterns | selectExcept patterns =>
        exact .behind (fun _ => Work.keeps_of _) fun _ => failsIntact_selectScoped [] _
      | unselect patterns => exact failsIntact_unselect patterns
      | sort tokens => exact failsIntact_sortScoped tokens .all
      | sortScoped tokens scope => exact failsIntact_sortScoped tokens scope
      | join path =>
        exact .behind (fun _ => intact_join path) fun _ =>
          failsIntact_of_keeps fun _ => Work.keeps_pure _
      | paginate number size | skipTake skip size => exact failsIntact_page _
      | paginateBy ps => exact .behind (fun _ => keeps_current) fun _ => failsIntact_page _
      | setDefaultFilter _ | setDefaultSelect _ | setDefaultSort _ => exact failsIntact_update _
    exact (hfails s.2 s (.refl s)).2 err h
  · rintro ps rfl
    exact exists_failsAt_of_filter h

end Planner

/-- Orders whose statuses are never read: the filter asks for the buyer, and fails. -/
def Entity.sealedOrder : Definition :=
  { Entity.order with
    hooks := { Hooks.none with
      filters := Dict.ofList
        [("status", fun _ _ => .ask "buyer" fun _ => .done (.error (.hook "status" "sealed")))] } }

/-- A registry that knows such orders and customers. -/
def Registry.ofSealedOrders : Registry :=
  after [.register Entity.sealedOrder, .register Entity.customer.define]

namespace Planner

/-- Orders by buyers and statuses: the first filter and the join of the second are kept. -/
theorem intact_of_sealedOrders :
    let s := (Registry.ofSealedOrders, start Entity.sealedOrder .usual)
    let ps : Params := ⟨[("buyer$name", .string "Ada"), ("status", .string "open")]⟩
    let s' := perform s (.filter ps)
    (s'.2.filters.length = 1 ∧ s'.2.joins.clauses.map Join.aliasName = ["orders_buyer_join"]) ∧
      ∃ err added, err.message = "hook status failed: sealed" ∧
        Intact (s.2.withFilters (s.2.filters ++ added)) s' ∧
        FailsAt paramPredicate s ps.entries err added := by
  intro s ps s'
  refine ⟨by decide +kernel, ?_⟩
  have hmessage : (match ((filter ps).run.run s).1 with
      | .error err => err.message
      | .ok _ => "") = "hook status failed: sealed" := by decide +kernel
  have hrequested : (((filterRequested ps.entries).run.run s).1).toOption ≠ some false := by
    decide +kernel
  cases hfails : ((filter ps).run.run s).1 with
  | ok a =>
    rw [hfails] at hmessage
    simp at hmessage
  | error err =>
    rw [hfails] at hmessage
    obtain ⟨added, hadded, hat⟩ := (intact_of_failure s (.filter ps) hfails).2 ps rfl
    refine ⟨err, added, hmessage, hadded, ?_⟩
    rcases hat with hat | ⟨r, hfalse, -⟩
    · exact hat
    · rw [hfalse] at hrequested
      exact absurd rfl hrequested

end Planner
end RequestPlan
