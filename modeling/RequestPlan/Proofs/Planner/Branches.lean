import RequestPlan.Proofs.Planner.FilterAliases

/-!
# Branches of filter keys

A key with `_or_` in it names several filters, its branches.

* `given?`: an outcome, unless it is that there is nothing: a branch for which the registry has no
  filter is not given.
* `Planner.predicatesBy`: the predicates of filters for a value, one filter after the other.
* `Planner.grouping`: what becomes of a planner that is given predicates for one key.
* `Planner.found`, `Planner.outcome`: what a registry has for a key, and what a planner answers to
  it.
* `filterKey_of_branches`: **only the branches that are filters matter**: keys with the same ones
  have the same outcome, and several predicates make one group.
-/

namespace RequestPlan

/-- An outcome, unless it is that there is nothing. -/
def given? {α : Type} : Except Error (Option α) → Option (Except Error α)
  | .ok none => none
  | .ok (some a) => some (.ok a)
  | .error err => some (.error err)

theorem given?_eq_none_iff {α : Type} {x : Except Error (Option α)} :
    given? x = none ↔ x = .ok none := by
  rcases x with err | _ | a <;> simp [given?]

namespace Planner

/-- The predicates of filters for a value, in order, each filter with the joins of those before it.
A filter that is not to be had ends it. -/
def predicatesBy (c : Catalog) (p : Planner) (v : Value) :
    List (Except Error CompiledFilter) → JoinM (List Predicate)
  | [] => return []
  | f? :: rest => do
    let f ← Work.of f?
    let predicate ← f.apply c p.entity p.settings v
    return predicate.toList ++ (← predicatesBy c p v rest)

/-- What becomes of a planner that is given the predicates of one key. Joins stay in any case. One
predicate comes behind the filters as it is, and several as one group. -/
def grouping (p : Planner) : Except Error (List Predicate) × Joins → Except Error Unit × Planner
  | (.error err, js) => (.error err, { p with joins := js })
  | (.ok [], js) => (.ok (), { p with joins := js })
  | (.ok [predicate], js) =>
    (.ok (), { p with joins := js, filters := p.filters ++ [predicate] })
  | (.ok predicates, js) =>
    (.ok (), { p with joins := js, filters := p.filters ++ [.anyOf predicates] })

variable {c : Catalog} {p : Planner} {v : Value} {α β : Type}

/-! ## Work on the joins of a planner -/

/-- Work of a planner that comes to work on its joins, whatever is kept in the registry. -/
def JoinsOnly (c : Catalog) (p : Planner) (m : PlannerM α) (n : JoinM α) : Prop :=
  ∀ (r : Registry) (js : Joins), r.Of c → ∃ r' : Registry, r'.Of c ∧
    m.run.run (r, { p with joins := js }) =
      ((n.run.run js).1, (r', { p with joins := (n.run.run js).2 }))

theorem joinsOnly_pure (a : α) : JoinsOnly c p (pure a) (pure a) := fun r _ hr => ⟨r, hr, rfl⟩

theorem JoinsOnly.bind {m : PlannerM α} {n : JoinM α} {f : α → PlannerM β} {g : α → JoinM β}
    (hm : JoinsOnly c p m n) (hf : ∀ a, JoinsOnly c p (f a) (g a)) :
    JoinsOnly c p (m >>= f) (n >>= g) := by
  intro r js hr
  obtain ⟨r₁, hr₁, hfirst⟩ := hm r js hr
  rcases hn : n.run.run js with ⟨x, js₁⟩
  rw [hn] at hfirst
  cases x with
  | error err =>
    refine ⟨r₁, hr₁, (Work.run_bind_of_error hfirst).trans ?_⟩
    rw [Work.run_bind_of_error hn]
  | ok a =>
    obtain ⟨r₂, hr₂, hrest⟩ := hf a r₁ js₁ hr₁
    refine ⟨r₂, hr₂, (Work.run_bind_of_ok hfirst).trans ?_⟩
    rw [Work.run_bind_of_ok hn]
    exact hrest

/-- Work on the registry is no work on the joins, and its outcome is the one of the catalog. -/
theorem joinsOnly_ofRegistry {m : RegistryM α} {x : Except Error α}
    (h : Registry.Answers c m x) : JoinsOnly c p (PlannerM.ofRegistry m) (Work.of x) := by
  intro r js hr
  obtain ⟨hresult, hof⟩ := h r hr.1 hr.2
  refine ⟨r.behind m, hof, ?_⟩
  rw [run_ofRegistry, hresult, Work.run_of]

theorem joinsOnly_ofJoins (n : Catalog → JoinM α) :
    JoinsOnly c p (PlannerM.ofSort (SortM.ofJoins n)) (n c) := by
  rintro r js ⟨rfl, hs⟩
  exact ⟨r, ⟨rfl, hs⟩, rfl⟩

/-! ## One branch after the other -/

/-- What a catalog has for a key of an entity. -/
def lookUp (c : Catalog) (entity key : String) : Option (Except Error CompiledFilter) :=
  given? (c.filter entity (FilterKey.parse key))

/-- A branch is looked up in the catalog. -/
theorem joinsOnly_branchFilter (hc : c.Named) (key : String) :
    JoinsOnly c p (branchPredicate key v) (do
      match ← Work.of (c.filter p.entity.name (FilterKey.parse key)) with
      | none => pure none
      | some f => f.apply c p.entity p.settings v) := by
  -- the entity and the settings of the planner are the same with any joins
  intro r js hr
  have hbranch : JoinsOnly c p (do
      match ← PlannerM.ofRegistry (Registry.filter p.entity.name (FilterKey.parse key)) with
      | none => return none
      | some f => PlannerM.ofSort (SortM.ofJoins fun c => f.apply c p.entity p.settings v))
      (do
        match ← Work.of (c.filter p.entity.name (FilterKey.parse key)) with
        | none => pure none
        | some f => f.apply c p.entity p.settings v) := by
    refine (joinsOnly_ofRegistry
      (Registry.answers_filter hc (FilterKey.divided_parse key))).bind fun f? => ?_
    cases f? with
    | none => exact joinsOnly_pure none
    | some f => exact joinsOnly_ofJoins fun c => f.apply c p.entity p.settings v
  rw [branchPredicate, Work.run_bind_of_ok (run_current _)]
  exact hbranch r js hr

/-- The filter of a branch, if it has one, is applied with the joins so far. -/
theorem joinsOnly_branchPredicate (hc : c.Named) (key : String) :
    JoinsOnly c p (branchPredicate key v) (match lookUp c p.entity.name key with
      | none => pure none
      | some f? => do (← Work.of f?).apply c p.entity p.settings v) := by
  have hfilter := joinsOnly_branchFilter (p := p) (v := v) hc key
  rw [lookUp]
  cases hfound : c.filter p.entity.name (FilterKey.parse key) with
  | error err =>
    rw [hfound] at hfilter
    exact hfilter
  | ok f? =>
    rw [hfound] at hfilter
    cases f? with
    | none => exact hfilter
    | some f => exact hfilter

/-- **The branches of a key make what their filters make**, and nothing else of the planner changes
than its joins. -/
theorem joinsOnly_branches (hc : c.Named) (keys : List String) :
    JoinsOnly c p (predicatesOf (branchPredicate · v) keys)
      (predicatesBy c p v (keys.filterMap (lookUp c p.entity.name))) := by
  induction keys with
  | nil => exact joinsOnly_pure []
  | cons key keys ih =>
    have hkey := (joinsOnly_branchPredicate (p := p) (v := v) hc key).bind fun predicate =>
      ih.bind fun predicates => joinsOnly_pure (predicate.toList ++ predicates)
    rw [predicatesOf]
    cases hfound : lookUp c p.entity.name key with
    | none =>
      rw [hfound] at hkey
      rw [List.filterMap_cons_none hfound]
      -- a branch that makes nothing leaves all to the rest
      simpa only [pure_bind, Option.toList_none, List.nil_append, bind_pure] using hkey
    | some f? =>
      rw [hfound] at hkey
      rw [List.filterMap_cons_some hfound, predicatesBy]
      simpa only [bind_assoc] using hkey

/-! ## Keys -/

/-- **A key makes of a planner what the filters of its branches make of it.** -/
theorem run_filterKey_eq {r : Registry} (hr : r.Of c) (hv : v.isNull = false) (key : String) :
    ∃ r' : Registry, (filterKey key v).run.run (r, p) =
      let made := p.grouping ((predicatesBy c p v
        ((branches key).filterMap (lookUp c p.entity.name))).run.run p.joins)
      (made.1, (r', made.2)) := by
  obtain ⟨r', -, hrun⟩ :=
    joinsOnly_branches (p := p) (v := v) (hr.1 ▸ hr.2.named) (branches key) r p.joins hr
  refine ⟨r', ?_⟩
  rw [filterKey_eq, keyPredicate]
  simp only [hv, Bool.false_eq_true, if_false, bind_assoc, pure_bind]
  rcases hmade : (predicatesBy c p v
    ((branches key).filterMap (lookUp c p.entity.name))).run.run p.joins with ⟨x, js⟩
  rw [hmade] at hrun
  cases x with
  | error err => exact Work.run_bind_of_error hrun
  | ok predicates =>
    refine (Work.run_bind_of_ok hrun).trans ?_
    match predicates with
    | [] => exact congrArg (fun m : PlannerM Unit => m.run.run _) addFilter_none
    | [_] | _ :: _ :: _ => rfl

/-- What there is in a list is in those of its members for which there is something. -/
theorem filterMap_eq_filter {ι : Type} (g : ι → Option α) (l : List ι) :
    l.filterMap g = (l.filter fun i => (g i).isSome).filterMap g := by
  rw [List.filterMap_filter]
  refine List.filterMap_congr fun i _ => ?_
  cases g i <;> rfl

/-- The predicate of one filter is not in a group. -/
theorem grouping_predicatesBy_singleton (f : CompiledFilter) :
    p.grouping ((predicatesBy c p v [.ok f]).run.run p.joins) =
      p.answering ((f.apply c p.entity p.settings v).run.run p.joins) := by
  have hone : predicatesBy c p v [.ok f] = (do
      let predicate ← f.apply c p.entity p.settings v
      return predicate.toList) := by
    simp only [predicatesBy, Work.of, pure_bind, List.append_nil]
  rw [hone]
  rcases happly : (f.apply c p.entity p.settings v).run.run p.joins with ⟨x, js⟩
  cases x with
  | error err =>
    rw [Work.run_bind_of_error happly]
    rfl
  | ok predicate =>
    rw [Work.run_bind_of_ok happly]
    cases predicate with
    | none =>
      rw [answering, Option.toList_none, List.append_nil]
      rfl
    | some predicate => rfl

/-- What a registry has for a key of the entity that a planner is for. -/
def found (r : Registry) (p : Planner) (key : String) : Except Error (Option CompiledFilter) :=
  r.result (Registry.filter p.entity.name (FilterKey.parse key))

/-- What a planner answers to a key with a value, and what becomes of it. -/
def outcome (r : Registry) (p : Planner) (v : Value) (key : String) :
    Except Error Unit × Planner :=
  let behind := (filterKey key v).run.run (r, p)
  (behind.1, behind.2.2)

theorem given?_found {r : Registry} (hs : r.Sound) (key : String) :
    given? (found r p key) = lookUp r.catalog p.entity.name key :=
  congrArg given? (Registry.answers_filter hs.named (FilterKey.divided_parse key) r rfl hs).1

/-- Null asks for nothing. -/
theorem outcome_of_isNull {r : Registry} (hv : v.isNull = true) (key : String) :
    outcome r p v key = (.ok (), p) := by
  have hrun : (filterKey key v).run.run (r, p) = (.ok (), (r, p)) := by
    rw [filterKey, if_pos hv]
    rfl
  exact congrArg (fun behind => (behind.1, behind.2.2)) hrun

/-- **The predicates of a key are those of its branches that are filters**, in order. -/
theorem outcome_eq_grouping {r : Registry} (hs : r.Sound) (hv : v.isNull = false) (key : String) :
    outcome r p v key = p.grouping ((predicatesBy r.catalog p v
      ((branches key).filterMap fun branch => given? (found r p branch))).run.run p.joins) := by
  obtain ⟨r', hrun⟩ := run_filterKey_eq (p := p) ⟨rfl, hs⟩ hv key
  simp only [given?_found hs]
  exact congrArg (fun behind => (behind.1, behind.2.2)) hrun

/-- **Only the branches of a key that are filters matter**, whatever hooks these have, and whatever
was done with the registry and the planner before. Two keys with the same such branches, as when one
has left out others of the other one, have the same outcome: the same error, if any, and the same
planner with the same joins. A key without such a branch, or null, changes nothing. A key with one
has the outcome of this filter, and its predicate stands for itself. In general the predicates are
made in the order of the branches, each with the joins of those before it, and where there are
several, they make one group. -/
theorem filterKey_of_branches (uses : List Use) (p : Planner) (v : Value) :
    let r := Registry.empty.usedBy uses
    let isFilter := fun key => (given? (found r p key)).isSome
    (∀ key key', (branches key').filter isFilter = (branches key).filter isFilter →
      outcome r p v key' = outcome r p v key) ∧
    (∀ key, v.isNull = true ∨ (∀ branch ∈ branches key, found r p branch = .ok none) →
      outcome r p v key = (.ok (), p)) ∧
    (v.isNull = false →
      (∀ key branch f, (branches key).filter isFilter = [branch] →
        found r p branch = .ok (some f) →
        outcome r p v key =
          p.answering ((f.apply r.catalog p.entity p.settings v).run.run p.joins)) ∧
      ∀ key, outcome r p v key = p.grouping ((predicatesBy r.catalog p v
        ((branches key).filterMap fun branch => given? (found r p branch))).run.run p.joins)) := by
  intro r isFilter
  have hs : r.Sound := Registry.sound_usedBy Registry.sound_empty uses
  refine ⟨fun key key' hsame => ?_, fun key hnothing => ?_, fun hv =>
    ⟨fun key branch f hone hf => ?_, outcome_eq_grouping hs hv⟩⟩
  · cases hv : v.isNull with
    | true => rw [outcome_of_isNull hv, outcome_of_isNull hv]
    | false =>
      rw [outcome_eq_grouping hs hv, outcome_eq_grouping hs hv, filterMap_eq_filter, hsame,
        ← filterMap_eq_filter]
  · cases hv : v.isNull with
    | true => exact outcome_of_isNull hv key
    | false =>
      have hnone : (branches key).filterMap (fun branch => given? (found r p branch)) = [] := by
        refine List.filterMap_eq_nil_iff.2 fun branch hbranch => ?_
        rw [(hnothing.resolve_left (by simp [hv])) branch hbranch]
        rfl
      rw [outcome_eq_grouping hs hv, hnone]
      rfl
  · have hlist : (branches key).filterMap (fun branch => given? (found r p branch)) =
        [.ok f] := by
      have hbranch : given? (found r p branch) = some (.ok f) := by
        rw [hf]
        rfl
      rw [filterMap_eq_filter, hone, List.filterMap_cons, hbranch, List.filterMap_nil]
    rw [outcome_eq_grouping hs hv, hlist]
    exact grouping_predicatesBy_singleton f

end Planner

/-! ## Films -/

/-- Studios, which are not asked for themselves. -/
def Entity.studio : Entity where
  name := "Studio"
  table := "studios"
  key := "id"
  relations := ∅
  queryable := none
  filterable := none
  sortable := none
  selectable := none

/-- Films, which are found by their titles and by who made them. -/
def Entity.film : Entity where
  name := "Film"
  table := "films"
  key := "id"
  relations := Dict.ofList [("studio", .plain .owning "studio" "Studio" "studio_id" "")]
  queryable := none
  filterable := some [.bare "title", .bare "made_by"]
  sortable := none
  selectable := none

/-- Who made a film is the name of its studio, which has to be joined for it. -/
def filmMadeByStudio : Definition where
  toEntity := Entity.film
  hooks :=
    let madeBy : FilterHook := fun _ v => .ask "studio" fun joined =>
      .done (joined.map fun j? => j?.map fun j => .compare (j.aliasName ++ ".name") .eq v)
    { Hooks.none with filters := Dict.ofList [("made_by", madeBy)] }

namespace Planner

/-- A registry that knows films and studios. -/
def knowingFilms : List Use :=
  [.operation (.register Entity.studio.define), .operation (.register filmMadeByStudio)]

/-- Among the branches of keys for films only those are filters that stand for a title or for who
made the film. -/
theorem filterKey_of_films :
    let r := Registry.empty.usedBy knowingFilms
    let p := start filmMadeByStudio .usual
    let v := Value.string "Ghibli"
    outcome r p v "isbn_or_title_or_studio$year_or_made_by" = outcome r p v "title_or_made_by" ∧
      filterTexts (r, (outcome r p v "title_or_made_by").2) =
        ["(films.title = $1 OR films_studio_join.name = $2)"] ∧
      (∃ f, found r p "made_by" = .ok (some f) ∧ outcome r p v "made_by_or_isbn" =
        p.answering ((f.apply r.catalog p.entity p.settings v).run.run p.joins)) ∧
      filterTexts (r, (outcome r p v "made_by_or_isbn").2) = ["films_studio_join.name = $1"] ∧
      outcome r p v "isbn_or_year" = (.ok (), p) := by
  intro r p v
  obtain ⟨hsame, hnothing, hgiven⟩ := filterKey_of_branches knowingFilms p v
  obtain ⟨hone, -⟩ := hgiven rfl
  obtain ⟨f, hf⟩ : ∃ f, found r p "made_by" = .ok (some f) := by
    have hfilter : (found r p "made_by").toOption.join.isSome = true := by decide +kernel
    rcases hfound : found r p "made_by" with err | _ | f
    · exact absurd hfilter (by simp [hfound, Except.toOption])
    · exact absurd hfilter (by simp [hfound, Except.toOption])
    · exact ⟨f, rfl⟩
  have hnone : ∀ branch ∈ branches "isbn_or_year", (given? (found r p branch)).isNone = true := by
    decide +kernel
  refine ⟨?_, by decide +kernel, ⟨f, hf, ?_⟩, by decide +kernel, ?_⟩
  · exact hsame "title_or_made_by" "isbn_or_title_or_studio$year_or_made_by" (by decide +kernel)
  · exact hone "made_by_or_isbn" "made_by" f (by decide +kernel) hf
  · exact hnothing "isbn_or_year" (.inr fun branch hbranch =>
      given?_eq_none_iff.1 (Option.isNone_iff_eq_none.1 (hnone branch hbranch)))

end Planner
end RequestPlan
