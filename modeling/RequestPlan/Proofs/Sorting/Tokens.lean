import RequestPlan.Proofs.Joins.Kept
import RequestPlan.Proofs.Planner.Concerns
import RequestPlan.Proofs.Sorting.Aliases

/-!
# Sort tokens one by one

* `SortM.Yields`: work that answers the same and keeps the same legs behind any faithful joins.
* `Registry.exists_yields_token`: **so does sorting by one token**, when no hook sorts.
* `Registry.sorted_eq_ok`: **several tokens order by what each of them orders by**, and keep the
  legs of each.
* `Registry.sorted_append`: **sorting by all of some tokens is sorting by the first ones and then by
  the others.**
-/

namespace RequestPlan

/-! ## Paths of tokens -/

namespace Direction

theorem splitToken_prefix (token : String) : (splitToken token).1.toList <+: token.toList := by
  have hsuffix (stop path : String) (h : Text.dropSuffix? stop token = some path) :
      path.toList <+: token.toList := by
    rw [← Text.dropSuffix?_eq_some_iff.1 h, String.toList_append]
    exact List.prefix_append _ _
  rw [splitToken]
  split
  · rename_i path hdesc
    exact hsuffix _ _ hdesc
  · split
    · rename_i path hasc
      exact hsuffix _ _ hasc
    · exact List.prefix_rfl

end Direction

/-- What stands before the last dot of a path is headed, unless the path starts with a dot. -/
theorem headed_of_cutLast? {path before segment : String}
    (h : Text.cutLast? '.' path = some (before, segment)) (hhead : path.toList.head? ≠ some '.') :
    Headed (Text.splitOn '.' before) := by
  rw [Text.append_of_cutLast? h] at hhead
  rw [headed_splitOn_iff]
  cases hbefore : before.toList with
  | nil => exact absurd (by rw [hbefore]; rfl) hhead
  | cons c cs =>
    refine ⟨c, rfl, ?_⟩
    rintro rfl
    exact hhead (by rw [hbefore]; rfl)

/-! ## Work that does not depend on what is joined -/

namespace SortM

variable {c : Catalog} {root : Definition} {α β : Type} {m : SortM α} {f : α → SortM β}
  {x : Except Error α} {legs more : List Leg} {r : Registry}

/-- Work that has one answer and keeps the same legs, whatever faithful joins there are. -/
def Yields (c : Catalog) (root : Definition) (m : SortM α) (x : Except Error α)
    (legs : List Leg) : Prop :=
  ∀ (r : Registry) (js : Joins), r.Of c → js.Faithful c root → ∃ r' : Registry, r'.Of c ∧
    m.run.run (r, js) = (x, (r', js.keepAll legs)) ∧ (js.keepAll legs).Faithful c root

theorem run_ofJoins (m : Catalog → JoinM α) (r : Registry) (js : Joins) :
    (ofJoins m).run.run (r, js) =
      (((m r.catalog).run.run js).1, (r, ((m r.catalog).run.run js).2)) := rfl

theorem yields_pure (a : α) : Yields c root (pure a) (.ok a) [] :=
  fun r _ hr hjs => ⟨r, hr, rfl, hjs⟩

theorem Yields.bind {a : α} {y : Except Error β} (hm : Yields c root m (.ok a) legs)
    (hf : Yields c root (f a) y more) : Yields c root (m >>= f) y (legs ++ more) := by
  intro r js hr hjs
  obtain ⟨r₁, hr₁, hfirst, hjs₁⟩ := hm r js hr hjs
  obtain ⟨r₂, hr₂, hrest, hjs₂⟩ := hf r₁ _ hr₁ hjs₁
  rw [Joins.keepAll_append]
  exact ⟨r₂, hr₂, (Work.run_bind_of_ok hfirst).trans hrest, hjs₂⟩

theorem Yields.fail {err : Error} (hm : Yields c root m (.error err) legs) :
    Yields c root (m >>= f) (.error err) legs := by
  intro r js hr hjs
  obtain ⟨r₁, hr₁, hfirst, hjs₁⟩ := hm r js hr hjs
  exact ⟨r₁, hr₁, Work.run_bind_of_error hfirst, hjs₁⟩

/-- Work behind other work that joins nothing more. -/
theorem Yields.exists_bind (hm : Yields c root m x legs)
    (hf : ∀ a, ∃ y, Yields c root (f a) y []) : ∃ y, Yields c root (m >>= f) y legs := by
  cases x with
  | error err => exact ⟨_, hm.fail⟩
  | ok a =>
    obtain ⟨y, hy⟩ := hf a
    have hbind := hm.bind hy
    rw [List.append_nil] at hbind
    exact ⟨y, hbind⟩

/-- Work on the registry whose answer does not depend on what is kept there. -/
theorem yields_ofRegistry {m : RegistryM α}
    (h : Work.Local (Registry.Of c) (fun _ => ()) (fun _ => ()) m) (hr : r.Of c) :
    Yields c root (ofRegistry m) (r.result m) [] := by
  intro r' js hr' hjs
  exact ⟨r'.behind m, h.keeps r' hr',
    Prod.ext (h.agree r' r hr' hr rfl).1 rfl, hjs⟩

/-- **A path yields the table at its end**, and the legs of its route. -/
theorem yields_leftJoin {path : String} (hpath : Headed (Text.splitOn '.' path)) :
    Yields c root (ofJoins fun c => leftJoin c root path)
      (c.arrive root.joined (Text.splitOn '.' path)) (c.route root (Text.splitOn '.' path)) := by
  rintro r js ⟨rfl, hr⟩ hjs
  have hrun := hjs.run_leftJoin hpath
  rw [dotted_splitOn] at hrun
  refine ⟨r, ⟨rfl, hr⟩, ?_, hjs.keepAll_route hpath⟩
  rw [run_ofJoins, hrun]

theorem yields_leftJoin_of_not_headed {path : String} (hblank : ¬root.JoinsBlank)
    (hpath : ¬Headed (Text.splitOn '.' path)) :
    Yields c root (ofJoins fun c => leftJoin c root path) (.ok none) [] := by
  rintro r js ⟨rfl, hr⟩ hjs
  refine ⟨r, ⟨rfl, hr⟩, ?_, hjs⟩
  rw [run_ofJoins, hjs.run_leftJoin_of_not_headed hblank hpath]
  rfl

end SortM

/-! ## One token -/

namespace Registry

open SortM (Yields yields_pure)

variable {c : Catalog} {root : Definition} {t : Table} {scope : Scope} {r : Registry} {js : Joins}

theorem exists_yields_sortJoined (hr : r.Of c) {path : String}
    (hhead : path.toList.head? = some '.' → ¬root.JoinsBlank) (direction : Direction) :
    ∃ legs x, Yields c root (sortJoined root path direction) x legs ∧
      (legs.map Leg.path).Nodup := by
  unfold sortJoined
  split
  · exact ⟨[], _, yields_pure [], List.nodup_nil⟩
  · rename_i before segment hcut
    have hjoin : ∃ legs x, Yields c root (SortM.ofJoins fun c => leftJoin c root before) x legs ∧
        (legs.map Leg.path).Nodup := by
      by_cases hpath : Headed (Text.splitOn '.' before)
      · exact ⟨_, _, SortM.yields_leftJoin hpath, Catalog.nodup_route hpath⟩
      · have hdot := not_not.1 fun h => hpath (headed_of_cutLast? hcut h)
        exact ⟨_, _, SortM.yields_leftJoin_of_not_headed (hhead hdot) hpath, List.nodup_nil⟩
    obtain ⟨legs, x, hx, hnodup⟩ := hjoin
    refine ⟨legs, exists_and_right.2 ⟨hx.exists_bind fun joined? => ?_, hnodup⟩⟩
    -- what comes behind the path joins nothing more
    cases joined? with
    | none => exact ⟨_, yields_pure []⟩
    | some joined =>
      have hcolumn : Work.Local (Of c) (fun _ => ()) (fun _ => ()) (joinedColumn? joined segment) :=
        (local_sortable? _).bind fun _ => Work.local_pure _
      refine (SortM.yields_ofRegistry hcolumn hr).exists_bind fun column? => ?_
      cases column? with
      | none => exact ⟨_, yields_pure []⟩
      | some column => exact ⟨_, yields_pure _⟩

theorem exists_yields_sortToken (hr : r.Of c) (hhooks : root.hooks.sorts = ∅) {token : String}
    (hhead : token.toList.head? = some '.' → ¬root.JoinsBlank) :
    ∃ legs x, Yields c root (sortToken root t scope token) x legs ∧
      (legs.map Leg.path).Nodup := by
  have hpath : (Direction.splitToken token).1.toList.head? = some '.' → ¬root.JoinsBlank := by
    intro hdot
    obtain ⟨rest, hrest⟩ := Direction.splitToken_prefix token
    refine hhead ?_
    rw [← hrest, List.head?_append, hdot]
    rfl
  unfold sortToken
  dsimp only
  split
  · split
    · rename_i entry _
      rw [sortAlias_eq hhooks]
      exact ⟨[], _, yields_pure _, List.nodup_nil⟩
    · exact exists_yields_sortJoined hr hpath _
  · exact ⟨[], _, yields_pure [], List.nodup_nil⟩

/-! ## Several tokens -/

/-- The orderings for tokens that may be blank, or have blanks around them. -/
def sortTrimmed (root : Definition) (t : Table) (scope : Scope) (tokens : List String) :
    SortM (List Order) :=
  sortTokens root t scope (tokens.filterMap Text.nonBlank?)

/-- **Tokens are sorted by one after the other.** -/
theorem sortTrimmed_append (tokens more : List String) :
    sortTrimmed root t scope (tokens ++ more) = do
      let orders ← sortTrimmed root t scope tokens
      return orders ++ (← sortTrimmed root t scope more) := by
  unfold sortTrimmed
  rw [List.filterMap_append]
  induction tokens.filterMap Text.nonBlank? with
  | nil => simp [sortTokens]
  | cons token tokens ih =>
    rw [List.cons_append, sortTokens, sortTokens, ih]
    simp only [bind_assoc, pure_bind, List.append_assoc]

/-- **One token answers the same and keeps the same legs behind any joins.** -/
theorem exists_yields_token (hr : r.Of c) (hhooks : root.hooks.sorts = ∅) {token : String}
    (hhead : (Text.trim token).toList.head? = some '.' → ¬root.JoinsBlank) :
    ∃ legs x, Yields c root (sortTrimmed root t scope [token]) x legs ∧
      (legs.map Leg.path).Nodup := by
  unfold sortTrimmed
  cases htoken : Text.nonBlank? token with
  | none =>
    rw [List.filterMap_cons_none htoken]
    exact ⟨[], _, yields_pure [], List.nodup_nil⟩
  | some trimmed =>
    have htrim : trimmed = Text.trim token := by
      rw [Text.nonBlank?] at htoken
      split at htoken
      · cases htoken
      · exact (Option.some.inj htoken).symm
    rw [List.filterMap_cons_some htoken, List.filterMap_nil, sortTokens]
    obtain ⟨legs, x, hx, hnodup⟩ : ∃ legs x,
        Yields c root (sortToken root t scope trimmed) x legs ∧ (legs.map Leg.path).Nodup :=
      exists_yields_sortToken hr hhooks (htrim ▸ hhead)
    exact ⟨legs, exists_and_right.2 ⟨hx.exists_bind fun orders => ⟨_, yields_pure _⟩, hnodup⟩⟩

/-- Each of some tokens has its answer and its legs. -/
theorem exists_yields_tokens (t : Table) (scope : Scope) (hr : r.Of c)
    (hhooks : root.hooks.sorts = ∅) {tokens : List String} (hheads : ∀ token ∈ tokens,
      (Text.trim token).toList.head? = some '.' → ¬root.JoinsBlank) :
    ∃ (legs : String → List Leg) (x : String → Except Error (List Order)), ∀ token ∈ tokens,
      Yields c root (sortTrimmed root t scope [token]) (x token) (legs token) ∧
        ((legs token).map Leg.path).Nodup := by
  have hyields : ∀ token, ∃ legs x, token ∈ tokens →
      Yields c root (sortTrimmed root t scope [token]) x legs ∧ (legs.map Leg.path).Nodup := by
    intro token
    by_cases hmem : token ∈ tokens
    · obtain ⟨legs, x, hx⟩ : ∃ legs x, Yields c root (sortTrimmed root t scope [token]) x legs ∧
          (legs.map Leg.path).Nodup := exists_yields_token hr hhooks (hheads token hmem)
      exact ⟨legs, x, fun _ => hx⟩
    · exact ⟨[], .ok [], fun h => absurd h hmem⟩
  choose legs x hx using hyields
  exact ⟨legs, x, hx⟩

/-- Several tokens order by what each of them orders by, one after the other, and what they keep are
the legs of each of them. -/
theorem run_sortTrimmed_eq_ok {tokens : List String} {x : String → Except Error (List Order)}
    {legs : String → List Leg}
    (h : ∀ token ∈ tokens, Yields c root (sortTrimmed root t scope [token]) (x token) (legs token))
    (hr : r.Of c) (hjs : js.Faithful c root) {orders : List Order} {s : Registry × Joins}
    (hrun : (sortTrimmed root t scope tokens).run.run (r, js) = (.ok orders, s)) :
    (∃ parts, List.Forall₂ (fun token part => x token = .ok part) tokens parts ∧
      orders = parts.flatten) ∧ s.2 = js.keepAll (tokens.flatMap legs) := by
  induction tokens generalizing r js orders with
  | nil =>
    cases hrun
    exact ⟨⟨[], .nil, rfl⟩, rfl⟩
  | cons token tokens ih =>
    obtain ⟨htoken, htokens⟩ := List.forall_mem_cons.1 h
    obtain ⟨r₁, hr₁, hfirst, hjs₁⟩ := htoken r js hr hjs
    rw [← List.singleton_append, sortTrimmed_append] at hrun
    cases hx : x token with
    | error err =>
      rw [hx] at hfirst
      rw [Work.run_bind_of_error hfirst] at hrun
      cases hrun
    | ok part =>
      rw [hx] at hfirst
      rw [Work.run_bind_of_ok hfirst] at hrun
      rcases hrest : (sortTrimmed root t scope tokens).run.run (r₁, js.keepAll (legs token)) with
        ⟨y, u⟩
      cases y with
      | error err =>
        rw [Work.run_bind_of_error hrest] at hrun
        cases hrun
      | ok later =>
        rw [Work.run_bind_of_ok hrest] at hrun
        cases hrun
        obtain ⟨⟨parts, hparts, rfl⟩, hjoins⟩ := ih htokens hr₁ hjs₁ hrest
        refine ⟨⟨part :: parts, .cons hx hparts, rfl⟩, ?_⟩
        rw [hjoins, List.flatMap_cons, Joins.keepAll_append]

/-! ## The table -/

/-- Behind the table of an entity, sorting is by its tokens. -/
theorem run_sort_eq (hr : r.Of c) (ht : c.table root.name .sortable = .ok t)
    (tokens : List String) : (sort root tokens scope).run.run (r, js) =
      (sortTrimmed root t scope tokens).run.run (r.behind (table root.name .sortable), js) := by
  have hrun : (SortM.ofRegistry (table root.name .sortable)).run.run (r, js) =
      (.ok t, (r.behind (table root.name .sortable), js)) :=
    Prod.ext (answers_table ht r hr.1 hr.2).1 rfl
  exact Work.run_bind_of_ok hrun

/-- An entity without a table cannot be sorted by. -/
theorem run_sort_eq_error (hr : r.Of c) {err : Error}
    (ht : c.table root.name .sortable = .error err) (tokens : List String) :
    (sort root tokens scope).run.run (r, js) =
      (.error err, (r.behind (table root.name .sortable), js)) := by
  have hrun : (SortM.ofRegistry (table root.name .sortable)).run.run (r, js) =
      (.error err, (r.behind (table root.name .sortable), js)) :=
    Prod.ext (answers_table ht r hr.1 hr.2).1 rfl
  exact Work.run_bind_of_error hrun

/-! ## Sorting behind joins -/

/-- What tokens order by behind some joins, and the joins that they leave, whatever becomes of what
the registry keeps. -/
def sorted (r : Registry) (d : Definition) (scope : Scope) (js : Joins) (tokens : List String) :
    Except Error (List Order) × Joins :=
  let behind := (sort d tokens scope).run.run (r, js)
  (behind.1, behind.2.2)

/-- An entity that is sorted by has a table. -/
theorem exists_table_of_sorted (hr : r.Of c) {tokens : List String} {orders : List Order}
    (h : (sorted r root scope js tokens).1 = .ok orders) :
    ∃ t, c.table root.name .sortable = .ok t := by
  cases ht : c.table root.name .sortable with
  | error err =>
    rw [sorted, run_sort_eq_error hr ht] at h
    cases h
  | ok t => exact ⟨t, rfl⟩

/-- Sorting is by the table of the entity. -/
theorem sorted_eq (hr : r.Of c) (ht : c.table root.name .sortable = .ok t) (tokens : List String) :
    sorted r root scope js tokens =
      let behind := (sortTrimmed root t scope tokens).run.run
        (r.behind (table root.name .sortable), js)
      (behind.1, behind.2.2) := by
  rw [sorted, run_sort_eq hr ht]

/-- What tokens yield is what they order by, and the legs are what they join. -/
theorem sorted_eq_of_yields (hr : r.Of c) (ht : c.table root.name .sortable = .ok t)
    {tokens : List String} {x : Except Error (List Order)} {legs : List Leg}
    (h : Yields c root (sortTrimmed root t scope tokens) x legs) (hjs : js.Faithful c root) :
    sorted r root scope js tokens = (x, js.keepAll legs) := by
  obtain ⟨r', -, hrun, -⟩ := h _ js (answers_table ht r hr.1 hr.2).2 hjs
  rw [sorted_eq hr ht, hrun]

/-- **Sorting by several tokens orders by what each of them orders by**, where it succeeds, and
keeps the legs of each of them. -/
theorem sorted_eq_ok (hr : r.Of c) (ht : c.table root.name .sortable = .ok t)
    (hjs : js.Faithful c root) {tokens : List String} {x : String → Except Error (List Order)}
    {legs : String → List Leg}
    (h : ∀ token ∈ tokens, Yields c root (sortTrimmed root t scope [token]) (x token) (legs token))
    {orders : List Order} (hsorted : (sorted r root scope js tokens).1 = .ok orders) :
    (∃ parts, List.Forall₂ (fun token part => x token = .ok part) tokens parts ∧
      orders = parts.flatten) ∧
      (sorted r root scope js tokens).2 = js.keepAll (tokens.flatMap legs) := by
  rw [sorted_eq hr ht] at hsorted ⊢
  exact run_sortTrimmed_eq_ok h (answers_table ht r hr.1 hr.2).2 hjs (Prod.ext hsorted rfl)

/-- What tokens order by does not depend on what a registry keeps. -/
theorem sorted_eq_of {r' : Registry} (hr : r.Of c) (hr' : r'.Of c) (tokens : List String) :
    sorted r root scope js tokens = sorted r' root scope js tokens := by
  obtain ⟨hresult, hjoins⟩ :=
    (made_sort root scope tokens).settled.agree (r, js) (r', js) hr hr' rfl
  exact Prod.ext hresult hjoins

/-- **Sorting by all of some tokens is sorting by the first ones and then by the others.** -/
theorem sorted_append (hr : r.Of c) (tokens more : List String) :
    sorted r root scope js (tokens ++ more) =
      match sorted r root scope js tokens with
      | (.error err, js') => (.error err, js')
      | (.ok orders, js') =>
        let later := sorted r root scope js' more
        (later.1.map (orders ++ ·), later.2) := by
  cases ht : c.table root.name .sortable with
  | error err => simp only [sorted, run_sort_eq_error hr ht]
  | ok t =>
    have hr₀ : Of c (r.behind (table root.name .sortable)) := (answers_table ht r hr.1 hr.2).2
    have hsettled (tokens : List String) : SortM.Settled c (sortTrimmed root t scope tokens) :=
      (made_sortTokens root t scope _).settled
    simp only [sorted_eq hr ht, sortTrimmed_append]
    have hr₁ := (hsettled tokens).keeps (r.behind (table root.name .sortable), js) hr₀
    rcases hfirst : (sortTrimmed root t scope tokens).run.run
      (r.behind (table root.name .sortable), js) with ⟨x, r₁, js₁⟩
    rw [hfirst] at hr₁
    cases x with
    | error err => rw [Work.run_bind_of_error hfirst]
    | ok orders =>
      rw [Work.run_bind_of_ok hfirst]
      -- the rest is sorted by the same way from what the registry keeps by then
      obtain ⟨hresult, hjoins⟩ := (hsettled more).agree
        (r.behind (table root.name .sortable), js₁) (r₁, js₁) hr₀ hr₁ rfl
      rcases hrest : (sortTrimmed root t scope more).run.run (r₁, js₁) with ⟨y, r₂, js₂⟩
      rw [hrest] at hresult hjoins
      dsimp only at hresult hjoins ⊢
      rw [hresult, hjoins]
      cases y with
      | error err => rw [Work.run_bind_of_error hrest]; rfl
      | ok later => rw [Work.run_bind_of_ok hrest]; rfl

end Registry
end RequestPlan
