import RequestPlan.Proofs.Columns.Calls
import RequestPlan.Proofs.Columns.Projections
import RequestPlan.Proofs.Planner.Plans

/-!
# Columns of plans

* `Plan.InScope`: the columns by which a plan joins, filters and orders belong to tables that are
  there.
* `inScope_of_build`: **so it is in every plan**, whatever was asked of the planner, and each level
  of its projection is over its own table when relations are found under their own names.
* `outOfScope_of_gifts`: where two relations have one name, a level has columns of another table.
-/

namespace RequestPlan

/-- The columns by which a plan joins, filters and orders belong to tables that are there: a join
compares its own table with the root table or that of an earlier join, filters are over the root
table, and orderings speak of the root table or of a join. -/
structure Plan.InScope (p : Plan) : Prop where
  joins : Join.InOrder p.table p.joins
  filters : ∀ f ∈ p.filters, f.Over p.table
  orders : ∀ o ∈ p.orders, ∃ q ∈ p.table :: p.joins.map Join.aliasName, Qualified q o.column

namespace Planner

variable {r : Registry} {d : Definition} {settings : Settings} {calls : List Call} {p : Plan}

/-- A plan is what was asked of its planner, and its projection is one of the planner's entity when
relations are found under their own names. -/
theorem exists_of_build (hs : r.Sound) (hc : r.catalog.Plain)
    (hd : r.catalog.find? d.name = some d)
    (h : (after (r, start d settings) calls).1.result
      (build (after (r, start d settings) calls).2) = .ok p) :
    ∃ projection, p = (after (r, start d settings) calls).2.planWith projection ∧
      (r.catalog.KeyedByName → ∀ q, projection = some q → q.Of r.catalog d) := by
  obtain ⟨hof, hentity, -, -⟩ := scoped_after hs hc hd settings calls
  rcases cases_of_build hof h with ⟨-, rfl⟩ | ⟨_, q, -, hq, rfl⟩
  · exact ⟨none, rfl, fun _ q hq => by cases hq⟩
  · refine ⟨some q, rfl, fun hkeyed q' hq' => ?_⟩
    cases hq'
    rw [hentity] at hq
    exact Catalog.of_project hs.named hc hkeyed hq hd

/-- **Every column of a plan is in scope.** In a catalog without hooks, none of whose keys has a
dot, this holds of the plan behind any calls, whatever was requested and whether the calls
succeeded. Columns of a projection are those of their level's table when relations are found under
their own names, since a level is known by the name of its relation alone. -/
theorem inScope_of_build (hs : r.Sound) (hc : r.catalog.Plain)
    (hd : r.catalog.find? d.name = some d)
    (h : (after (r, start d settings) calls).1.result
      (build (after (r, start d settings) calls).2) = .ok p) :
    p.InScope ∧ (r.catalog.KeyedByName →
      ∀ projection, p.projection = some projection → projection.Over p.table) := by
  obtain ⟨-, hentity, hfilters, hjoins⟩ := scoped_after hs hc hd settings calls
  obtain ⟨projection, rfl, hprojection⟩ := exists_of_build hs hc hd h
  have htable : (planWith (after (r, start d settings) calls).2 projection).table = d.table :=
    congrArg (fun e : Definition => e.table) hentity
  refine ⟨⟨?_, ?_, ?_⟩, fun hkeyed q hq => ?_⟩
  · rw [htable]
    exact hjoins.clauses
  · rw [htable]
    exact hfilters
  · rw [htable]
    exact hjoins.orders
  · rw [htable]
    exact (hprojection hkeyed q hq).over

end Planner

/-! ## Orders and customers -/

/-- Orders, which can be filtered by their buyer. -/
def Entity.order : Entity where
  name := "Order"
  table := "orders"
  key := "id"
  relations := Dict.ofList
    ([.plain .owning "buyer" "Customer" "customer_id" "id"].map fun r => (r.name, r))
  queryable := none
  filterable := some [.bare "status", .typed "buyer" (some "relation") "buyer"]
  sortable := some [.bare "status"]
  selectable := some [.bare "status", .bare "buyer"]

/-- Customers. -/
def Entity.customer : Entity where
  name := "Customer"
  table := "customers"
  key := "id"
  relations := ∅
  queryable := none
  filterable := some [.bare "name"]
  sortable := none
  selectable := some [.bare "name"]

/-- A registry that knows orders and customers. -/
def Registry.ofOrders : Registry :=
  after [.register Entity.order.define, .register Entity.customer.define]

theorem Registry.entries_ofOrders : ofOrders.catalog.entries =
    [("Customer", Entity.customer.define), ("Order", Entity.order.define)] := by rfl

theorem Registry.plain_ofOrders : ofOrders.catalog.Plain := by
  refine Catalog.plain_of_entries ?_
  rw [entries_ofOrders]
  simp only [List.forall_mem_cons, List.not_mem_nil, false_implies, implies_true, and_true]
  exact ⟨⟨rfl, by decide⟩, rfl, by decide⟩

theorem Registry.keyedByName_ofOrders : ofOrders.catalog.KeyedByName := by
  refine Catalog.keyedByName_of_entries ?_
  rw [entries_ofOrders]
  decide

namespace Planner

/-- Orders by customers, sorted by the customers' regions, which are no alias. -/
theorem inScope_of_orders :
    let s := after (Registry.ofOrders, start Entity.order.define .usual)
      [.filterKey "buyer$name" (.string "Ada"), .sort ["buyer.region_desc", "status"],
        .select ["status", "buyer.name"]]
    ∃ p projection, s.1.result (build s.2) = .ok p ∧ p.InScope ∧ p.filters.length = 1 ∧
      p.orders.map Order.column = ["orders_buyer_join.region", "orders.status"] ∧
      p.projection = some projection ∧ projection.relations.length = 1 ∧
      projection.Over "orders" := by
  intro s
  have hs : Registry.ofOrders.Sound := (Registry.sound_after _).1
  have hd : Registry.ofOrders.catalog.find? "Order" = some Entity.order.define := by rfl
  have hplan : ((s.1.result (build s.2)).toOption.map fun p =>
      (p.table, p.filters.length, p.orders.map Order.column,
        p.projection.map fun q => q.relations.length)) =
      some ("orders", 1, ["orders_buyer_join.region", "orders.status"], some 1) := by
    decide +kernel
  obtain ⟨p, hbuild, hp⟩ := Outcome.exists_of_toOption hplan
  simp only [Prod.mk.injEq, Option.map_eq_some_iff] at hp
  obtain ⟨htable, hfilters, horders, projection, hprojection, hrelations⟩ := hp
  obtain ⟨hscope, hover⟩ := inScope_of_build hs Registry.plain_ofOrders hd hbuild
  exact ⟨p, projection, hbuild, hscope, hfilters, horders, hprojection, hrelations,
    htable ▸ hover Registry.keyedByName_ofOrders projection hprojection⟩

end Planner

/-! ## Gifts -/

/-- Gifts, whose giver and order are stored apart and have one name, and whose taker is held by a
column without a name. -/
def Entity.gift : Entity where
  name := "Gift"
  table := "gifts"
  key := "id"
  relations := Dict.ofList [("giver", .plain .owning "party" "Customer" "giver_id" ""),
    ("order", .plain .owning "party" "Order" "order_id" ""),
    ("taker", .plain .owning "taker" "Customer" "" "")]
  queryable := none
  filterable := none
  sortable := none
  selectable := some [.bare "giver", .bare "order"]

/-- A registry that knows gifts besides orders and customers. -/
def Registry.ofGifts : Registry :=
  after [.register Entity.gift.define, .register Entity.order.define,
    .register Entity.customer.define]

theorem Registry.plain_ofGifts : ofGifts.catalog.Plain := by
  have hentries : ofGifts.catalog.entries = [("Customer", Entity.customer.define),
      ("Gift", Entity.gift.define), ("Order", Entity.order.define)] := by rfl
  refine Catalog.plain_of_entries ?_
  rw [hentries]
  simp only [List.forall_mem_cons, List.not_mem_nil, false_implies, implies_true, and_true]
  exact ⟨⟨rfl, by decide⟩, ⟨rfl, by decide⟩, rfl, by decide⟩

namespace Planner

/-- The orders of gifts are selected among their givers, and a join compares with a column that has
no name. -/
theorem outOfScope_of_gifts :
    let s := after (Registry.ofGifts, start Entity.gift.define .usual)
      [.join "taker", .select ["giver.name", "order.status"]]
    Registry.ofGifts.catalog.Plain ∧
    ∃ p projection j, s.1.result (build s.2) = .ok p ∧ p.projection = some projection ∧
      ¬projection.Over p.table ∧ p.joins = [j] ∧
      ∀ name, j.right = p.table ++ "." ++ name → name = "" := by
  intro s
  let j : Join := ⟨"customers", "gifts_taker_join", "gifts_taker_join.id", "gifts."⟩
  have hplan : ((s.1.result (build s.2)).toOption.map fun p => (p.table, p.joins,
      p.projection.map fun q => q.relations.map fun e =>
        (e.2.1.table, e.2.2.columns.map Column.body))) =
      some ("gifts", [j], some [("customers",
        ["customers.name", "customers.id", "orders.status", "orders.id"])]) := by
    decide +kernel
  obtain ⟨p, hbuild, hp⟩ := Outcome.exists_of_toOption hplan
  simp only [Prod.mk.injEq, Option.map_eq_some_iff] at hp
  obtain ⟨htable, hjoins, projection, hprojection, hrelations⟩ := hp
  refine ⟨Registry.plain_ofGifts, p, projection, j, hbuild, hprojection, fun hover => ?_, hjoins,
    fun name hname => ?_⟩
  · obtain ⟨e, he, hlevel⟩ : ∃ e ∈ projection.relations,
        (e.2.1.table, e.2.2.columns.map Column.body) =
          ("customers", ["customers.name", "customers.id", "orders.status", "orders.id"]) := by
      rw [← List.mem_map, hrelations]
      exact List.mem_cons_self
    obtain ⟨hcustomers, hbodies⟩ := Prod.mk.inj hlevel
    have hchild : e.2.2.Over e.2.1.table := (Projection.over_iff.1 hover).2 e he
    obtain ⟨col, hcol, hbody⟩ : ∃ col ∈ e.2.2.columns, col.body = "orders.status" := by
      rw [← List.mem_map, hbodies]
      simp
    -- the column would have to start with the name of the customers' table
    obtain ⟨name, -, hname⟩ := (Projection.over_iff.1 hchild).1 col hcol
    rw [hbody, hcustomers] at hname
    have hchars := congrArg String.toList hname
    simp at hchars
  · rw [htable] at hname
    have hchars : "gifts.".toList = "gifts.".toList ++ name.toList := by
      rw [← String.toList_append]
      exact congrArg String.toList hname
    simpa using hchars

end Planner
end RequestPlan
