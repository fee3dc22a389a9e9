import RequestPlan.Proofs.Joins.History
import RequestPlan.Proofs.Registry.Relations
import RequestPlan.Proofs.Text.Marks

/-!
# Joins and links

An owning relation is joined by a clause, while filters and projections follow its link. The link
qualifies a key by the table of its entity unless the key has a dot, and the clause puts an alias in
front of every key.

* `underAlias`: a column where its table goes by an alias.
* `Catalog.Mirrors`: what a clause has of the link of its relation, and `mirrors_of_step`: **it
  compares the columns of the link exactly when these are keys without dots**.
* `Joins.Met`: the tables along clauses; `steps_sprung`: every clause goes on from one of them.
* `mirrors_of_joins`: all this behind any paths, and for every name of a path that is joined.
-/

namespace RequestPlan

/-! ## Columns under an alias -/

/-- A column where its table goes by an alias: one that the table qualifies is qualified by the
alias, and any other stays as it is. -/
def underAlias (table aliasName column : String) : String :=
  match Text.dropPrefix? (table ++ ".") column with
  | some name => aliasName ++ "." ++ name
  | none => column

variable {e : Entity} {aliasName key : String}

theorem qualified_ne (qualifier key : String) : qualifier ++ "." ++ key ≠ key := by
  intro heq
  have hlength := congrArg String.length heq
  have hone : ".".length = 1 := rfl
  simp only [String.length_append] at hlength
  omega

theorem Entity.column_of_dot (h : '.' ∈ key.toList) : e.column key = key := if_pos h

theorem Entity.column_of_not_dot (h : '.' ∉ key.toList) : e.column key = e.table ++ "." ++ key :=
  if_neg h

/-- **A column of an entity goes along with its table exactly when its key has no dot.** -/
theorem eq_underAlias_column_iff :
    aliasName ++ "." ++ key = underAlias e.table aliasName (e.column key) ↔ '.' ∉ key.toList := by
  by_cases hdot : '.' ∈ key.toList
  · -- the column is the key, and has no alias in front of it, or one in place of its own start
    refine iff_of_false (fun heq => ?_) (not_not_intro hdot)
    rw [Entity.column_of_dot hdot, underAlias] at heq
    split at heq
    · rename_i name hname
      have hkey : e.table ++ "." ++ name = key := Text.dropPrefix?_eq_some_iff.1 hname
      rw [(String.append_right_inj _).1 heq] at hkey
      exact qualified_ne e.table name hkey
    · exact qualified_ne aliasName key heq
  · refine iff_of_true ?_ hdot
    rw [Entity.column_of_not_dot hdot, underAlias, Text.dropPrefix?_eq_some_iff.2 rfl]

/-! ## One clause -/

namespace Catalog

/-- A clause that joins `next` under a name of the entity at a table has the columns of the link of
its relation, each under the alias that its table has now. Filters follow the same link, and
projections select its columns. A key with a dot is a column of the link as it is, and has an alias
in front of it in the clause. -/
structure Mirrors (c : Catalog) (j : Joined) (name : String) (clause : Join) (next : Definition)
    (r : Relation) (l : Link) : Prop where
  link : r.link? j.definition.toEntity next.toEntity = some l
  filterLink : c.filterLink j.definition name = .ok (l, next)
  parentKeys : r.parentKeys j.definition.toEntity = [l.parentColumn]
  childKeys : r.childKeys next.toEntity = [l.relatedColumn]
  table : clause.table = l.table
  aliasName : clause.aliasName = j.aliasName ++ "_" ++ name ++ "_join"
  left : clause.left = underAlias l.table clause.aliasName l.relatedColumn ↔
    '.' ∉ (r.ownerColumn next.toEntity).toList
  right : clause.right = underAlias j.definition.table j.aliasName l.parentColumn ↔
    '.' ∉ r.foreignKey.toList
  left_of_dot : '.' ∈ (r.ownerColumn next.toEntity).toList →
    clause.left = clause.aliasName ++ "." ++ l.relatedColumn
  right_of_dot : '.' ∈ r.foreignKey.toList → clause.right = j.aliasName ++ "." ++ l.parentColumn

variable {c : Catalog} {j : Joined} {name : String} {clause : Join} {next : Definition}
  {r : Relation}

/-- **A clause compares the columns of the link exactly when these are keys without dots.** -/
theorem mirrors_of_step (hr : j.definition.relation? name = some r)
    (h : c.step j name = .ok (some (clause, next))) : ∃ l, c.Mirrors j name clause next r l := by
  obtain ⟨hkind, hrelated, rfl⟩ := owning_of_joinSegment hr h
  have hpairs : r.kind ≠ .manyToMany := by simp [hkind]
  have hlink : r.link? j.definition.toEntity next.toEntity = some ⟨r.name, next.table,
      j.definition.column r.foreignKey, next.column (r.ownerColumn next.toEntity), none⟩ := by
    rw [Relation.link?, hkind]
  refine ⟨_, hlink, ?_, ?_, ?_, rfl, rfl, eq_underAlias_column_iff, eq_underAlias_column_iff,
    fun hdot => ?_, fun hdot => ?_⟩
  · obtain ⟨l, hl, hfilterLink⟩ := exists_link_of_filterLink hr hpairs hrelated
    rw [hlink] at hl
    cases hl
    exact hfilterLink
  · rw [Relation.parentKeys, hkind]
  · rw [Relation.childKeys, hkind]
  · rw [Entity.column_of_dot hdot]
  · rw [Entity.column_of_dot hdot]

end Catalog

/-! ## All clauses -/

namespace Joins

/-- The tables that are met along clauses, from the one of an entity on. -/
inductive Met (c : Catalog) (root : Definition) (clauses : List Join) : Joined → Prop
  | root : Met c root clauses root.joined
  | step {j : Joined} {name : String} {clause : Join} {next : Definition}
      (hj : Met c root clauses j) (hstep : c.step j name = .ok (some (clause, next)))
      (hmem : clause ∈ clauses) : Met c root clauses ⟨clause.aliasName, next⟩

/-- Every clause goes on from a table that is met, and every path leads to one. -/
structure Sprung (c : Catalog) (root : Definition) (js : Joins) : Prop where
  clauses : ∀ clause ∈ js.clauses, ∃ j name next, Met c root js.clauses j ∧
    c.step j name = .ok (some (clause, next))
  memo : ∀ path j, js.find? path = some j → Met c root js.clauses j

variable {c : Catalog} {root d : Definition} {js : Joins} {clauses more : List Join} {j : Joined}
  {leg : Leg} {path : String} {clause : Join}

theorem Met.mono (h : Met c root clauses j) (hsub : clauses ⊆ more) :
    Met c root more j := by
  induction h with
  | root => exact .root
  | step _ hstep hmem ih => exact .step ih hstep (hsub hmem)

theorem sprung_none : Sprung c root .none where
  clauses _ h := absurd h List.not_mem_nil
  memo _ _ h := by cases h

theorem steps_sprung : Steps c (Sprung c root) fun js prior d =>
    Met c root js.clauses ⟨prior, d⟩ where
  found hjs hfind := hjs.memo _ _ hfind
  add {js start prior d segment clause next} hjs hprior _ hnext := by
    have hstep : c.step ⟨prior, d⟩ segment = .ok (some (clause, next)) := hnext
    have hsub : js.clauses ⊆ (js.add start clause next).clauses := List.subset_append_left _ _
    have hmet := hprior.mono hsub
    have hnew : Met c root (js.add start clause next).clauses ⟨clause.aliasName, next⟩ :=
      hmet.step hstep (List.mem_append_right _ (List.mem_singleton_self clause))
    refine ⟨⟨fun clause' hclause' => ?_, fun path j hj => ?_⟩, hnew⟩
    · rcases List.mem_append.1 hclause' with hold | hlast
      · obtain ⟨j, name, next', hj, hstep'⟩ := hjs.clauses clause' hold
        exact ⟨j, name, next', hj.mono hsub, hstep'⟩
      · cases List.mem_singleton.1 hlast
        exact ⟨_, _, _, hmet, hstep⟩
    · rw [find?_add] at hj
      split at hj
      · cases hj
        exact hnew
      · exact (hjs.memo path j hj).mono hsub

/-- **Every clause goes on from a table that is met**, whatever paths are joined. -/
theorem keeps_leftJoin_sprung (path : String) : Work.Keeps (Sprung c root) (leftJoin c root path) :=
  steps_sprung.keeps_leftJoin (fun _ _ => .root) path

/-! ## The clauses of a path -/

/-- A leg whose path is joined has its clause. -/
def Clausal (c : Catalog) (root : Definition) (js : Joins) : Prop :=
  ∀ leg, c.IsLeg root leg → Headed leg.names → (js.find? leg.path).isSome → leg.clause ∈ js.clauses

theorem clausal_none : Clausal c root .none := fun _ _ _ h => by cases h

theorem Clausal.keep (h : Clausal c root js) (hleg : c.IsLeg root leg)
    (hheaded : Headed leg.names) : Clausal c root (js.keep leg) := by
  cases hlacks : js.lacks leg with
  | false => rwa [keep_of_not_lacks hlacks]
  | true =>
    intro l hl hlheaded hsome
    rw [find?_keep hlacks] at hsome
    rw [keep_of_lacks hlacks]
    split at hsome
    · rename_i hpath
      rw [hl.unique hleg (hlheaded.dotted_inj hheaded hpath)]
      exact List.mem_append_right _ (List.mem_singleton_self _)
    · exact List.mem_append_left _ (h l hl hlheaded hsome)

theorem Clausal.add_of_not_headed (h : Clausal c root js)
    (hpath : ¬Headed (Text.splitOn '.' path)) : Clausal c root (js.add path clause d) := by
  intro l hl hlheaded hsome
  rw [find?_add, if_neg] at hsome
  · exact List.mem_append_left _ (h l hl hlheaded hsome)
  · rintro rfl
    exact hpath (hlheaded.splitOn_dotted.symm ▸ hlheaded)

theorem Clausal.keepAll {legs : List Leg} (h : Clausal c root js)
    (hlegs : ∀ leg ∈ legs, c.IsLeg root leg ∧ Headed leg.names) :
    Clausal c root (js.keepAll legs) := by
  induction legs generalizing js with
  | nil => exact h
  | cons leg legs ih =>
    rw [List.forall_mem_cons] at hlegs
    exact ih (h.keep hlegs.1.1 hlegs.1.2) hlegs.2

/-- The paths of legs that are kept are joined. -/
theorem isSome_find?_keepAll {legs : List Leg} (hleg : leg ∈ legs) :
    ((js.keepAll legs).find? leg.path).isSome := by
  have hstays : ∀ (legs : List Leg) {js : Joins}, (js.find? leg.path).isSome →
      ((js.keepAll legs).find? leg.path).isSome := by
    intro legs
    induction legs with
    | nil => exact fun h => h
    | cons l legs ih => exact fun h => ih (isSome_find?_keep h)
  induction legs generalizing js with
  | nil => exact absurd hleg List.not_mem_nil
  | cons l legs ih =>
    rcases List.mem_cons.1 hleg with rfl | hleg
    · exact hstays legs isSome_find?_keep_self
    · exact ih hleg

theorem headed_of_mem_route {names : List String} (hheaded : Headed names)
    (hleg : leg ∈ c.route root names) : c.IsLeg root leg ∧ Headed leg.names := by
  obtain ⟨hisLeg, rest, rfl⟩ := Catalog.mem_route_iff.1 hleg
  exact ⟨hisLeg, hheaded.of_append hisLeg.names_ne_nil⟩

/-- Joins stay faithful, and have the clauses of their paths, whatever path is joined. -/
theorem keeps_leftJoin_clausal (path : String) :
    Work.Keeps (fun js => Faithful c root js ∧ Clausal c root js) (leftJoin c root path) := by
  rintro js ⟨hfaithful, hclausal⟩
  refine ⟨keeps_leftJoin_faithful path js hfaithful, ?_⟩
  by_cases hheaded : Headed (Text.splitOn '.' path)
  · have hrun := hfaithful.run_leftJoin hheaded
    rw [dotted_splitOn] at hrun
    rw [hrun]
    exact hclausal.keepAll fun leg hleg => headed_of_mem_route hheaded hleg
  · exact keeps_leftJoin_of_not_headed hheaded
      (fun h hstart => h.add_of_not_headed hstart) js hclausal

/-! ## Several paths -/

theorem keeps_after {J : Joins → Prop} (hnone : J .none)
    (h : ∀ path, Work.Keeps J (leftJoin c root path)) (paths : List String) :
    J (after c root paths) := by
  have hrun : ∀ js, J js → J (paths.foldl (behind c root) js) := by
    induction paths with
    | nil => exact fun _ hjs => hjs
    | cons path paths ih => exact fun js hjs => ih _ (h path js hjs)
  exact hrun .none hnone

/-- The clauses of a path that can be joined are there, whatever was joined before. -/
theorem exists_step_of_result (hfaithful : Faithful c root js) (hclausal : Clausal c root js)
    (hheaded : Headed (Text.splitOn '.' path)) (hresult : result c root js path = .ok (some j))
    {before rest : List String} {name : String}
    (hsplit : Text.splitOn '.' path = before ++ name :: rest) :
    ∃ prior clause next, c.arrive root.joined before = .ok (some prior) ∧
      c.step prior name = .ok (some (clause, next)) ∧
      clause ∈ (behind c root js path).clauses := by
  have hrun := hfaithful.run_leftJoin hheaded
  rw [dotted_splitOn] at hrun
  have harrive : c.arrive root.joined (Text.splitOn '.' path) = .ok (some j) := by
    rwa [result, hrun] at hresult
  rw [hsplit] at harrive
  obtain ⟨prior, hprior, hrest⟩ := Catalog.exists_arrive_of_append harrive
  obtain ⟨clause, next, hstep, -⟩ := Catalog.exists_step_of_arrive hrest
  let leg : Leg := ⟨before ++ [name], clause, next⟩
  have hleg : c.IsLeg root leg := ⟨before, name, prior, rfl, hprior, hstep⟩
  have hroute : leg ∈ c.route root (Text.splitOn '.' path) :=
    Catalog.mem_route_iff.2 ⟨hleg, rest, by simp [leg, hsplit]⟩
  refine ⟨prior, clause, next, hprior, hstep, ?_⟩
  have hkept := hclausal.keepAll fun leg hleg => headed_of_mem_route hheaded hleg
  have hbehind : behind c root js path = js.keepAll (c.route root (Text.splitOn '.' path)) := by
    rw [behind, hrun]
  rw [hbehind]
  exact hkept leg hleg (headed_of_mem_route hheaded hroute).2 (isSome_find?_keepAll hroute)

/-- **Joins have the columns of links, but for keys with dots.** Behind any paths, whether they
could be joined or not, every clause is for a name of an entity, and goes on from the root table or
from the alias of another clause. When the name is a relation, the clause compares the two columns
of its link, the one of the related table under its own alias and the one of the parent's table
under the alias that it goes on from: each of them exactly when its key has no dot, for which the
clause has the alias in front of the whole key. The filter through the relation follows the same
link, and a projection selects its columns. A path that can be joined has such a clause for every
name of it. -/
theorem mirrors_of_joins (c : Catalog) (root : Definition) (paths : List String) :
    let js := after c root paths
    (∀ clause ∈ js.clauses, ∃ j name next, Met c root js.clauses j ∧
      c.step j name = .ok (some (clause, next)) ∧
      ∀ r, j.definition.relation? name = some r → ∃ l, c.Mirrors j name clause next r l) ∧
    ∀ path joined, Headed (Text.splitOn '.' path) → result c root js path = .ok (some joined) →
      ∀ before name rest, Text.splitOn '.' path = before ++ name :: rest →
        ∃ j clause next, c.arrive root.joined before = .ok (some j) ∧
          c.step j name = .ok (some (clause, next)) ∧
          clause ∈ (behind c root js path).clauses ∧
          ∀ r, j.definition.relation? name = some r → ∃ l, c.Mirrors j name clause next r l := by
  intro js
  have hsprung : Sprung c root js := keeps_after sprung_none keeps_leftJoin_sprung paths
  obtain ⟨hfaithful, hclausal⟩ : Faithful c root js ∧ Clausal c root js :=
    keeps_after ⟨faithful_none, clausal_none⟩ keeps_leftJoin_clausal paths
  constructor
  · intro clause hclause
    obtain ⟨j, name, next, hj, hstep⟩ := hsprung.clauses clause hclause
    exact ⟨j, name, next, hj, hstep, fun r hr => Catalog.mirrors_of_step hr hstep⟩
  · intro path joined hheaded hresult before name rest hsplit
    obtain ⟨j, clause, next, harrive, hstep, hmem⟩ :=
      exists_step_of_result hfaithful hclausal hheaded hresult hsplit
    exact ⟨j, clause, next, harrive, hstep, hmem, fun r hr => Catalog.mirrors_of_step hr hstep⟩

end Joins

/-! ## Carriers -/

/-- Carriers, whose key is declared with their table in front of it. -/
def Entity.carrier : Entity where
  name := "Carrier"
  table := "carriers"
  key := "carriers.id"
  relations := ∅
  queryable := none
  filterable := none
  sortable := none
  selectable := none

/-- Depots, each with its carrier. -/
def Entity.depot : Entity where
  name := "Depot"
  table := "depots"
  key := "id"
  relations := Dict.ofList [("carrier", .plain .owning "carrier" "Carrier" "carrier_id" "")]
  queryable := none
  filterable := none
  sortable := none
  selectable := none

/-- Shipments, each from a depot. -/
def Entity.shipment : Entity where
  name := "Shipment"
  table := "shipments"
  key := "id"
  relations := Dict.ofList [("depot", .plain .owning "depot" "Depot" "depot_id" "")]
  queryable := none
  filterable := none
  sortable := none
  selectable := none

/-- A registry that knows shipments, depots and carriers. -/
def Registry.ofShipments : Registry :=
  after [.register Entity.shipment.define, .register Entity.depot.define,
    .register Entity.carrier.define]

namespace Joins

/-- The carrier of a shipment's depot: the foreign key is the one of the link, under the alias of
the depot, and the key of the carrier has an alias in front of its table. -/
theorem mirrors_of_shipments :
    let c := Registry.ofShipments.catalog
    let shipment := Entity.shipment.define
    let link : Link := ⟨"carrier", "carriers", "depots.carrier_id", "carriers.id", Option.none⟩
    ∃ clause ∈ (behind c shipment .none "depot.carrier").clauses,
      clause.table = link.table ∧
      clause.right = underAlias "depots" "shipments_depot_join" link.parentColumn ∧
      clause.left = clause.aliasName ++ "." ++ link.relatedColumn := by
  intro c shipment link
  have hpath : Text.splitOn '.' "depot.carrier" = ["depot"] ++ "carrier" :: [] := by decide
  have hplain : Dotted "depot.carrier" := by decide
  have hheaded : Headed (Text.splitOn '.' "depot.carrier") :=
    hplain.plainNames.headed (Text.splitOn_ne_nil _ _)
  have hdepot : c.arrive shipment.joined ["depot"] =
      .ok (some ⟨"shipments_depot_join", Entity.depot.define⟩) := by rfl
  have hcarrier : c.arrive shipment.joined ["depot", "carrier"] =
      .ok (some ⟨"shipments_depot_join_carrier_join", Entity.carrier.define⟩) := by rfl
  have hresult : result c shipment .none "depot.carrier" =
      .ok (some ⟨"shipments_depot_join_carrier_join", Entity.carrier.define⟩) := by
    rw [holds_none.result_eq hplain, hpath]
    exact hcarrier
  obtain ⟨j, clause, next, hj, hstep, hmem, hmirrors⟩ :=
    (mirrors_of_joins c shipment []).2 "depot.carrier" _ hheaded hresult _ _ _ hpath
  rw [hdepot] at hj
  cases hj
  have hrel : Entity.depot.define.relation? "carrier" =
      some (.plain .owning "carrier" "Carrier" "carrier_id" "") := by rfl
  obtain ⟨l, hl⟩ := hmirrors _ hrel
  have hnext : c.find? "Carrier" = some next := (owning_of_joinSegment hrel hstep).2.1
  have hfind : c.find? "Carrier" = some Entity.carrier.define := by rfl
  rw [hfind] at hnext
  cases hnext
  have hlink : some link = some l := hl.link
  cases hlink
  exact ⟨clause, hmem, hl.table, hl.right.2 (by decide), hl.left_of_dot (by decide)⟩

/-- The carrier of a depot is joined on a column that is none of its table, while the link of the
relation has the column. -/
theorem unmirrored_of_depots :
    let c := Registry.ofShipments.catalog
    let clause : Join := ⟨"carriers", "depots_carrier_join", "depots_carrier_join.carriers.id",
      "depots.carrier_id"⟩
    ∃ l, (behind c Entity.depot.define .none "carrier").clauses = [clause] ∧
      Relation.link? (.plain .owning "carrier" "Carrier" "carrier_id" "") Entity.depot
        Entity.carrier = some l ∧
      l.relatedColumn = "carriers.id" ∧
      underAlias l.table clause.aliasName l.relatedColumn = "depots_carrier_join.id" ∧
      clause.left ≠ underAlias l.table clause.aliasName l.relatedColumn := by
  intro c clause
  let l : Link := ⟨"carrier", "carriers", "depots.carrier_id", "carriers.id", Option.none⟩
  have hcolumn : underAlias l.table clause.aliasName l.relatedColumn =
      "depots_carrier_join.id" := by
    decide +kernel
  refine ⟨l, by decide +kernel, by rfl, rfl, hcolumn, ?_⟩
  rw [hcolumn]
  decide

end Joins
end RequestPlan
