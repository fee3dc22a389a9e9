import Mathlib.Data.List.Infix
import RequestPlan.Proofs.Joins.Memo
import RequestPlan.Proofs.Selection.Aliases

/-!
# Joins do not depend on history

* `Joins.result`, `Joins.behind`: what joining a path answers, and the joins behind it.
* `Joins.after`: the joins behind several paths, whatever came of each.
* `exists_holds_after`: the joins behind any paths are those of legs from the root.
* `leftJoin_after`: **a path is joined as if it were the first one**, and adds the clauses of those
  of its prefixes that are not joined yet.
-/

namespace RequestPlan.Joins

/-- What joining a path answers. -/
def result (c : Catalog) (root : Definition) (js : Joins) (path : String) :
    Except Error (Option Joined) := ((leftJoin c root path).run.run js).1

/-- The joins behind a path, whether it can be joined or not. -/
def behind (c : Catalog) (root : Definition) (js : Joins) (path : String) : Joins :=
  ((leftJoin c root path).run.run js).2

/-- The joins behind several paths, one after the other. -/
def after (c : Catalog) (root : Definition) (paths : List String) : Joins :=
  paths.foldl (behind c root) .none

/-- A path leads to a table when it is the first to be joined. -/
def joinable (c : Catalog) (root : Definition) (path : String) : Bool :=
  match result c root .none path with
  | .ok (some _) => true
  | _ => false

variable {c : Catalog} {root : Definition} {js : Joins} {legs : List Leg} {path : String}
  {names rest before : List String} {paths : List String} {j : Joined}

/-! ## One path -/

theorem Holds.run_path (h : Holds c root js legs) (hpath : Dotted path) :
    (leftJoin c root path).run.run js = (c.arrive root.joined (Text.splitOn '.' path),
      js.keepAll (c.route root (Text.splitOn '.' path))) := by
  have hrun := h.run_leftJoin (Text.splitOn_ne_nil '.' path) hpath.plainNames
  rwa [dotted_splitOn] at hrun

theorem Holds.result_eq (h : Holds c root js legs) (hpath : Dotted path) :
    result c root js path = c.arrive root.joined (Text.splitOn '.' path) := by
  rw [result, h.run_path hpath]

theorem Holds.behind_eq (h : Holds c root js legs) (hpath : Dotted path) :
    behind c root js path = js.keepAll (c.route root (Text.splitOn '.' path)) := by
  rw [behind, h.run_path hpath]

/-- **A path keeps the legs of its route that are not joined yet.** -/
theorem Holds.behind (h : Holds c root js legs) (hpath : Dotted path) :
    Holds c root (behind c root js path)
      (legs ++ (c.route root (Text.splitOn '.' path)).filter js.lacks) := by
  rw [h.behind_eq hpath]
  exact h.at_start.keepAll hpath.plainNames

/-- **The legs of a route are those of the prefixes of its path that can be joined**, in the order
of the path, up to the first that cannot. -/
theorem map_names_routeFrom (hj : c.arrive root.joined before = .ok (some j))
    (hplain : PlainNames (before ++ rest)) :
    (c.routeFrom j before rest).map Leg.names =
      (rest.inits.tail.map (before ++ ·)).takeWhile fun names =>
        joinable c root (dotted names) := by
  induction rest generalizing before j with
  | nil => rfl
  | cons name rest ih =>
    have hinits : (name :: rest).inits.tail = [name] :: rest.inits.tail.map (name :: ·) := by
      cases rest <;> rfl
    have hmap : (rest.inits.tail.map (name :: ·)).map (before ++ ·) =
        rest.inits.tail.map ((before ++ [name]) ++ ·) := by
      rw [List.map_map]
      exact List.map_congr_left fun names _ => List.append_cons before name names
    rw [List.append_cons] at hplain
    have hfirst : result c root .none (dotted (before ++ [name])) = c.arrive j [name] := by
      have hplain' := hplain.of_initial (List.prefix_append _ rest)
      rw [result, holds_none.run_leftJoin (by simp) hplain', Catalog.arrive_append hj]
    rw [hinits, List.map_cons, hmap, List.takeWhile_cons, joinable, hfirst, Catalog.arrive]
    cases hstep : c.step j name with
    | error err => rw [Catalog.routeFrom_eq_nil (by simp [hstep])]; rfl
    | ok next? =>
      cases next? with
      | none => rw [Catalog.routeFrom_eq_nil (by simp [hstep])]; rfl
      | some next =>
        let leg : Leg := ⟨before ++ [name], next.1, next.2⟩
        have hleg : c.IsLeg root leg := ⟨before, name, j, rfl, hj, hstep⟩
        have hcons : c.routeFrom j before (name :: rest) =
            leg :: c.routeFrom leg.joined leg.names rest := Catalog.routeFrom_cons hstep rfl
        rw [hcons, List.map_cons, ih hleg.arrive hplain]
        rfl

theorem map_names_route (hpath : Dotted path) :
    (c.route root (Text.splitOn '.' path)).map Leg.names =
      (Text.splitOn '.' path).inits.tail.takeWhile fun names =>
        joinable c root (dotted names) := by
  rw [Catalog.route, map_names_routeFrom rfl hpath.plainNames]
  simp only [List.nil_append, List.map_id']

/-! ## Several paths -/

/-- The joins behind several paths hold the legs of all their routes. -/
theorem exists_holds_after (h : Holds c root js legs) (hpaths : ∀ path ∈ paths, Dotted path) :
    ∃ more, Holds c root (paths.foldl (Joins.behind c root) js) (legs ++ more) ∧
      ∀ path ∈ paths, ∀ leg ∈ c.route root (Text.splitOn '.' path), leg ∈ legs ++ more := by
  induction paths generalizing js legs with
  | nil => exact ⟨[], by rwa [List.append_nil], fun _ hpath => absurd hpath List.not_mem_nil⟩
  | cons path paths ih =>
    rw [List.forall_mem_cons] at hpaths
    obtain ⟨more, hmore, hall⟩ := ih (h.behind hpaths.1) hpaths.2
    rw [List.append_assoc] at hmore hall
    refine ⟨_, hmore, List.forall_mem_cons.2 ⟨fun leg hleg => ?_, hall⟩⟩
    obtain ⟨hisLeg, hinitial⟩ := Catalog.mem_route_iff.1 hleg
    have hkept := h.mem_kept hisLeg (hpaths.1.plainNames.of_initial hinitial) hleg
    rw [← List.append_assoc]
    exact List.mem_append_left more hkept

/-- Where a path is joined, so are those of its first names. -/
theorem Holds.isSome_find?_start (h : Holds c root js legs) {start rest : String}
    (hsome : (js.find? (start ++ "." ++ rest)).isSome) : (js.find? start).isSome := by
  have hsplit := Text.splitOn_append '.' start rest
  obtain ⟨j, hj⟩ := Option.isSome_iff_exists.1 hsome
  obtain ⟨leg, hmem, hleg, -⟩ := h.exists_leg_of_find? hj
  have hheaded : Headed (Text.splitOn '.' start ++ Text.splitOn '.' rest) :=
    hleg.trans hsplit ▸ (h.plain leg hmem).headed (h.isLeg leg hmem).names_ne_nil
  have hfind := h.faithful.isSome_find?_of_append hheaded (Text.splitOn_ne_nil '.' start)
  rw [← hsplit, dotted_splitOn, dotted_splitOn] at hfind
  exact hfind hsome

/-- **Joins do not depend on history.** Behind any paths without empty segments, whether they could
be joined or not: joining a path answers what it would answer as the first one. Its clauses come
behind those that there are: the ones along its route that are not joined yet, where the route has
the prefixes of the path that can be joined, up to the first that cannot. What is joined stays in
front of all later clauses, and a path that was joined before changes nothing. Each path of the
memo has its own clause, and the memo has the start of each of its paths. The alias at the end of
owning relations is made of the root's table and their names. -/
theorem leftJoin_after (c : Catalog) (root : Definition) (paths : List String)
    (hpaths : ∀ path ∈ paths, Dotted path) :
    let js := after c root paths
    (∀ path, Dotted path →
      result c root js path = result c root .none path ∧
      (behind c root js path).clauses = js.clauses ++
        ((c.route root (Text.splitOn '.' path)).filter js.lacks).map Leg.clause ∧
      (c.route root (Text.splitOn '.' path)).map Leg.names =
        (Text.splitOn '.' path).inits.tail.takeWhile fun names =>
          joinable c root (dotted names)) ∧
    (∀ later, (∀ path ∈ later, Dotted path) →
      js.clauses <+: (after c root (paths ++ later)).clauses) ∧
    (∀ path ∈ paths, behind c root js path = js) ∧
    (∃ legs : List Leg, js.clauses = legs.map Leg.clause ∧
      js.memo.entries.Perm (legs.map fun leg => (leg.path, leg.joined))) ∧
    js.clauses.length = js.memo.size ∧
    (∀ start rest, (js.find? (start ++ "." ++ rest)).isSome → (js.find? start).isSome) ∧
    ∀ path, Dotted path → c.OwningPath root (Text.splitOn '.' path) →
      (∃ d, result c root js path = .ok (some ⟨(Text.splitOn '.' path).foldl
        (fun aliasName segment => aliasName ++ "_" ++ segment ++ "_join") root.table, d⟩)) ∨
      ∃ entity, c.find? entity = .none ∧
        result c root js path = .error (.unknownEntity entity) := by
  intro js
  obtain ⟨legs, h, hall⟩ : ∃ legs, Holds c root js legs ∧
      ∀ path ∈ paths, ∀ leg ∈ c.route root (Text.splitOn '.' path), leg ∈ legs :=
    exists_holds_after holds_none hpaths
  refine ⟨fun path hpath => ⟨?_, ?_, map_names_route hpath⟩, fun later hlater => ?_,
    fun path hpath => ?_, ⟨legs, h.clauses, h.memo⟩, ?_, fun start rest hsome => ?_,
    fun path hpath howning => ?_⟩
  · rw [h.result_eq hpath, holds_none.result_eq hpath]
  · rw [(h.behind hpath).clauses, h.clauses, List.map_append]
  · obtain ⟨more, hmore, -⟩ := exists_holds_after h hlater
    rw [after, List.foldl_append]
    refine hmore.clauses ▸ h.clauses ▸ ?_
    rw [List.map_append]
    exact List.prefix_append _ _
  · -- all legs of its route are joined
    rw [h.behind_eq (hpaths path hpath)]
    exact h.keepAll_route_eq (hpaths path hpath).plainNames (hall path hpath)
  · rw [h.clauses, List.length_map, Dict.size, h.memo.length_eq, List.length_map]
  · exact h.isSome_find?_start hsome
  · rw [h.result_eq hpath]
    exact Catalog.arrive_owning howning

/-- Posts, with a join of their own to their latest note. -/
def postWithLatest : Definition where
  toEntity := Entity.post
  hooks :=
    let latest : JoinHook := fun scope =>
      .ok (some ⟨⟨"notes", "latest", "latest.subject_id", scope.prior ++ ".id"⟩, some "Note"⟩)
    { Hooks.none with joins := Dict.ofList [("latest", latest)] }

/-- Two paths that cannot be joined to their ends leave their first names joined. -/
theorem leftJoin_after_of_posts :
    let c := Registry.ofPosts.catalog
    let js := after c postWithLatest ["author.editor", "latest.subject"]
    js.clauses.map Join.aliasName = ["posts_author_join", "latest"] ∧ js.memo.size = 2 ∧
      behind c postWithLatest js "author.editor" = js ∧
      (behind c postWithLatest js "author").clauses = js.clauses ∧
      result c postWithLatest js "author" =
        .ok (some ⟨"posts_author_join", Entity.user.define⟩) := by
  intro c js
  have hpaths : ∀ path ∈ ["author.editor", "latest.subject"], Dotted path := by decide
  obtain ⟨hone, -, hrepeated, -, hsize, -, -⟩ := leftJoin_after c postWithLatest _ hpaths
  have hclauses : js.clauses.map Join.aliasName = ["posts_author_join", "latest"] := by
    decide +kernel
  have hlength : js.clauses.length = 2 := by simpa using congrArg List.length hclauses
  obtain ⟨hresult, hbehind, -⟩ := hone "author" (by decide)
  have harrive : c.arrive postWithLatest.joined ["author"] =
      .ok (some ⟨"posts_author_join", Entity.user.define⟩) := by rfl
  refine ⟨hclauses, hsize ▸ hlength, hrepeated _ List.mem_cons_self, hbehind.trans ?_,
    hresult.trans ((holds_none.result_eq (by decide)).trans harrive)⟩
  have hkept : ((c.route postWithLatest (Text.splitOn '.' "author")).filter js.lacks).isEmpty := by
    decide +kernel
  rw [List.isEmpty_iff.1 hkept, List.map_nil, List.append_nil]

end RequestPlan.Joins
