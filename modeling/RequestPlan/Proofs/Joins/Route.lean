import RequestPlan.Proofs.Joins.Paths
import RequestPlan.Proofs.Work

/-!
# Routes of joins

What a path is joined to, without a memo of earlier joins.

* `Leg`: a path that is joined by a clause to a table; `Catalog.IsLeg` says that it is what the
  entities along it say.
* `Catalog.arrive`: the table that names lead to, and `Catalog.route`: the legs on the way, up to
  the first name that cannot be joined.
* `mem_route_iff`: **the legs of a route are those of the prefixes of its names**.
* `Catalog.OwningPath`: names of owning relations; `arrive_owning`: the alias at their end.
-/

namespace RequestPlan

/-- A path that is joined, by a clause that leads to an entity. -/
structure Leg where
  names : List String
  clause : Join
  definition : Definition

namespace Leg

def path (leg : Leg) : String := dotted leg.names

/-- The table at the end of a leg. -/
def joined (leg : Leg) : Joined := ⟨leg.clause.aliasName, leg.definition⟩

end Leg

/-- The table that paths from an entity start at. -/
def Definition.joined (d : Definition) : Joined := ⟨d.table, d⟩

namespace Catalog

/-- The join for one name more behind a table, and the entity that it leads to. -/
def step (c : Catalog) (j : Joined) (name : String) : Except Error (Option (Join × Definition)) :=
  joinSegment c j.definition name j.aliasName (j.aliasName ++ "_" ++ name ++ "_join")

/-- The table that names lead to from another one on. -/
def arrive (c : Catalog) (j : Joined) : List String → Except Error (Option Joined)
  | [] => .ok (some j)
  | name :: rest =>
    match c.step j name with
    | .error err => .error err
    | .ok none => .ok none
    | .ok (some (clause, d)) => c.arrive ⟨clause.aliasName, d⟩ rest

/-- The legs along names from a table on, which is behind the names `before`. The first name that
cannot be joined is the end. -/
def routeFrom (c : Catalog) (j : Joined) (before : List String) : List String → List Leg
  | [] => []
  | name :: rest =>
    match c.step j name with
    | .error _ => []
    | .ok none => []
    | .ok (some (clause, d)) =>
      ⟨before ++ [name], clause, d⟩ :: c.routeFrom ⟨clause.aliasName, d⟩ (before ++ [name]) rest

/-- The legs along names from an entity on. -/
def route (c : Catalog) (root : Definition) (names : List String) : List Leg :=
  c.routeFrom root.joined [] names

/-- A leg is what the entities along its names say. -/
def IsLeg (c : Catalog) (root : Definition) (leg : Leg) : Prop :=
  ∃ before name j, leg.names = before ++ [name] ∧ c.arrive root.joined before = .ok (some j) ∧
    c.step j name = .ok (some (leg.clause, leg.definition))

variable {c : Catalog} {root d : Definition} {j k : Joined} {leg l : Leg} {clause : Join}
  {name : String} {names before rest : List String}

/-! ## Arriving -/

theorem arrive_cons (h : c.step j name = .ok (some (clause, d))) :
    c.arrive j (name :: rest) = c.arrive ⟨clause.aliasName, d⟩ rest := by
  rw [arrive, h]

theorem routeFrom_cons (h : c.step j name = .ok (some (leg.clause, leg.definition)))
    (hnames : leg.names = before ++ [name]) :
    c.routeFrom j before (name :: rest) = leg :: c.routeFrom leg.joined leg.names rest := by
  rw [routeFrom, h]
  dsimp only
  rw [← hnames]
  rfl

/-- A name that cannot be joined is the end of a route. -/
theorem routeFrom_eq_nil (h : ¬∃ clause d, c.step j name = .ok (some (clause, d))) :
    c.routeFrom j before (name :: rest) = [] := by
  rw [routeFrom]
  split
  · rfl
  · rfl
  · rename_i clause d hstep
    exact absurd ⟨clause, d, hstep⟩ h

/-- Who arrives has passed the first name. -/
theorem exists_step_of_arrive (h : c.arrive j (name :: rest) = .ok (some k)) :
    ∃ clause d, c.step j name = .ok (some (clause, d)) ∧
      c.arrive ⟨clause.aliasName, d⟩ rest = .ok (some k) := by
  rw [arrive] at h
  split at h
  · cases h
  · cases h
  · rename_i clause d hstep
    exact ⟨clause, d, hstep, h⟩

theorem arrive_append (h : c.arrive j before = .ok (some k)) :
    c.arrive j (before ++ rest) = c.arrive k rest := by
  induction before generalizing j with
  | nil =>
    cases h
    rfl
  | cons name before ih =>
    obtain ⟨clause, d, hstep, hrest⟩ := exists_step_of_arrive h
    rw [List.cons_append, arrive_cons hstep, ih hrest]

/-- Who arrives has been behind every prefix of the names. -/
theorem exists_arrive_of_append (h : c.arrive j (before ++ rest) = .ok (some k)) :
    ∃ m, c.arrive j before = .ok (some m) ∧ c.arrive m rest = .ok (some k) := by
  induction before generalizing j with
  | nil => exact ⟨j, rfl, h⟩
  | cons name before ih =>
    obtain ⟨clause, d, hstep, hrest⟩ := exists_step_of_arrive h
    obtain ⟨m, hm, hk⟩ := ih hrest
    exact ⟨m, by rw [arrive_cons hstep, hm], hk⟩

/-- A name that can be joined behind others makes a leg. -/
theorem exists_isLeg (hbefore : c.arrive root.joined before = .ok (some j))
    (hgoes : ∃ clause d, c.step j name = .ok (some (clause, d))) :
    ∃ leg : Leg, c.IsLeg root leg ∧ leg.names = before ++ [name] ∧
      c.step j name = .ok (some (leg.clause, leg.definition)) := by
  obtain ⟨clause, d, hstep⟩ := hgoes
  exact ⟨⟨before ++ [name], clause, d⟩, ⟨before, name, j, rfl, hbefore, hstep⟩, rfl, hstep⟩

theorem IsLeg.arrive (h : c.IsLeg root leg) :
    c.arrive root.joined leg.names = .ok (some leg.joined) := by
  obtain ⟨before, name, j, hnames, hbefore, hstep⟩ := h
  rw [hnames, arrive_append hbefore, arrive_cons hstep]
  rfl

/-- The last step of a leg, from wherever the names before it lead. -/
theorem IsLeg.step (h : c.IsLeg root leg) (hnames : leg.names = before ++ [name])
    (hbefore : c.arrive root.joined before = .ok (some j)) :
    c.step j name = .ok (some (leg.clause, leg.definition)) := by
  obtain ⟨before', name', j', hnames', hbefore', hstep⟩ := h
  obtain ⟨rfl, hname⟩ := List.append_inj' (hnames.symm.trans hnames') rfl
  cases hname
  rw [hbefore] at hbefore'
  cases hbefore'
  exact hstep

theorem IsLeg.names_ne_nil (h : c.IsLeg root leg) : leg.names ≠ [] := by
  obtain ⟨before, name, -, hnames, -⟩ := h
  rw [hnames]
  exact List.append_ne_nil_of_right_ne_nil _ (List.cons_ne_nil _ _)

/-- A leg is known by its names. -/
theorem IsLeg.unique (h : c.IsLeg root leg) (h' : c.IsLeg root l) (hnames : leg.names = l.names) :
    leg = l := by
  obtain ⟨before, name, j, hl, hbefore, hstep⟩ := h'
  have hstep' := h.step (hnames.trans hl) hbefore
  rw [hstep] at hstep'
  cases leg
  cases l
  cases hnames
  cases hstep'
  rfl

/-! ## Routes -/

/-- **The legs of a route are those of the prefixes of its names**, beyond where it starts. -/
theorem mem_routeFrom_iff (hbefore : c.arrive root.joined before = .ok (some j)) :
    leg ∈ c.routeFrom j before rest ↔
      c.IsLeg root leg ∧ leg.names <+: before ++ rest ∧ before.length < leg.names.length := by
  induction rest generalizing before j with
  | nil =>
    rw [List.append_nil]
    refine ⟨fun h => absurd h List.not_mem_nil, ?_⟩
    rintro ⟨-, hinitial, hlength⟩
    have hle : leg.names.length ≤ before.length := hinitial.length_le
    omega
  | cons name rest ih =>
    have hsplit : before ++ name :: rest = (before ++ [name]) ++ rest := by simp
    by_cases hgoes : ∃ clause d, c.step j name = .ok (some (clause, d))
    · obtain ⟨first, hfirst, hnames, hstep⟩ := exists_isLeg hbefore hgoes
      rw [routeFrom_cons hstep hnames, List.mem_cons, ih hfirst.arrive, hsplit, hnames]
      constructor
      · rintro (rfl | ⟨hleg, hinitial, hlength⟩)
        · exact ⟨hfirst, hnames ▸ List.prefix_append _ _, by simp [hnames]⟩
        · rw [List.length_append, List.length_singleton] at hlength
          exact ⟨hleg, hinitial, by omega⟩
      · rintro ⟨hleg, hinitial, hlength⟩
        by_cases hlast : leg.names.length = before.length + 1
        · -- the leg ends behind this name
          left
          refine hleg.unique hfirst (Eq.trans ?_ hnames.symm)
          exact (List.prefix_of_prefix_length_le hinitial (List.prefix_append _ rest)
            (by simp [hlast])).eq_of_length (by simp [hlast])
        · right
          refine ⟨hleg, hinitial, ?_⟩
          rw [List.length_append, List.length_singleton]
          omega
    · -- no leg leads beyond a name that cannot be joined
      rw [routeFrom_eq_nil hgoes, hsplit]
      refine ⟨fun h => absurd h List.not_mem_nil, ?_⟩
      rintro ⟨hleg, hinitial, hlength⟩
      obtain ⟨last, hpast⟩ : before ++ [name] <+: leg.names :=
        List.prefix_of_prefix_length_le (List.prefix_append _ rest) hinitial (by simp; omega)
      have harrive := hleg.arrive
      rw [← hpast, List.append_assoc, arrive_append hbefore] at harrive
      obtain ⟨clause, d, hstep, -⟩ := exists_step_of_arrive harrive
      exact absurd ⟨clause, d, hstep⟩ hgoes

theorem mem_route_iff : leg ∈ c.route root names ↔ c.IsLeg root leg ∧ leg.names <+: names := by
  have hstart : c.arrive root.joined [] = .ok (some root.joined) := rfl
  rw [route, mem_routeFrom_iff hstart, List.nil_append, List.length_nil]
  exact and_congr_right fun hleg =>
    and_iff_left (List.length_pos_iff.2 hleg.names_ne_nil)

/-- Names that lead to a table are those of a leg. -/
theorem exists_leg_of_arrive (hne : names ≠ []) (h : c.arrive root.joined names = .ok (some j)) :
    ∃ leg, c.IsLeg root leg ∧ leg.names = names ∧ leg.joined = j := by
  obtain ⟨before, name, rfl⟩ : ∃ before name, names = before ++ [name] :=
    ⟨_, _, (List.dropLast_concat_getLast hne).symm⟩
  obtain ⟨m, hbefore, hm⟩ := exists_arrive_of_append h
  obtain ⟨clause, d, hstep, hj⟩ := exists_step_of_arrive hm
  cases hj
  exact ⟨⟨before ++ [name], clause, d⟩, ⟨before, name, m, rfl, hbefore, hstep⟩, rfl, rfl⟩

/-! ## Owning relations -/

/-- Every name is an owning relation of the entity that those before it lead to, as far as the
entities are registered. -/
def OwningPath (c : Catalog) (d : Definition) : List String → Prop
  | [] => True
  | name :: rest => ∃ r, d.relation? name = some r ∧ r.kind = .owning ∧
      ∀ related, c.find? r.related = some related → c.OwningPath related rest

/-- **Along owning relations every name makes the alias longer by its own suffix**, and nothing but
an entity that is not registered can stop the walk. -/
theorem arrive_owning (h : c.OwningPath j.definition names) :
    (∃ d, c.arrive j names = .ok (some
      ⟨names.foldl (fun aliasName name => aliasName ++ "_" ++ name ++ "_join") j.aliasName, d⟩)) ∨
    ∃ entity, c.find? entity = none ∧ c.arrive j names = .error (.unknownEntity entity) := by
  induction names generalizing j with
  | nil => exact .inl ⟨j.definition, rfl⟩
  | cons name rest ih =>
    obtain ⟨r, hr, hkind, hrest⟩ := h
    cases hfind : c.find? r.related with
    | none =>
      right
      refine ⟨r.related, hfind, ?_⟩
      rw [arrive, step, joinSegment, hr]
      simp only [hkind, if_true, get, hfind]
      rfl
    | some related =>
      -- the clause carries the alias that the rest of the names starts from
      let aliasName := j.aliasName ++ "_" ++ name ++ "_join"
      let clause : Join := ⟨related.table, aliasName,
        aliasName ++ "." ++ r.ownerColumn related.toEntity, j.aliasName ++ "." ++ r.foreignKey⟩
      have hstep : c.step j name = .ok (some (clause, related)) := by
        rw [step, joinSegment, hr]
        simp only [hkind, if_true, get, hfind]
        rfl
      rw [arrive_cons hstep, List.foldl_cons]
      exact ih (hrest related hfind)

end Catalog
end RequestPlan
