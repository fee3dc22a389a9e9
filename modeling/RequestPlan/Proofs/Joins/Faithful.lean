import Mathlib.Data.List.Induction
import RequestPlan.Proofs.Dict
import RequestPlan.Proofs.Joins.Route
import RequestPlan.Proofs.Joins.Steps

/-!
# Joins that are faithful to their paths

* `Joins.keep`: a leg that is joined unless its path is; `Joins.keepAll`: several, in order.
* `Joins.Faithful`: what is joined under a path is what a walk without a memo arrives at.
* `Faithful.run_leftJoin`: **with such joins a path is joined as if it were the first one**, and
  what it keeps are the legs of its route.
* `keeps_leftJoin_faithful`, `Faithful.extend`: joins stay so, whatever is joined or registered.
-/

namespace RequestPlan

/-- An empty name can be joined: the entity has a relation or a hook under it. -/
def Definition.JoinsBlank (d : Definition) : Prop :=
  (d.relation? "").isSome ∨ (d.hooks.joins.find? "").isSome

instance (d : Definition) : Decidable d.JoinsBlank :=
  inferInstanceAs (Decidable ((d.relation? "").isSome ∨ (d.hooks.joins.find? "").isSome))

namespace Joins

/-- A leg that is joined, unless its path is joined already. -/
def keep (js : Joins) (leg : Leg) : Joins :=
  if (js.find? leg.path).isSome then js else js.add leg.path leg.clause leg.definition

/-- Legs that are joined in order, each unless its path is joined already. -/
def keepAll (js : Joins) (legs : List Leg) : Joins := legs.foldl keep js

/-- A path is not joined yet. -/
def lacks (js : Joins) (leg : Leg) : Bool := (js.find? leg.path).isNone

/-- Joins whose memo says of every path what the entities along it say. Paths that are empty or
start with a dot are not read back as they were written, and nothing is said of them but that an
entity without empty names has none. -/
structure Faithful (c : Catalog) (root : Definition) (js : Joins) : Prop where
  arrive : ∀ {names j}, Headed names → js.find? (dotted names) = some j →
    c.arrive root.joined names = .ok (some j)
  closed : ∀ {names name}, Headed names → '.' ∉ name.toList →
    (js.find? (dotted (names ++ [name]))).isSome → (js.find? (dotted names)).isSome
  headed : ¬root.JoinsBlank → ∀ path j, js.find? path = some j → Headed (Text.splitOn '.' path)

variable {c c' : Catalog} {root d : Definition} {js : Joins} {leg : Leg} {legs : List Leg}
  {j k : Joined} {name path : String} {names before rest : List String} {clause : Join}

theorem faithful_none : Faithful c root .none where
  arrive _ h := by cases h
  closed _ _ h := by cases h
  headed _ _ _ h := by cases h

/-! ## Runs -/

/-- One name of a walk: it is joined already, or it is joined now, or the walk ends. -/
theorem run_segment (c : Catalog) (js : Joins) (j : Joined) (path : String) (stop : Nat)
    (name : String) (rest : List String) :
    (joinSegments c path j.aliasName j.definition stop (name :: rest)).run.run js =
      match js.find? (pathStart path (segmentEnd stop name)) with
      | some m =>
        (joinSegments c path m.aliasName m.definition (segmentEnd stop name) rest).run.run js
      | .none =>
        match c.step j name with
        | .error err => (.error err, js)
        | .ok .none => (.ok false, js)
        | .ok (some (clause, d)) =>
          (joinSegments c path clause.aliasName d (segmentEnd stop name) rest).run.run
            (js.add (pathStart path (segmentEnd stop name)) clause d) := by
  rw [joinSegments]
  refine (Work.run_bind_of_ok (a := js) rfl).trans ?_
  cases js.find? (pathStart path (segmentEnd stop name)) with
  | some m => rfl
  | none =>
    have hlift : (liftM (c.step j name) : JoinM _).run.run js = (c.step j name, js) := rfl
    cases hstep : c.step j name with
    | error err => exact Work.run_bind_of_error (hlift.trans (by rw [hstep]))
    | ok next? =>
      refine (Work.run_bind_of_ok (hlift.trans (by rw [hstep]))).trans ?_
      cases next? <;> rfl

/-- The walk along a path that is not joined yet: whether it comes to the end, and the joins there. -/
def walk (c : Catalog) (root : Definition) (js : Joins) (path : String) :
    Except Error Bool × Joins :=
  (joinSegments c path root.table root 0 (Text.splitOn '.' path)).run.run js

theorem run_leftJoin_of_joined (hfind : js.find? path = some j) :
    (leftJoin c root path).run.run js = (.ok (some j), js) := by
  refine (Work.run_bind_of_ok (a := js) rfl).trans ?_
  rw [hfind]
  rfl

/-- A path that is not joined yet is looked up behind the walk along it. -/
theorem run_leftJoin_of_walk (hfind : js.find? path = .none) :
    (leftJoin c root path).run.run js = ((walk c root js path).1.map fun found =>
      if found then (walk c root js path).2.find? path else .none, (walk c root js path).2) := by
  refine (Work.run_bind_of_ok (a := js) rfl).trans ?_
  rw [hfind]
  cases hwalk : (walk c root js path).1 with
  | error err => exact Work.run_bind_of_error (Prod.ext hwalk rfl)
  | ok found =>
    refine (Work.run_bind_of_ok (Prod.ext hwalk rfl)).trans ?_
    cases found <;> rfl

/-! ## Keeping legs -/

theorem lacks_eq_true_iff : js.lacks leg = true ↔ js.find? leg.path = .none := by
  rw [lacks, Option.isNone_iff_eq_none]

theorem keep_of_lacks (h : js.lacks leg = true) :
    js.keep leg = js.add leg.path leg.clause leg.definition := by
  rw [lacks, Option.isNone_iff_eq_none] at h
  rw [keep, h]
  rfl

theorem keep_of_not_lacks (h : js.lacks leg = false) : js.keep leg = js := by
  rw [lacks, Option.isNone_eq_false_iff] at h
  rw [keep, if_pos h]

theorem find?_add (path' : String) : (js.add path clause d).find? path' =
    if path' = path then some ⟨clause.aliasName, d⟩ else js.find? path' := by
  rw [find?, add, Dict.find?_put]
  rfl

theorem find?_keep (hlacks : js.lacks leg = true) (path : String) :
    (js.keep leg).find? path = if path = leg.path then some leg.joined else js.find? path := by
  rw [keep_of_lacks hlacks, find?_add]
  rfl

theorem lacks_keep_of_ne {l : Leg} (h : l.path ≠ leg.path) :
    (js.keep leg).lacks l = js.lacks l := by
  cases hlacks : js.lacks leg with
  | false => rw [keep_of_not_lacks hlacks]
  | true => rw [lacks, find?_keep hlacks, if_neg h, lacks]

theorem isSome_find?_keep (h : (js.find? path).isSome) : ((js.keep leg).find? path).isSome := by
  cases hlacks : js.lacks leg with
  | false => rwa [keep_of_not_lacks hlacks]
  | true =>
    rw [find?_keep hlacks]
    split
    · rfl
    · exact h

theorem isSome_find?_keep_self : ((js.keep leg).find? leg.path).isSome := by
  cases hlacks : js.lacks leg with
  | false =>
    rw [keep_of_not_lacks hlacks]
    rwa [lacks, Option.isNone_eq_false_iff] at hlacks
  | true =>
    rw [find?_keep hlacks, if_pos rfl]
    rfl

theorem keepAll_of_not_lacks {ls : List Leg} (h : ∀ l ∈ ls, js.lacks l = false) :
    js.keepAll ls = js := by
  induction ls with
  | nil => rfl
  | cons l ls ih =>
    rw [List.forall_mem_cons] at h
    rw [keepAll, List.foldl_cons, keep_of_not_lacks h.1]
    exact ih h.2

/-! ## A leg more -/

/-- A leg may be kept when the path before its last name is joined. -/
theorem Faithful.keep (h : Faithful c root js) (hleg : c.IsLeg root leg)
    (hnames : leg.names = before ++ [name]) (hheaded : Headed leg.names)
    (hbefore : before ≠ [] → (js.find? (dotted before)).isSome) :
    Faithful c root (js.keep leg) := by
  cases hlacks : js.lacks leg with
  | false => rwa [keep_of_not_lacks hlacks]
  | true =>
    refine ⟨fun {names j} hnames' hj => ?_, fun {names name'} hnames' hdot hsome => ?_,
      fun hblank path j hj => ?_⟩
    · rw [find?_keep hlacks] at hj
      split at hj
      · rename_i hpath
        cases hj
        rw [hnames'.dotted_inj hheaded hpath]
        exact hleg.arrive
      · exact h.arrive hnames' hj
    · rw [find?_keep hlacks] at hsome
      refine isSome_find?_keep ?_
      split at hsome
      · -- of the leg's own path, the start is joined
        rename_i hpath
        have hsame := ((hnames'.concat hdot).dotted_inj hheaded hpath).trans hnames
        obtain ⟨rfl, -⟩ := List.append_inj' hsame rfl
        exact hbefore hnames'.1
      · exact h.closed hnames' hdot hsome
    · rw [find?_keep hlacks] at hj
      split at hj
      · rename_i hpath
        rw [hpath, Leg.path, hheaded.splitOn_dotted]
        exact hheaded
      · exact h.headed hblank path j hj

/-- A path that is empty or starts with a dot is none of those that the memo is faithful to. -/
theorem Faithful.add_of_not_headed (h : Faithful c root js) (hblank : root.JoinsBlank)
    (hpath : ¬Headed (Text.splitOn '.' path)) : Faithful c root (js.add path clause d) := by
  have hother : ∀ {names}, Headed names →
      (js.add path clause d).find? (dotted names) = js.find? (dotted names) := by
    intro names hnames
    rw [find?_add, if_neg]
    rintro rfl
    exact hpath (hnames.splitOn_dotted.symm ▸ hnames)
  refine ⟨fun hnames hj => h.arrive hnames (hother hnames ▸ hj), fun hnames hdot hsome => ?_,
    fun hnone => absurd hblank hnone⟩
  rw [hother hnames]
  rw [hother (hnames.concat hdot)] at hsome
  exact h.closed hnames hdot hsome

/-! ## Walks -/

/-- A walk stands at a table behind names that are joined. -/
structure Stands (c : Catalog) (root : Definition) (js : Joins) (before : List String)
    (j : Joined) : Prop where
  faithful : Faithful c root js
  arrive : c.arrive root.joined before = .ok (some j)
  joined : before ≠ [] → (js.find? (dotted before)).isSome

theorem Faithful.stands (h : Faithful c root js) : Stands c root js [] root.joined where
  faithful := h
  arrive := rfl
  joined hne := absurd rfl hne

/-- The next leg of a walk is kept, and the walk stands at its end. -/
theorem Stands.keep (h : Stands c root js before j) (hleg : c.IsLeg root leg)
    (hnames : leg.names = before ++ [name]) (hheaded : Headed leg.names) :
    Stands c root (js.keep leg) leg.names leg.joined where
  faithful := h.faithful.keep hleg hnames hheaded h.joined
  arrive := hleg.arrive
  joined _ := isSome_find?_keep_self

/-- **A walk keeps the legs on its way**, and stands at their end if it arrives. -/
theorem Stands.keepAll (h : Stands c root js before j) (hheaded : Headed (before ++ rest)) :
    Faithful c root (js.keepAll (c.routeFrom j before rest)) ∧
      ∀ k, c.arrive j rest = .ok (some k) →
        Stands c root (js.keepAll (c.routeFrom j before rest)) (before ++ rest) k := by
  induction rest generalizing before j js with
  | nil =>
    refine ⟨h.faithful, fun k hk => ?_⟩
    cases hk
    rw [List.append_nil]
    exact h
  | cons name rest ih =>
    by_cases hgoes : ∃ clause d, c.step j name = .ok (some (clause, d))
    · obtain ⟨leg, hleg, hnames, hstep⟩ := Catalog.exists_isLeg h.arrive hgoes
      rw [List.append_cons, ← hnames] at hheaded ⊢
      rw [Catalog.routeFrom_cons hstep hnames, Catalog.arrive_cons hstep]
      exact ih (h.keep hleg hnames (hheaded.of_append hleg.names_ne_nil)) hheaded
    · rw [Catalog.routeFrom_eq_nil hgoes]
      refine ⟨h.faithful, fun k hk => ?_⟩
      obtain ⟨clause, d, hstep, -⟩ := Catalog.exists_step_of_arrive hk
      exact absurd ⟨clause, d, hstep⟩ hgoes

/-! ## Joining a path -/

/-- A walk passes a name that can be joined, and its leg is kept. -/
theorem Stands.run_joinSegments_cons (h : Stands c root js before j) (hleg : c.IsLeg root leg)
    (hnames : leg.names = before ++ [name]) (hheaded : Headed leg.names) :
    (joinSegments c (dotted (before ++ name :: rest)) j.aliasName j.definition
        (dotted before).utf8ByteSize (name :: rest)).run.run js =
      (joinSegments c (dotted (leg.names ++ rest)) leg.joined.aliasName leg.joined.definition
        (dotted leg.names).utf8ByteSize rest).run.run (js.keep leg) := by
  have hstep : c.step j name = .ok (some (leg.clause, leg.definition)) := hleg.step hnames h.arrive
  have hbefore : before.head? ≠ some "" := by
    cases before with
    | nil => simp
    | cons a before => exact hnames ▸ hheaded |>.of_append (List.cons_ne_nil _ _) |>.2.1
  have hsplit : before ++ name :: rest = leg.names ++ rest := by
    rw [hnames]
    exact List.append_cons before name rest
  rw [run_segment, pathStart_dotted hbefore, segmentEnd_dotted hbefore, hsplit, ← hnames, hstep]
  cases hfind : js.find? leg.path with
  | some joined =>
    -- what is joined already is this leg
    have hsame := h.faithful.arrive hheaded hfind
    rw [hleg.arrive] at hsame
    cases hsame
    rw [Joins.keep, hfind]
    rw [Leg.path] at hfind
    rw [hfind]
    rfl
  | none =>
    rw [Joins.keep, hfind]
    rw [Leg.path] at hfind
    rw [hfind]
    rfl

/-- A walk ends at a name that cannot be joined. -/
theorem run_joinSegments_stop (hstop : ¬∃ clause d, c.step j name = .ok (some (clause, d)))
    (hbefore : before.head? ≠ some "") (hfind : js.find? (dotted (before ++ [name])) = .none)
    (rest : List String) :
    (joinSegments c (dotted (before ++ name :: rest)) j.aliasName j.definition
        (dotted before).utf8ByteSize (name :: rest)).run.run js =
      ((c.arrive j (name :: rest)).map Option.isSome, js) := by
  rw [run_segment, pathStart_dotted hbefore, segmentEnd_dotted hbefore, hfind, Catalog.arrive]
  cases hstep : c.step j name with
  | error err => rfl
  | ok next? =>
    cases next? with
    | none => rfl
    | some next => exact absurd ⟨next.1, next.2, hstep⟩ hstop

/-- **A walk with a memo arrives where one without does**, and keeps the legs on its way. -/
theorem Stands.run_joinSegments (h : Stands c root js before j)
    (hheaded : Headed (before ++ rest)) :
    (joinSegments c (dotted (before ++ rest)) j.aliasName j.definition
        (dotted before).utf8ByteSize rest).run.run js =
      ((c.arrive j rest).map Option.isSome, js.keepAll (c.routeFrom j before rest)) := by
  induction rest generalizing before j js with
  | nil => rfl
  | cons name rest ih =>
    rw [List.append_cons] at hheaded
    by_cases hgoes : ∃ clause d, c.step j name = .ok (some (clause, d))
    · obtain ⟨leg, hleg, hnames, hstep⟩ := Catalog.exists_isLeg h.arrive hgoes
      rw [← hnames] at hheaded
      have hheaded' : Headed leg.names := hheaded.of_append hleg.names_ne_nil
      rw [h.run_joinSegments_cons hleg hnames hheaded', ih (h.keep hleg hnames hheaded') hheaded,
        Catalog.arrive_cons hstep, Catalog.routeFrom_cons hstep hnames]
      rfl
    · have hheaded' : Headed (before ++ [name]) := hheaded.of_append (by simp)
      have hfind : js.find? (dotted (before ++ [name])) = .none := by
        rw [Option.eq_none_iff_forall_ne_some]
        intro k hk
        have harrive := h.faithful.arrive hheaded' hk
        rw [Catalog.arrive_append h.arrive] at harrive
        obtain ⟨clause, d, hstep, -⟩ := Catalog.exists_step_of_arrive harrive
        exact hgoes ⟨clause, d, hstep⟩
      rw [run_joinSegments_stop hgoes hheaded'.head?_before hfind rest,
        Catalog.routeFrom_eq_nil hgoes]
      rfl

/-- Where a path is joined, so is every start of it. -/
theorem Faithful.isSome_find?_of_append (h : Faithful c root js) (hheaded : Headed (names ++ rest))
    (hne : names ≠ []) (hsome : (js.find? (dotted (names ++ rest))).isSome) :
    (js.find? (dotted names)).isSome := by
  induction rest using List.reverseRecOn with
  | nil => rwa [List.append_nil] at hsome
  | append_singleton rest name ih =>
    rw [← List.append_assoc] at hheaded hsome
    have hheaded' : Headed (names ++ rest) := hheaded.of_append (by simp [hne])
    exact ih hheaded' (h.closed hheaded' (hheaded.2.2 name (by simp)) hsome)

/-- **A path is joined as if it were the first one.** The table at its end is the one that a walk
without a memo arrives at, and what the path keeps are the legs of its route. -/
theorem Faithful.run_leftJoin (h : Faithful c root js) (hheaded : Headed names) :
    (leftJoin c root (dotted names)).run.run js =
      (c.arrive root.joined names, js.keepAll (c.route root names)) := by
  cases hfind : js.find? (dotted names) with
  | some j =>
    -- the path is joined, and with it all legs of its route
    have hall : ∀ l ∈ c.route root names, js.lacks l = false := by
      intro l hl
      obtain ⟨hleg, rest, rfl⟩ := Catalog.mem_route_iff.1 hl
      rw [lacks, Option.isNone_eq_false_iff]
      exact h.isSome_find?_of_append hheaded hleg.names_ne_nil (by rw [hfind]; rfl)
    rw [run_leftJoin_of_joined hfind, keepAll_of_not_lacks hall, h.arrive hheaded hfind]
  | none =>
    obtain ⟨-, hstands⟩ := h.stands.keepAll (show Headed ([] ++ names) from hheaded)
    have hwalk : walk c root js (dotted names) =
        ((c.arrive root.joined names).map Option.isSome, js.keepAll (c.route root names)) := by
      rw [walk, hheaded.splitOn_dotted]
      exact h.stands.run_joinSegments hheaded
    rw [run_leftJoin_of_walk hfind, hwalk]
    refine Prod.ext ?_ rfl
    cases harrive : c.arrive root.joined names with
    | error err => rfl
    | ok j? =>
      cases j? with
      | none => rfl
      | some j =>
        -- the walk stands at the end of the path, which is joined
        have hend := hstands j harrive
        obtain ⟨k, hk⟩ := Option.isSome_iff_exists.1 (hend.joined hheaded.1)
        have hsame := hend.faithful.arrive hheaded hk
        rw [harrive] at hsame
        cases hsame
        exact congrArg Except.ok hk

theorem Faithful.keepAll_route (h : Faithful c root js) (hheaded : Headed names) :
    Faithful c root (js.keepAll (c.route root names)) :=
  (h.stands.keepAll (show Headed ([] ++ names) from hheaded)).1

/-! ## Paths without a head -/

theorem not_headed_iff : ¬Headed (Text.splitOn '.' path) ↔
    ∃ rest, Text.splitOn '.' path = "" :: rest := by
  obtain ⟨first, rest, hsplit⟩ := List.exists_cons_of_ne_nil (Text.splitOn_ne_nil '.' path)
  have hdots : ∀ name ∈ Text.splitOn '.' path, '.' ∉ name.toList :=
    fun name hname => Text.not_mem_of_mem_splitOn hname
  rw [Headed, and_iff_right (Text.splitOn_ne_nil '.' path), and_iff_left hdots, hsplit]
  simp

/-- No name leads on from where an empty one cannot be joined. -/
theorem step_blank (hblank : ¬root.JoinsBlank) : c.step root.joined "" = .ok .none := by
  obtain ⟨hrelation, hhook⟩ := not_or.1 hblank
  rw [Option.not_isSome_iff_eq_none] at hrelation hhook
  show joinSegment c root "" _ _ = _
  rw [joinSegment, hrelation, hhook]

/-- A path that is empty or starts with a dot is not joined where an empty name cannot be. -/
theorem Faithful.run_leftJoin_of_not_headed (h : Faithful c root js) (hblank : ¬root.JoinsBlank)
    (hpath : ¬Headed (Text.splitOn '.' path)) :
    (leftJoin c root path).run.run js = (.ok .none, js) := by
  have hfind : ∀ path, ¬Headed (Text.splitOn '.' path) → js.find? path = .none := by
    intro path hpath
    rw [Option.eq_none_iff_forall_ne_some]
    exact fun j hj => hpath (h.headed hblank path j hj)
  obtain ⟨rest, hsplit⟩ := not_headed_iff.1 hpath
  have hwalk : walk c root js path = (.ok false, js) := by
    have hstop : ¬∃ clause d, c.step root.joined "" = .ok (some (clause, d)) := by
      simp [step_blank hblank]
    have harrive : c.arrive root.joined ("" :: rest) = .ok .none := by
      rw [Catalog.arrive, step_blank hblank]
    have hblank : js.find? (dotted ([] ++ [""])) = .none := hfind "" (not_headed_iff.2 ⟨[], rfl⟩)
    have hsegments := run_joinSegments_stop hstop (by simp) hblank rest
    rw [harrive, List.nil_append, ← hsplit, dotted_splitOn] at hsegments
    exact hsegments
  rw [run_leftJoin_of_walk (hfind path hpath), hwalk]
  rfl

/-- What a join keeps whose path is empty or starts with a dot is kept by a walk along such a path:
no start of it has a head. -/
theorem keeps_joinSegments_of_not_headed {J : Joins → Prop}
    (hpath : ¬Headed (Text.splitOn '.' path))
    (hadd : ∀ {js : Joins} {start : String} {clause : Join} {d : Definition}, J js →
      ¬Headed (Text.splitOn '.' start) → J (js.add start clause d))
    (prior : String) (d : Definition) (stop : Nat) (segments : List String) :
    Work.Keeps J (joinSegments c path prior d stop segments) := by
  induction segments generalizing prior d stop with
  | nil => exact Work.keeps_pure _
  | cons segment segments ih =>
    rw [joinSegments]
    refine Work.keeps_get.bind fun js => ?_
    split
    · exact ih _ _ _
    · rw [Work.lift_eq_of]
      refine (Work.keeps_of _).bind fun next? => ?_
      split
      · exact Work.keeps_pure _
      · refine (Work.keeps_modify fun js hjs => ?_).bind fun _ => ih _ _ _
        exact hadd hjs (not_headed_pathStart hpath _)

theorem keeps_leftJoin_of_not_headed {J : Joins → Prop} (hpath : ¬Headed (Text.splitOn '.' path))
    (hadd : ∀ {js : Joins} {start : String} {clause : Join} {d : Definition}, J js →
      ¬Headed (Text.splitOn '.' start) → J (js.add start clause d)) :
    Work.Keeps J (leftJoin c root path) :=
  keeps_leftJoin_of_segments (keeps_joinSegments_of_not_headed hpath hadd _ _ _ _)

/-! ## Joins stay faithful -/

/-- **Joins stay faithful**, whatever path is joined. -/
theorem keeps_leftJoin_faithful (path : String) :
    Work.Keeps (Faithful c root) (leftJoin c root path) := by
  by_cases hheaded : Headed (Text.splitOn '.' path)
  · intro js h
    have hrun := h.run_leftJoin hheaded
    rw [dotted_splitOn] at hrun
    rw [hrun]
    exact h.keepAll_route hheaded
  · by_cases hblank : root.JoinsBlank
    · -- nothing of what the memo is faithful to changes
      exact keeps_leftJoin_of_not_headed hheaded fun h hstart =>
        h.add_of_not_headed hblank hstart
    · intro js h
      rw [h.run_leftJoin_of_not_headed hblank hheaded]
      exact h

end Joins

/-! ## More entities -/

namespace Catalog

variable {c c' : Catalog} {j k : Joined} {names : List String}

theorem Extends.get {name : String} {d : Definition} (h : c.Extends c')
    (hget : c.get name = .ok d) : c'.get name = .ok d :=
  get_eq_ok_iff.2 (h name d (get_eq_ok_iff.1 hget))

/-- A name that leads on still does when more entities are registered. -/
theorem Extends.step {name : String} {next : Join × Definition} (h : c.Extends c')
    (hstep : c.step j name = .ok (some next)) : c'.step j name = .ok (some next) := by
  unfold Catalog.step joinSegment at hstep ⊢
  split at hstep
  · split at hstep
    · rename_i hkind
      obtain ⟨related, hget, hstep⟩ := Outcome.bind_eq_ok.1 hstep
      rw [if_pos hkind, h.get hget]
      exact hstep
    · cases hstep
  · split at hstep
    · cases hstep
    · obtain ⟨custom?, hhook, hstep⟩ := Outcome.bind_eq_ok.1 hstep
      refine Outcome.bind_eq_ok.2 ⟨custom?, hhook, ?_⟩
      cases custom? with
      | none => exact hstep
      | some custom =>
        dsimp only at hstep ⊢
        cases hentity : custom.entity with
        | none =>
          rw [hentity] at hstep
          exact hstep
        | some entity =>
          rw [hentity] at hstep
          obtain ⟨related, hget, hstep⟩ := Outcome.bind_eq_ok.1 hstep
          dsimp only
          rw [h.get hget]
          exact hstep

theorem Extends.arrive (h : c.Extends c') (harrive : c.arrive j names = .ok (some k)) :
    c'.arrive j names = .ok (some k) := by
  induction names generalizing j with
  | nil => exact harrive
  | cons name names ih =>
    obtain ⟨clause, d, hstep, hrest⟩ := exists_step_of_arrive harrive
    rw [arrive_cons (h.step hstep)]
    exact ih hrest

end Catalog

/-- Joins stay faithful when more entities are registered. -/
theorem Joins.Faithful.extend {c c' : Catalog} {root : Definition} {js : Joins}
    (h : js.Faithful c root) (hextends : c.Extends c') : js.Faithful c' root where
  arrive hnames hj := hextends.arrive (h.arrive hnames hj)
  closed := h.closed
  headed := h.headed

end RequestPlan
