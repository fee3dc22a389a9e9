import RequestPlan.Proofs.Joins.Faithful

/-!
# The memo of joins

* `Joins.Holds`: the joins are those of some legs, with the legs of all prefixes among them; such
  joins are faithful (`Holds.faithful`).
* `At.keepAll`: **a walk keeps the legs on its way that are not there yet**.
* `keeps_leftJoin_holds`: joins are those of legs behind any paths, if no leg has an empty name.
-/

namespace RequestPlan

namespace Joins

/-- The joins are those of legs from an entity, each with the legs of its prefixes. The memo has
one entry for each of them, and the clauses come in their order. -/
structure Holds (c : Catalog) (root : Definition) (js : Joins) (legs : List Leg) : Prop where
  clauses : js.clauses = legs.map Leg.clause
  memo : js.memo.entries.Perm (legs.map fun leg => (leg.path, leg.joined))
  plain : ∀ leg ∈ legs, PlainNames leg.names
  isLeg : ∀ leg ∈ legs, c.IsLeg root leg
  closed : ∀ leg ∈ legs, ∀ l, c.IsLeg root l → l.names <+: leg.names → l ∈ legs

variable {c : Catalog} {root : Definition} {js : Joins} {legs : List Leg} {leg : Leg}
  {j : Joined} {name : String} {names before rest : List String}

theorem holds_none : Holds c root .none [] where
  clauses := rfl
  memo := .refl _
  plain := fun _ h => absurd h List.not_mem_nil
  isLeg := fun _ h => absurd h List.not_mem_nil
  closed := fun _ h => absurd h List.not_mem_nil

/-! ## What is joined -/

theorem Holds.find?_eq_some_iff (h : Holds c root js legs) (hne : names ≠ [])
    (hplain : PlainNames names) :
    js.find? (dotted names) = some j ↔ ∃ leg ∈ legs, leg.names = names ∧ leg.joined = j := by
  have hmem : js.find? (dotted names) = some j ↔ (dotted names, j) ∈ js.memo.entries :=
    Dict.find?_eq_some_iff
  rw [hmem, h.memo.mem_iff, List.mem_map]
  refine exists_congr fun leg => and_congr_right fun hleg => ?_
  rw [Prod.mk.injEq]
  refine and_congr_left' ⟨fun hpath => ?_, fun hnames => congrArg dotted hnames⟩
  exact dotted_inj (h.isLeg leg hleg).names_ne_nil hne (h.plain leg hleg) hplain hpath

/-- What is joined under a path is the leg of the path's names. -/
theorem Holds.exists_leg_of_find? (h : Holds c root js legs) {path : String}
    (hfind : js.find? path = some j) :
    ∃ leg ∈ legs, leg.names = Text.splitOn '.' path ∧ leg.joined = j := by
  have hentry : (path, j) ∈ legs.map fun leg => (leg.path, leg.joined) :=
    h.memo.mem_iff.1 (Dict.find?_eq_some_iff.1 hfind)
  obtain ⟨leg, hmem, hleg⟩ := List.mem_map.1 hentry
  obtain ⟨rfl, rfl⟩ := Prod.mk.inj hleg
  have hnames : Text.splitOn '.' leg.path = leg.names :=
    splitOn_dotted (h.isLeg leg hmem).names_ne_nil (h.plain leg hmem)
  exact ⟨leg, hmem, hnames.symm, rfl⟩

/-- The path of a leg is joined exactly when the leg is. -/
theorem Holds.lacks_iff (h : Holds c root js legs) (hleg : c.IsLeg root leg)
    (hplain : PlainNames leg.names) : js.lacks leg = true ↔ leg ∉ legs := by
  rw [lacks, Option.isNone_iff_eq_none, Option.eq_none_iff_forall_ne_some]
  constructor
  · intro hnone hmem
    exact hnone leg.joined ((h.find?_eq_some_iff hleg.names_ne_nil hplain).2 ⟨leg, hmem, rfl, rfl⟩)
  · intro hmem j hj
    obtain ⟨l, hl, hnames, -⟩ := (h.find?_eq_some_iff hleg.names_ne_nil hplain).1 hj
    rw [(h.isLeg l hl).unique hleg hnames] at hl
    exact hmem hl

/-- What is kept is joined, whether it was before or not. -/
theorem Holds.mem_kept (h : Holds c root js legs) (hleg : c.IsLeg root leg)
    (hplain : PlainNames leg.names) {ls : List Leg} (hmem : leg ∈ ls) :
    leg ∈ legs ++ ls.filter js.lacks := by
  by_cases hold : leg ∈ legs
  · exact List.mem_append_left _ hold
  · exact List.mem_append_right _ (List.mem_filter.2 ⟨hmem, (h.lacks_iff hleg hplain).2 hold⟩)

/-- Joins of legs are faithful to their paths. -/
theorem Holds.faithful (h : Holds c root js legs) : Faithful c root js where
  arrive {names j} hnames hj := by
    obtain ⟨leg, hmem, hleg, rfl⟩ := h.exists_leg_of_find? hj
    rw [hnames.splitOn_dotted] at hleg
    exact hleg ▸ (h.isLeg leg hmem).arrive
  closed {names name} hnames hdot hsome := by
    obtain ⟨j, hj⟩ := Option.isSome_iff_exists.1 hsome
    obtain ⟨leg, hmem, hleg, -⟩ := h.exists_leg_of_find? hj
    rw [(hnames.concat hdot).splitOn_dotted] at hleg
    have hinitial : names <+: leg.names := ⟨[name], hleg.symm⟩
    -- the walk to the end has been behind the names
    have harrive := (h.isLeg leg hmem).arrive
    rw [hleg] at harrive
    obtain ⟨m, hm, -⟩ := Catalog.exists_arrive_of_append harrive
    obtain ⟨l, hl, rfl, -⟩ := Catalog.exists_leg_of_arrive hnames.1 hm
    have hfind := (h.find?_eq_some_iff hl.names_ne_nil ((h.plain leg hmem).of_initial hinitial)).2
      ⟨l, h.closed leg hmem l hl hinitial, rfl, rfl⟩
    rw [hfind]
    rfl
  headed _ path j hj := by
    obtain ⟨leg, hmem, hleg, -⟩ := h.exists_leg_of_find? hj
    exact hleg ▸ (h.plain leg hmem).headed (h.isLeg leg hmem).names_ne_nil

/-! ## Keeping a leg more -/

theorem Holds.keep (h : Holds c root js legs) (hleg : c.IsLeg root leg)
    (hplain : PlainNames leg.names)
    (hbefore : ∀ l, c.IsLeg root l → l.names <+: leg.names → l ≠ leg → l ∈ legs) :
    Holds c root (js.keep leg) (legs ++ [leg].filter js.lacks) := by
  cases hlacks : js.lacks leg with
  | false =>
    rw [keep_of_not_lacks hlacks, List.filter_cons_of_neg (by simp [hlacks]), List.filter_nil,
      List.append_nil]
    exact h
  | true =>
    have hnone : Entries.find? leg.path js.memo.entries = .none := by
      rwa [lacks, Option.isNone_iff_eq_none] at hlacks
    rw [keep_of_lacks hlacks, List.filter_cons_of_pos hlacks, List.filter_nil]
    refine ⟨?_, ?_, ?_, ?_, ?_⟩
    · rw [add, h.clauses, List.map_append]
      rfl
    · have hput : (js.add leg.path leg.clause leg.definition).memo.entries.Perm
          ((leg.path, leg.joined) :: js.memo.entries) := Entries.perm_put hnone
      rw [List.map_append]
      exact hput.trans ((h.memo.cons _).trans (List.perm_append_singleton _ _).symm)
    · intro l hl
      rcases List.mem_append.1 hl with hl | hl
      · exact h.plain l hl
      · exact List.mem_singleton.1 hl ▸ hplain
    · intro l hl
      rcases List.mem_append.1 hl with hl | hl
      · exact h.isLeg l hl
      · exact List.mem_singleton.1 hl ▸ hleg
    · intro l hl l' hl' hinitial
      rcases List.mem_append.1 hl with hl | hl
      · exact List.mem_append_left _ (h.closed l hl l' hl' hinitial)
      · -- of the prefixes of the new leg only the whole is new
        rw [List.mem_singleton.1 hl] at hinitial
        by_cases hlast : l' = leg
        · exact List.mem_append_right _ (List.mem_singleton.2 hlast)
        · exact List.mem_append_left _ (hbefore l' hl' hinitial hlast)

/-- A walk stands at a table, behind names whose legs are all joined. -/
structure At (c : Catalog) (root : Definition) (js : Joins) (legs : List Leg)
    (before : List String) (j : Joined) : Prop where
  holds : Holds c root js legs
  arrive : c.arrive root.joined before = .ok (some j)
  joined : ∀ l, c.IsLeg root l → l.names <+: before → l ∈ legs

/-- A walk that starts, with any joins. -/
theorem Holds.at_start (h : Holds c root js legs) : At c root js legs [] root.joined where
  holds := h
  arrive := rfl
  joined := fun _ hleg hinitial => absurd (List.prefix_nil.1 hinitial) hleg.names_ne_nil

/-- The next leg of a walk is kept, and the walk stands at its end. -/
theorem At.keep (h : At c root js legs before j) (hleg : c.IsLeg root leg)
    (hnames : leg.names = before ++ [name]) (hplain : PlainNames leg.names) :
    At c root (js.keep leg) (legs ++ [leg].filter js.lacks) leg.names leg.joined := by
  have hkept : Holds c root (js.keep leg) (legs ++ [leg].filter js.lacks) := by
    refine h.holds.keep hleg hplain fun l hl hinitial hne => ?_
    rw [hnames] at hinitial
    rcases List.prefix_concat_iff.1 hinitial with hlast | hinitial
    · exact absurd (hl.unique hleg (hlast.trans hnames.symm)) hne
    · exact h.joined l hl hinitial
  have hmem : leg ∈ legs ++ [leg].filter js.lacks :=
    h.holds.mem_kept hleg hplain (List.mem_singleton_self leg)
  exact ⟨hkept, hleg.arrive, fun l hl hinitial => hkept.closed leg hmem l hl hinitial⟩

/-- The legs of a route are kept in order, those that are joined already left out. -/
theorem At.keepAll (h : At c root js legs before j) (hplain : PlainNames (before ++ rest)) :
    Holds c root (js.keepAll (c.routeFrom j before rest))
      (legs ++ (c.routeFrom j before rest).filter js.lacks) := by
  induction rest generalizing before j js legs with
  | nil =>
    rw [Catalog.routeFrom, List.filter_nil, List.append_nil]
    exact h.holds
  | cons name rest ih =>
    by_cases hgoes : ∃ clause d, c.step j name = .ok (some (clause, d))
    · obtain ⟨leg, hleg, hnames, hstep⟩ := Catalog.exists_isLeg h.arrive hgoes
      rw [List.append_cons, ← hnames] at hplain
      have hplain' : PlainNames leg.names := hplain.of_initial (List.prefix_append _ rest)
      have hrest := ih (h.keep hleg hnames hplain') hplain
      -- keeping the leg changes nothing for the paths beyond it
      have hfilter : (c.routeFrom leg.joined leg.names rest).filter (js.keep leg).lacks =
          (c.routeFrom leg.joined leg.names rest).filter js.lacks := by
        refine List.filter_congr fun l hl => lacks_keep_of_ne fun hpath => ?_
        obtain ⟨hl, hinitial, hlength⟩ := (Catalog.mem_routeFrom_iff hleg.arrive).1 hl
        have heq : l.names = leg.names := dotted_inj hl.names_ne_nil hleg.names_ne_nil
          (hplain.of_initial hinitial) hplain' hpath
        rw [heq] at hlength
        exact Nat.lt_irrefl _ hlength
      rw [hfilter, List.append_assoc, ← List.filter_append] at hrest
      rw [Catalog.routeFrom_cons hstep hnames]
      exact hrest
    · rw [Catalog.routeFrom_eq_nil hgoes, List.filter_nil, List.append_nil]
      exact h.holds

/-! ## Joining a path -/

/-- Where all legs of a route are joined there is nothing to keep. -/
theorem Holds.keepAll_route_eq (h : Holds c root js legs) (hplain : PlainNames names)
    (hall : ∀ l ∈ c.route root names, l ∈ legs) : js.keepAll (c.route root names) = js := by
  refine keepAll_of_not_lacks fun l hl => ?_
  obtain ⟨hleg, hinitial⟩ := Catalog.mem_route_iff.1 hl
  rw [← Bool.not_eq_true, h.lacks_iff hleg (hplain.of_initial hinitial), Classical.not_not]
  exact hall l hl

/-- **A join of a path arrives where a walk without a memo does**, and keeps the legs of its
route. -/
theorem Holds.run_leftJoin (h : Holds c root js legs) (hne : names ≠ [])
    (hplain : PlainNames names) :
    (leftJoin c root (dotted names)).run.run js =
      (c.arrive root.joined names, js.keepAll (c.route root names)) :=
  h.faithful.run_leftJoin (hplain.headed hne)

/-! ## Joining any path -/

theorem At.stands (h : At c root js legs before j) : Stands c root js before j where
  faithful := h.holds.faithful
  arrive := h.arrive
  joined hne := by
    obtain ⟨leg, hleg, rfl, rfl⟩ := Catalog.exists_leg_of_arrive hne h.arrive
    have hmem := h.joined leg hleg List.prefix_rfl
    rw [(h.holds.find?_eq_some_iff hne (h.holds.plain leg hmem)).2 ⟨leg, hmem, rfl, rfl⟩]
    rfl

/-- A name that cannot be joined is not joined, also an empty one. -/
theorem At.find?_eq_none (h : At c root js legs before j)
    (hstop : ¬∃ clause d, c.step j name = .ok (some (clause, d)))
    (hbefore : PlainNames before) (hdot : '.' ∉ name.toList) :
    js.find? (dotted (before ++ [name])) = .none := by
  rw [Option.eq_none_iff_forall_ne_some]
  intro k hk
  obtain ⟨l, hmem, hl, -⟩ := h.holds.exists_leg_of_find? hk
  have hnames : Text.splitOn '.' (dotted (before ++ [name])) = before ++ [name] := by
    refine Text.splitOn_joinWith (by simp) fun part hpart => ?_
    rcases List.mem_append.1 hpart with hpart | hpart
    · exact (hbefore part hpart).2
    · exact List.mem_singleton.1 hpart ▸ hdot
  exact hstop ⟨_, _, (h.holds.isLeg l hmem).step (hl.trans hnames) h.arrive⟩

/-- When no leg has an empty name, a walk along any names leaves joins of legs. -/
theorem At.exists_holds (h : At c root js legs before j) (hbefore : PlainNames before)
    (hrest : ∀ name ∈ rest, '.' ∉ name.toList)
    (hblank : ∀ leg, c.IsLeg root leg → "" ∉ leg.names) :
    ∃ more, Holds c root ((joinSegments c (dotted (before ++ rest)) j.aliasName j.definition
      (dotted before).utf8ByteSize rest).run.run js).2 (legs ++ more) := by
  induction rest generalizing before j js legs with
  | nil => exact ⟨[], (List.append_nil legs).symm ▸ h.holds⟩
  | cons name rest ih =>
    obtain ⟨hdot, hrest⟩ := List.forall_mem_cons.1 hrest
    by_cases hgoes : ∃ clause d, c.step j name = .ok (some (clause, d))
    · obtain ⟨leg, hleg, hnames, -⟩ := Catalog.exists_isLeg h.arrive hgoes
      have hname : name ≠ "" := by
        rintro rfl
        exact hblank leg hleg (by simp [hnames])
      have hplain : PlainNames leg.names := by
        intro part hpart
        rw [hnames] at hpart
        rcases List.mem_append.1 hpart with hpart | hpart
        · exact hbefore part hpart
        · exact List.mem_singleton.1 hpart ▸ ⟨hname, hdot⟩
      obtain ⟨more, hmore⟩ := ih (h.keep hleg hnames hplain) hplain hrest
      rw [h.stands.run_joinSegments_cons hleg hnames (hplain.headed hleg.names_ne_nil)]
      exact ⟨_, List.append_assoc legs _ more ▸ hmore⟩
    · rw [run_joinSegments_stop hgoes hbefore.head?_ne (h.find?_eq_none hgoes hbefore hdot) rest]
      exact ⟨[], (List.append_nil legs).symm ▸ h.holds⟩

/-- **When no leg has an empty name, joins stay those of legs**, whatever path is joined, also one
with empty segments. -/
theorem keeps_leftJoin_holds (hblank : ∀ leg, c.IsLeg root leg → "" ∉ leg.names) (path : String) :
    Work.Keeps (fun js => ∃ legs, Holds c root js legs) (leftJoin c root path) := by
  have hsegments : Work.Keeps (fun js => ∃ legs, Holds c root js legs)
      (joinSegments c path root.table root 0 (Text.splitOn '.' path)) := by
    rintro js ⟨legs, h⟩
    have hnone : PlainNames [] := fun _ hname => absurd hname List.not_mem_nil
    obtain ⟨more, hmore⟩ := h.at_start.exists_holds hnone
      (fun segment hsegment => Text.not_mem_of_mem_splitOn hsegment) hblank
    rw [List.nil_append, dotted_splitOn] at hmore
    exact ⟨legs ++ more, hmore⟩
  exact keeps_leftJoin_of_segments hsegments

end Joins
end RequestPlan
