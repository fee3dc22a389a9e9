import RequestPlan.Proofs.Joins.Faithful

/-!
# Legs that are kept

* `Leg.firsts`: of several legs the first one of each path.
* `Joins.clauses_keepAll`, `Joins.perm_memo_keepAll`: **what is kept of legs are the first ones of
  those paths that are not joined yet**, in their order.
* `Catalog.nodup_route`: the legs of one route have different paths.
-/

namespace RequestPlan

/-- The legs whose paths no leg in front of them has. -/
def Leg.firsts : List Leg → List Leg
  | [] => []
  | leg :: legs => leg :: (firsts legs).filter fun l => l.path ≠ leg.path

theorem Leg.firsts_eq_self {legs : List Leg} (h : (legs.map Leg.path).Nodup) :
    firsts legs = legs := by
  induction legs with
  | nil => rfl
  | cons leg legs ih =>
    rw [List.map_cons, List.nodup_cons] at h
    have hother : ∀ l ∈ legs, decide (l.path ≠ leg.path) = true := by
      intro l hl
      refine decide_eq_true fun hpath => h.1 ?_
      exact hpath ▸ List.mem_map_of_mem hl
    rw [firsts, ih h.2, List.filter_eq_self.2 hother]

namespace Joins

variable {js : Joins} {leg : Leg} {legs : List Leg}

theorem keepAll_append (legs more : List Leg) :
    js.keepAll (legs ++ more) = (js.keepAll legs).keepAll more :=
  List.foldl_append

@[simp] theorem lacks_none : Joins.none.lacks leg = true := rfl

/-- A leg whose path is joined takes nothing from the rest. -/
theorem filter_lacks_of_not_lacks (h : js.lacks leg = false) :
    (Leg.firsts (leg :: legs)).filter js.lacks = (Leg.firsts legs).filter js.lacks := by
  rw [Leg.firsts, List.filter_cons_of_neg (by simp [h]), List.filter_filter]
  refine List.filter_congr fun l _ => ?_
  by_cases hpath : l.path = leg.path
  · have hlacks : js.lacks l = false := by rwa [lacks, hpath]
    rw [hlacks, Bool.false_and]
  · simp [hpath]

/-- A leg that is kept comes first, and the rest is what is kept behind it. -/
theorem filter_lacks_of_lacks (h : js.lacks leg = true) :
    (Leg.firsts (leg :: legs)).filter js.lacks =
      leg :: (Leg.firsts legs).filter (js.keep leg).lacks := by
  rw [Leg.firsts, List.filter_cons_of_pos h, List.filter_filter]
  refine congrArg _ (List.filter_congr fun l _ => ?_)
  by_cases hpath : l.path = leg.path
  · have hjoined : (js.keep leg).lacks l = false := by
      rw [lacks, hpath, Option.isNone_eq_false_iff]
      exact isSome_find?_keep_self
    simp [hpath, hjoined]
  · simp [hpath, lacks_keep_of_ne hpath]

/-- **The clauses of what is kept come behind those that there are**: the first one of each path
that is not joined yet. -/
theorem clauses_keepAll (js : Joins) (legs : List Leg) : (js.keepAll legs).clauses =
    js.clauses ++ ((Leg.firsts legs).filter js.lacks).map Leg.clause := by
  induction legs generalizing js with
  | nil => exact (List.append_nil _).symm
  | cons leg legs ih =>
    have hrest : js.keepAll (leg :: legs) = (js.keep leg).keepAll legs := rfl
    rw [hrest, ih]
    cases hlacks : js.lacks leg with
    | false => rw [filter_lacks_of_not_lacks hlacks, keep_of_not_lacks hlacks]
    | true =>
      have hclauses : (js.keep leg).clauses = js.clauses ++ [leg.clause] := by
        rw [keep_of_lacks hlacks, add]
      rw [filter_lacks_of_lacks hlacks, hclauses, List.append_assoc, List.map_cons]
      rfl

/-- The memo of what is kept has an entry more for each clause. -/
theorem perm_memo_keepAll (js : Joins) (legs : List Leg) : (js.keepAll legs).memo.entries.Perm
    (js.memo.entries ++ ((Leg.firsts legs).filter js.lacks).map fun leg =>
      (leg.path, leg.joined)) := by
  induction legs generalizing js with
  | nil => exact .of_eq (List.append_nil _).symm
  | cons leg legs ih =>
    have hrest : js.keepAll (leg :: legs) = (js.keep leg).keepAll legs := rfl
    rw [hrest]
    refine (ih (js.keep leg)).trans ?_
    cases hlacks : js.lacks leg with
    | false => rw [filter_lacks_of_not_lacks hlacks, keep_of_not_lacks hlacks]
    | true =>
      have hput : (js.keep leg).memo.entries.Perm ((leg.path, leg.joined) :: js.memo.entries) := by
        rw [keep_of_lacks hlacks]
        exact Entries.perm_put (lacks_eq_true_iff.1 hlacks)
      rw [filter_lacks_of_lacks hlacks, List.map_cons]
      exact (hput.append_right _).trans List.perm_middle.symm

/-- Legs of different paths are all kept where nothing is joined. -/
theorem clauses_keepAll_none (h : (legs.map Leg.path).Nodup) :
    (Joins.none.keepAll legs).clauses = legs.map Leg.clause := by
  rw [clauses_keepAll, Leg.firsts_eq_self h, List.filter_eq_self.2 fun _ _ => lacks_none]
  rfl

theorem perm_memo_keepAll_none (h : (legs.map Leg.path).Nodup) :
    (Joins.none.keepAll legs).memo.entries.Perm (legs.map fun leg => (leg.path, leg.joined)) := by
  have hperm := perm_memo_keepAll .none legs
  rw [Leg.firsts_eq_self h, List.filter_eq_self.2 fun _ _ => lacks_none] at hperm
  exact hperm

end Joins

namespace Catalog

variable {c : Catalog} {root : Definition} {j : Joined} {before rest : List String}

theorem nodup_routeFrom (hbefore : c.arrive root.joined before = .ok (some j))
    (hheaded : Headed (before ++ rest)) : ((c.routeFrom j before rest).map Leg.path).Nodup := by
  induction rest generalizing before j with
  | nil => exact List.nodup_nil
  | cons name rest ih =>
    by_cases hgoes : ∃ clause d, c.step j name = .ok (some (clause, d))
    · obtain ⟨leg, hleg, hnames, hstep⟩ := exists_isLeg hbefore hgoes
      rw [List.append_cons, ← hnames] at hheaded
      rw [routeFrom_cons hstep hnames, List.map_cons, List.nodup_cons]
      refine ⟨fun hmem => ?_, ih hleg.arrive hheaded⟩
      -- the legs behind this one have more names
      obtain ⟨l, hl, hpath⟩ := List.mem_map.1 hmem
      obtain ⟨hisLeg, ⟨rest', hinitial⟩, hlength⟩ := (mem_routeFrom_iff hleg.arrive).1 hl
      have hheaded' : Headed l.names := (hinitial ▸ hheaded).of_append hisLeg.names_ne_nil
      have hsame : l.names = leg.names :=
        hheaded'.dotted_inj (hheaded.of_append hleg.names_ne_nil) hpath
      rw [hsame] at hlength
      exact Nat.lt_irrefl _ hlength
    · rw [routeFrom_eq_nil hgoes]
      exact List.nodup_nil

/-- The legs of a route have different paths. -/
theorem nodup_route {names : List String} (hheaded : Headed names) :
    ((c.route root names).map Leg.path).Nodup :=
  nodup_routeFrom rfl hheaded

end Catalog
end RequestPlan
