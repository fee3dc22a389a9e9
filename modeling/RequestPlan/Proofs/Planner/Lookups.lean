import RequestPlan.Proofs.Planner.Uses

/-!
# Filters that calls look up

A call may fail at a filter that the registry has none of but an error, or for other reasons: a value
is refused, a hook fails, or something else of a request cannot be had.

* `Planner.LookupFails`: the filter of a key fails, and `Call.LookupFails`: so does one that a call
  comes to, when all before it went well.
* `keeps_call_unless`: **what tables and found filters keep is kept by a call, unless the registry
  fails to find a filter in it**. For what other reasons the call fails does not matter.
-/

namespace RequestPlan.Planner

/-! ## Lookups that fail -/

/-- The registry fails to find the filter of a key. -/
def LookupFails (key : String) (s : Registry × Planner) : Prop :=
  ∃ err, s.1.result (Registry.filter s.2.entity.name (FilterKey.parse key)) = .error err

/-- So it is with one of several keys, behind the predicates of those before it. -/
def BranchFails (v : Value) : List String → Registry × Planner → Prop
  | [], _ => False
  | key :: keys, s =>
    LookupFails key s ∨ Work.Then (branchPredicate key v) (fun _ => BranchFails v keys) s

/-- So it is with a branch of a key, for a value that asks for something. -/
def KeyFails (key : String) (v : Value) (s : Registry × Planner) : Prop :=
  v.isNull = false ∧ BranchFails v (branches key) s

/-- So it is with one of several entries, behind the filters of those before it. -/
def EntryFails : List (String × Value) → Registry × Planner → Prop
  | [], _ => False
  | (key, v) :: rest, s =>
    KeyFails key v s ∨ Work.Then (filterKey key v) (fun _ => EntryFails rest) s

/-- So it is with one of those entries that are meant as filters. -/
def RequestFails : List (String × Value) → Registry × Planner → Prop
  | [], _ => False
  | (key, v) :: rest, s => Work.Then (isFilter key)
    (fun meant t =>
      if meant then KeyFails key v t ∨ Work.Then (filterKey key v) (fun _ => RequestFails rest) t
      else RequestFails rest t) s

/-- So it is with a filter of parameters or, where they have none, with a default one. -/
def FiltersFail (ps : Params) (s : Registry × Planner) : Prop :=
  RequestFails ps.entries s ∨ Work.Then (filterRequested ps.entries)
    (fun any t => any = false ∧ EntryFails t.2.defaultFilter.entries t) s

/-- The registry fails to find a filter that a call comes to. -/
def Call.LookupFails : Call → Registry × Planner → Prop
  | .filter ps | .apply ps => FiltersFail ps
  | .filterKey key v => KeyFails key v
  | _ => fun _ => False

/-! ## What is kept unless a lookup fails -/

section Keeps

variable {R : Registry → Prop}
  (hfilter : ∀ entity key, FilterKey.Divided key →
    Work.Triple R (Registry.filter entity key) (fun _ => R) fun _ => True)

include hfilter

theorem keeps_branchPredicate_unless (key : String) (v : Value) :
    Work.KeepsUnless (LookupFails key) (fun s => R s.1) (branchPredicate key v) := by
  have hlookup : ∀ p : Planner, Work.KeepsUnless
      (fun s => ∃ err, s.1.result (Registry.filter p.entity.name (FilterKey.parse key)) = .error err)
      (fun s : Registry × Planner => R s.1)
      (PlannerM.ofRegistry (Registry.filter p.entity.name (FilterKey.parse key))) := by
    intro p s hs hnot
    cases hresult : s.1.result (Registry.filter p.entity.name (FilterKey.parse key)) with
    | error err => exact absurd ⟨err, hresult⟩ hnot
    | ok f? => exact (hfilter _ _ (FilterKey.divided_parse key) s.1 hs).1 f? hresult
  have hcurrent : Work.Keeps (fun s : Registry × Planner => R s.1) current := keeps_current
  refine (hcurrent.bind_unless fun p => (hlookup p).bind_keeps fun f? => ?_).imp ?_
  · split
    · exact Work.keeps_pure _
    · exact keeps_applied p v _
  · rintro s ⟨p, t, hrun, herr⟩
    cases hrun
    exact herr

theorem keeps_branchPredicates_unless (v : Value) (keys : List String) :
    Work.KeepsUnless (BranchFails v keys) (fun s => R s.1) (branchPredicates v keys) := by
  induction keys with
  | nil => exact (Work.keeps_pure _).unless _
  | cons key keys ih =>
    exact (keeps_branchPredicate_unless hfilter key v).bind fun _ =>
      ih.bind_keeps fun _ => Work.keeps_pure _

theorem keeps_filterKey_unless (key : String) (v : Value) :
    Work.KeepsUnless (KeyFails key v) (fun s => R s.1) (filterKey key v) := by
  unfold filterKey
  split
  · exact (Work.keeps_pure _).unless _
  · rename_i hnull
    refine ((keeps_branchPredicates_unless hfilter v (branches key)).bind_keeps fun ps => ?_).imp
      fun s hs => ⟨Bool.eq_false_iff.2 hnull, hs⟩
    split
    · exact Work.keeps_pure _
    · exact Work.keeps_modify fun _ hs => hs

theorem keeps_filterEntries_unless (es : List (String × Value)) :
    Work.KeepsUnless (EntryFails es) (fun s => R s.1) (filterEntries es) := by
  induction es with
  | nil => exact (Work.keeps_pure _).unless _
  | cons e es ih => exact (keeps_filterKey_unless hfilter e.1 e.2).bind fun _ => ih

variable (htable : ∀ entity kind, Work.Keeps R (Registry.table entity kind))

include htable

theorem keeps_filterRequested_unless (es : List (String × Value)) :
    Work.KeepsUnless (RequestFails es) (fun s => R s.1) (filterRequested es) := by
  induction es with
  | nil => exact (Work.keeps_pure _).unless _
  | cons e es ih =>
    have hisFilter : Work.Keeps (fun s : Registry × Planner => R s.1) (isFilter e.1) :=
      keeps_isFilter (keptBeside_of_table htable).table e.1
    refine hisFilter.bind_unless fun meant => ?_
    cases meant with
    | false => exact ih
    | true =>
      exact (keeps_filterKey_unless hfilter e.1 e.2).bind fun _ =>
        ih.bind_keeps fun _ => Work.keeps_pure _

theorem keeps_filter_unless (ps : Params) :
    Work.KeepsUnless (FiltersFail ps) (fun s => R s.1) (Planner.filter ps) := by
  have hcurrent : Work.Keeps (fun s : Registry × Planner => R s.1) current := keeps_current
  refine (keeps_filterRequested_unless hfilter htable ps.entries).bind fun any => ?_
  cases any with
  | true => exact (Work.keeps_pure _).unless _
  | false =>
    refine (hcurrent.bind_unless fun p => keeps_filterEntries_unless hfilter _).imp ?_
    rintro s ⟨p, t, hrun, hfails⟩
    cases hrun
    exact ⟨rfl, hfails⟩

/-- **What tables and found filters keep is kept by a call, unless the registry fails to find a
filter in it.** -/
theorem keeps_call_unless (call : Call) :
    Work.KeepsUnless call.LookupFails (fun s => R s.1) call.work := by
  have hbeside : KeptBeside fun s => R s.1 := keptBeside_of_table htable
  cases hcall : call.asksForFilters with
  | false => exact (hbeside.work hcall).unless _
  | true =>
    cases call with
    | filter ps => exact keeps_filter_unless hfilter htable ps
    | filterKey key v => exact keeps_filterKey_unless hfilter key v
    | apply ps =>
      have hcurrent : Work.Keeps (fun s : Registry × Planner => R s.1) current := keeps_current
      refine (hcurrent.bind_unless fun p =>
        (keeps_filter_unless hfilter htable ps).bind_keeps fun _ =>
          (hbeside.selectScoped _ .all).bind fun _ => (hbeside.sortScoped _ .all).bind fun _ =>
            hbeside.paginateBy ps).imp ?_
      rintro s ⟨p, t, hrun, hfails⟩
      cases hrun
      exact hfails
    | _ => cases hcall

end Keeps

end RequestPlan.Planner
