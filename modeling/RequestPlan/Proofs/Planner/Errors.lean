import RequestPlan.Proofs.Columns.Filters
import RequestPlan.Proofs.Joins.Errors
import RequestPlan.Proofs.Planner.Aliases
import RequestPlan.Proofs.Selection.Expand

/-!
# Errors of calls

* `Catalog.Lacks`: no table of a catalog has an error that says that a kind is not declared.
* `Catalog.filter_ne_error`, `Catalog.select_ne_error`: then no filter and no selection has it.
* `CompiledFilter.Of.spares`: filters do not end with it when no hook does.
* `Planner.spares_work`: **no call fails with an error of a kind that is not declared**, unless a
  table has this error or a hook ends with it.
-/

namespace RequestPlan

variable {c : Catalog} {d : Definition} {err : Error} {entity : String}

/-! ## Tables, filters and selections -/

namespace Catalog

/-- An error of a kind that is not declared, which no table of the catalog has. -/
structure Lacks (c : Catalog) (err : Error) : Prop where
  undeclared : err.Undeclared
  table : ∀ entity kind, c.table entity kind ≠ .error err

/-- **The error of one table is the error of no other.** -/
theorem lacks_of_table {k : Kind} (hc : c.Named) (hd : c.find? d.name = some d)
    (herr : d.undeclared k = some err) (h : Table.of d.toEntity k ≠ .error err) :
    c.Lacks err := by
  have hundeclared : err.Undeclared := Entity.undeclared_of_eq_some herr
  refine ⟨hundeclared, fun entity kind heq => ?_⟩
  cases hget : c.get entity with
  | error err' =>
    obtain ⟨-, rfl⟩ := get_eq_error_iff.1 hget
    rw [table, hget] at heq
    exact hundeclared.error_ne id heq
  | ok e =>
    rw [table_of_get hget, Table.of_eq] at heq
    have hfind : c.find? entity = some e := get_eq_ok_iff.1 hget
    split at heq
    · split at heq
      · exact hundeclared.error_ne id heq
      · cases heq
    · rename_i hdeclares
      cases hother : e.undeclared kind with
      | none =>
        rw [hother] at heq
        cases heq
      | some err' =>
        rw [hother] at heq
        cases heq
        obtain ⟨hname, rfl⟩ := Entity.undeclared_inj hother herr
        -- the error names the entity, which is found under its name
        obtain rfl : e = d := by
          rw [← hc _ _ hfind, hname, hd] at hfind
          exact (Option.some.inj hfind).symm
        refine h ?_
        rw [Table.of_eq, if_neg hdeclares, herr]

theorem entry?_ne_error (h : c.Lacks err) (aliasName : String) :
    c.entry? entity aliasName ≠ .error err := by
  cases ht : c.table entity .filterable with
  | error err' =>
    rw [entry?_of_table_error ht]
    exact Outcome.error_ne_error ht (h.table entity .filterable)
  | ok t =>
    obtain ⟨d, -, hfound⟩ : ∃ d, c.get entity = .ok d ∧
        c.entry? entity aliasName = .ok ((t.find? aliasName).map fun entry => (d, entry)) :=
      entry?_of_table ht
    rw [hfound]
    nofun

theorem filterLink_ne_error (herr : err.Undeclared) (key : String) :
    c.filterLink d key ≠ .error err := by
  unfold filterLink
  split
  · exact herr.error_ne id
  · split
    · exact herr.error_ne id
    · refine Outcome.bind_ne_error (get_ne_error herr _) fun related _ => ?_
      split
      · exact herr.error_ne id
      · nofun

theorem filter_ne_error (h : c.Lacks err) (key : FilterKey) : c.filter entity key ≠ .error err := by
  induction key generalizing entity with
  | nil => nofun
  | cons aliasName rest ih =>
    cases hentry : c.entry? entity aliasName with
    | error err' =>
      rw [filter, hentry]
      exact Outcome.error_ne_error hentry (entry?_ne_error h aliasName)
    | ok found =>
      obtain _ | ⟨d, entry⟩ := found
      · rw [filter, hentry]
        exact Outcome.ok_ne_error
      by_cases hmode : Mode.parse entry.mode = .relation
      · cases hlink : c.filterLink d entry.key with
        | error err' =>
          rw [filter_of_broken rest hentry hmode hlink]
          exact Outcome.error_ne_error hlink (filterLink_ne_error h.undeclared _)
        | ok target =>
          cases hblank : FilterKey.isBlank rest with
          | true =>
            rw [filter_of_related hentry hmode hlink hblank]
            exact Outcome.ok_ne_error
          | false =>
            rw [filter_of_followed hentry hmode hlink hblank]
            exact Outcome.map_ne_error ih
      · rw [filter_of_column rest hentry hmode]
        exact Outcome.ok_ne_error

theorem gain_ne_error (herr : err.Undeclared) {below : Option SelectionFinder}
    (hbelow : ∀ find, below = some find →
      ∀ entity paths scope, find entity paths scope ≠ .error err) {t : Table} {scope : Scope}
    {request : String × List (Option String)} :
    gain below d t scope request ≠ .error err := by
  unfold gain
  split
  · nofun
  · split
    · split
      · nofun
      · split
        · exact herr.error_ne id
        · split
          · nofun
          · exact Outcome.map_ne_error (hbelow _ rfl _ _ _)
    · nofun

theorem select_ne_error (h : c.Lacks err) (depth : Nat) (entity : String) (paths : List String)
    (scope : Scope) : c.select depth entity paths scope ≠ .error err := by
  have hlevel : ∀ below : Option SelectionFinder,
      (∀ find, below = some find → ∀ entity paths scope, find entity paths scope ≠ .error err) →
      ∀ entity paths scope, c.selectLevel below entity paths scope ≠ .error err := by
    intro below hbelow entity paths scope
    refine Outcome.bind_ne_error (get_ne_error h.undeclared _) fun d hget => ?_
    refine Outcome.bind_ne_error ?_ fun t _ => ?_
    · rw [← table_of_get hget]
      exact h.table entity .selectable
    · exact Outcome.foldlM_ne_error fun _ _ =>
        Outcome.map_ne_error (gain_ne_error h.undeclared hbelow)
  induction depth generalizing entity paths scope with
  | zero => exact hlevel none nofun entity paths scope
  | succ depth ih =>
    refine hlevel _ (fun find hfind => ?_) entity paths scope
    cases hfind
    exact ih

end Catalog

/-! ## Filters -/

/-- Values are refused by filters with an error of their own. -/
theorem Mode.predicate_ne_error (herr : err.Undeclared) {column key : String} {settings : Settings}
    {v : Value} (mode : Mode) : mode.predicate column key settings v ≠ .error err := by
  cases mode with
  | flag =>
    rw [predicate]
    unfold flagPredicate?
    split
    · nofun
    · split
      · nofun
      · split
        · nofun
        · split
          · exact herr.error_ne id
          · nofun
  | date op =>
    rw [predicate]
    unfold datePredicate?
    split
    · nofun
    · split
      · nofun
      · split
        · nofun
        · exact herr.error_ne id
  | default | plain | custom _ | among | text | number | point | relation => nofun

namespace CompiledFilter

variable {f : CompiledFilter} {settings : Settings} {v : Value}

/-- A filter whose hooks do not end with an error by themselves. -/
def Spares (err : Error) : CompiledFilter → Prop
  | .column _ _ _ _ | .related _ _ _ => True
  | .hook _ _ _ scope run => ∀ v, (run scope v).Spares err
  | .relatedWhere _ _ _ child => child.Spares err

theorem spares_columnFilter (h : d.hooks.Spare err) (key : FilterKey) (a : String)
    (entry : Entry) : (Registry.columnFilter d key a entry).Spares err := by
  unfold Registry.columnFilter
  dsimp only
  split
  · rename_i m hook hmode
    obtain ⟨m', -, hmode⟩ := Option.bind_eq_some_iff.1 hmode
    split at hmode
    · obtain ⟨hook', hhook, heq⟩ := Option.map_eq_some_iff.1 hmode
      cases heq
      exact fun v => h.modes _ _ hhook _ v
    · cases hmode
  · rename_i hook _ hfilter
    split at hfilter
    · exact fun v => h.filters _ _ hfilter _ v
    · exact fun v => h.filters _ _ hfilter _ v
    · cases hfilter
  · trivial

theorem Of.spares (h : Of c d f) (hhooks : c.Spare err) (hd : ∃ name, c.find? name = some d) :
    f.Spares err := by
  induction h with
  | column ht hentry hmode =>
    obtain ⟨name, hfind⟩ := hd
    exact spares_columnFilter (hhooks name _ hfind) _ _ _
  | related hlink => trivial
  | relatedWhere hlink hchild ih => exact ih hlink.find?

theorem applyAlone_ne_error (herr : err.Undeclared) (h : f.Spares err) :
    f.applyAlone settings v ≠ .error err := by
  induction f with
  | column entity key mode col => exact mode.predicate_ne_error herr
  | hook entity key name scope run => exact (h v).alone_ne
  | related entity key link => nofun
  | relatedWhere entity key link child ih => exact Outcome.map_ne_error (ih h)

theorem spares_apply {root : Definition} {J : Joins → Prop} (herr : err.Undeclared)
    (hpaths : ∀ path, Work.Spares J err (leftJoin c root path)) (h : f.Spares err) :
    Work.Spares J err (f.apply c root settings v) := by
  have hne : f.applyAlone settings v ≠ .error err := applyAlone_ne_error herr h
  cases f with
  | hook entity key name scope run => exact Joining.spares_run hpaths (h v)
  | column entity key mode col | related entity key link | relatedWhere entity key link child =>
    exact Work.spares_of hne

end CompiledFilter

/-! ## Sorting -/

namespace Registry

theorem Answers.spares {α : Type} {m : RegistryM α} {x : Except Error α} (h : Answers c m x)
    (hx : x ≠ .error err) : Work.Spares (Of c) err m where
  keeps := h.keeps
  result r hr := by
    have hresult : (m.run.run r).1 = x := (h r hr.1 hr.2).1
    rw [hresult]
    exact hx

theorem spares_table (h : c.Lacks err) (entity : String) (kind : Kind) :
    Work.Spares (Of c) err (table entity kind) :=
  (answers_table rfl).spares (h.table entity kind)

theorem spares_sortable? (h : c.Lacks err) (entity : String) :
    Work.Spares (Of c) err (sortable? entity) := by
  refine Work.spares_tryCatch ((spares_table h entity .sortable).bind fun t => Work.spares_pure _)
    fun err' hne => ?_
  split
  · exact Work.spares_pure _
  · exact Work.spares_of fun heq => hne (Except.error.inj heq)

end Registry

namespace SortM

variable {R : Registry → Prop} {J : Joins → Prop} {α : Type}

theorem spares_ofRegistry {m : RegistryM α} (h : Work.Spares R err m) :
    Work.Spares (Both R J) err (ofRegistry m) :=
  h.on (fun _ hs => hs.1) fun _ _ hs hr => ⟨hr, hs.2⟩

theorem spares_ofJoins {m : Catalog → JoinM α} (h : ∀ r, R r → Work.Spares J err (m r.catalog)) :
    Work.Spares (Both R J) err (ofJoins m) := by
  refine Work.spares_bind Work.spares_get fun s a hs ha => ?_
  cases ha
  exact (h s.1 hs.1).on (fun _ ht => ht.2) fun _ _ ht hj => ⟨ht.1, hj⟩

end SortM

namespace Registry

open Joins (Reached)
open SortM (Both)

section Sorting

variable (h : c.Lacks err) (hd : c.find? d.name = some d) (hhooks : c.Spare err)
include h hd hhooks

theorem spares_ofJoins_leftJoin (path : String) : Work.Spares (Both (Of c) (Reached c d)) err
    (SortM.ofJoins fun c => leftJoin c d path) :=
  SortM.spares_ofJoins fun _ hr => hr.1 ▸ Joins.spares_leftJoin h.undeclared hd hhooks path

theorem spares_sortToken (t : Table) (scope : Scope) (token : String) :
    Work.Spares (Both (Of c) (Reached c d)) err (sortToken d t scope token) := by
  unfold sortToken
  dsimp only
  split
  · split
    · -- an alias, or the hook of its key
      unfold sortAlias
      dsimp only
      split
      · exact Work.spares_pure _
      · rename_i hook hhook
        exact SortM.spares_ofJoins fun r hr => hr.1 ▸ Joining.spares_run
          (Joins.spares_leftJoin h.undeclared hd hhooks) ((hhooks _ _ hd).sorts _ hook hhook _ _)
    · -- a path
      unfold sortJoined
      split
      · exact Work.spares_pure _
      · refine (spares_ofJoins_leftJoin h hd hhooks _).bind fun joined => ?_
        split
        · exact Work.spares_pure _
        · refine (SortM.spares_ofRegistry ((spares_sortable? h _).bind fun t =>
            Work.spares_pure _)).bind fun column => ?_
          split
          · exact Work.spares_pure _
          · exact Work.spares_pure _
  · exact Work.spares_pure _

theorem spares_sort (tokens : List String) (scope : Scope) :
    Work.Spares (Both (Of c) (Reached c d)) err (sort d tokens scope) := by
  have htokens : ∀ t tokens, Work.Spares (Both (Of c) (Reached c d)) err
      (sortTokens d t scope tokens) := by
    intro t tokens
    induction tokens with
    | nil => exact Work.spares_pure _
    | cons token tokens ih =>
      exact (spares_sortToken h hd hhooks t scope token).bind fun _ =>
        ih.bind fun _ => Work.spares_pure _
  exact (SortM.spares_ofRegistry (spares_table h d.name .sortable)).bind fun t => htokens t _

end Sorting

end Registry

/-! ## Calls -/

namespace PatternTree

variable (herr : err.Undeclared)
include herr

theorem compileSegment_ne_error (path segment : String) :
    compileSegment path segment ≠ .error err := by
  unfold compileSegment
  split
  · nofun
  · exact herr.error_ne id

omit herr in
theorem change_ne_error {segment : String} {fresh : Except Error PatternNode}
    {f : PatternNode → Except Error PatternNode} (hfresh : fresh ≠ .error err)
    (hf : ∀ n, f n ≠ .error err) (t : PatternTree) : change segment fresh f t ≠ .error err := by
  induction t with
  | nil =>
    exact Outcome.bind_ne_error hfresh fun n _ => Outcome.bind_ne_error (hf n) fun _ _ => nofun
  | cons n ns ih =>
    rw [change]
    split
    · exact Outcome.map_ne_error (hf n)
    · exact Outcome.map_ne_error ih

theorem insert_ne_error (path : String) (segments : List String) (t : PatternTree) :
    insert path segments t ≠ .error err := by
  have hfresh : ∀ {α} {f : Glob → α} segment, (compileSegment path segment).map f ≠ .error err :=
    fun segment => Outcome.map_ne_error (compileSegment_ne_error herr path segment)
  induction segments generalizing t with
  | nil => nofun
  | cons segment rest ih =>
    cases rest with
    | nil => exact change_ne_error (f := fun n => .ok (.stop n.glob)) (hfresh _) (fun _ => nofun) t
    | cons next rest =>
      refine change_ne_error (hfresh _) (fun n => ?_) t
      cases n with
      | stop g => nofun
      | more g below => exact Outcome.map_ne_error (ih below)

/-- Patterns are refused with an error of their own. -/
theorem parse_ne_error (patterns : List String) : parse patterns ≠ .error err :=
  Outcome.foldlM_ne_error fun t path => insert_ne_error herr path _ t

end PatternTree

namespace Planner

open Joins (Reached)
open SortM (Both)

variable {α : Type} {J : Joins → Prop}

theorem spares_ofRegistry {m : RegistryM α} (h : Work.Spares (Registry.Of c) err m) :
    Work.Spares (WithJoins c d J) err (PlannerM.ofRegistry m) :=
  h.on (fun _ hs => hs.registry) fun _ _ hs hr => ⟨hr, hs.entity, hs.joins⟩

theorem spares_ofSort {m : SortM α} (h : Work.Spares (Both (Registry.Of c) J) err m) :
    Work.Spares (WithJoins c d J) err (PlannerM.ofSort m) :=
  h.on (fun _ hs => ⟨hs.registry, hs.joins⟩) fun _ _ hs ht => ⟨ht.1, hs.entity, ht.2⟩

theorem spares_update {f : Planner → Planner} (hentity : ∀ p, (f p).entity = p.entity)
    (hjoins : ∀ p, (f p).joins = p.joins) :
    Work.Spares (WithJoins c d J) err (PlannerM.update f) where
  keeps := withJoins_update hentity hjoins
  result _ _ := nofun

/-- Work that looks at the planner sees its entity. -/
theorem spares_current_bind {g : Planner → PlannerM α}
    (h : ∀ p, p.entity = d → Work.Spares (WithJoins c d J) err (g p)) :
    Work.Spares (WithJoins c d J) err (current >>= g) := by
  refine Work.spares_bind (Work.spares_get.bind fun _ => Work.spares_pure _) fun s p hs hp => ?_
  cases hp
  exact h s.2 hs.entity

section Calls

variable (h : c.Lacks err) (hc : c.Named) (hd : c.find? d.name = some d) (hhooks : c.Spare err)

section
include h

theorem spares_isFilter (name : String) :
    Work.Spares (WithJoins c d J) err (isFilter name) := by
  refine spares_current_bind fun p _ => ?_
  split
  · refine spares_current_bind fun p _ => ?_
    dsimp only
    split
    · exact Work.spares_pure _
    · exact (spares_ofRegistry (Registry.spares_table h _ _)).bind fun _ => Work.spares_pure _
  · exact Work.spares_pure _

theorem spares_selectScoped (paths : List String) (scope : Scope) :
    Work.Spares (WithJoins c d J) err (selectScoped paths scope) := by
  refine spares_current_bind fun p _ => ?_
  refine (spares_ofRegistry ((Registry.answers_select _ _ _ _).spares
    (Catalog.select_ne_error h _ _ _ _))).bind fun selection => ?_
  exact spares_update (fun _ => rfl) fun _ => rfl

theorem spares_page (request : PageRequest) :
    Work.Spares (WithJoins c d J) err (page request) := by
  refine spares_current_bind fun p _ => ?_
  refine (Work.spares_of ?_).bind fun _ => spares_update (fun _ => rfl) fun _ => rfl
  unfold PageRequest.window
  split
  · split
    · nofun
    · exact h.undeclared.error_ne id
  · nofun

end

section
include h hd hhooks

theorem spares_sortScoped (tokens : List String) (scope : Scope) :
    Work.Spares (WithJoins c d (Reached c d)) err (sortScoped tokens scope) := by
  refine spares_current_bind fun p hp => ?_
  rw [hp]
  split
  · exact Work.spares_pure _
  · exact (spares_ofSort (Registry.spares_sort h hd hhooks _ scope)).bind fun _ =>
      spares_update (fun _ => rfl) fun _ => rfl

theorem spares_join (path : String) :
    Work.Spares (WithJoins c d (Reached c d)) err (join path) := by
  refine spares_current_bind fun p hp => ?_
  rw [hp]
  exact spares_ofSort (Registry.spares_ofJoins_leftJoin h hd hhooks path)

include hc

theorem spares_branchPredicate (key : String) (v : Value) :
    Work.Spares (WithJoins c d (Reached c d)) err (branchPredicate key v) := by
  refine spares_current_bind fun p hp => ?_
  rw [hp]
  have hanswers : Registry.Answers c (Registry.filter d.name (FilterKey.parse key))
      (c.filter d.name (FilterKey.parse key)) :=
    Registry.answers_filter hc (FilterKey.divided_parse key)
  refine Work.spares_bind (spares_ofRegistry (hanswers.spares (Catalog.filter_ne_error h _)))
    fun s f? hs hf? => ?_
  have hfilter : c.filter d.name (FilterKey.parse key) = .ok f? :=
    (hanswers s.1 hs.registry.1 hs.registry.2).1.symm.trans hf?
  split
  · exact Work.spares_pure _
  · rename_i f
    have hspares : f.Spares err := (Catalog.of_filter hc hd hfilter).spares hhooks ⟨_, hd⟩
    refine spares_ofSort (SortM.spares_ofJoins fun r hr => ?_)
    rw [hr.1]
    exact CompiledFilter.spares_apply h.undeclared
      (Joins.spares_leftJoin h.undeclared hd hhooks) hspares

theorem spares_branchPredicates (v : Value) (keys : List String) :
    Work.Spares (WithJoins c d (Reached c d)) err (branchPredicates v keys) := by
  induction keys with
  | nil => exact Work.spares_pure _
  | cons key keys ih =>
    exact (spares_branchPredicate h hc hd hhooks key v).bind fun _ =>
      ih.bind fun _ => Work.spares_pure _

theorem spares_filterKey (key : String) (v : Value) :
    Work.Spares (WithJoins c d (Reached c d)) err (filterKey key v) := by
  unfold filterKey
  split
  · exact Work.spares_pure _
  · refine (spares_branchPredicates h hc hd hhooks v _).bind fun predicates => ?_
    split
    · exact Work.spares_pure _
    · exact spares_update (fun _ => rfl) fun _ => rfl

theorem spares_filterRequested (es : List (String × Value)) :
    Work.Spares (WithJoins c d (Reached c d)) err (filterRequested es) := by
  induction es with
  | nil => exact Work.spares_pure _
  | cons e es ih =>
    refine (spares_isFilter h e.1).bind fun isFilter => ?_
    split
    · exact (spares_filterKey h hc hd hhooks _ _).bind fun _ =>
        ih.bind fun _ => Work.spares_pure _
    · exact ih

theorem spares_filterEntries (es : List (String × Value)) :
    Work.Spares (WithJoins c d (Reached c d)) err (filterEntries es) := by
  induction es with
  | nil => exact Work.spares_pure _
  | cons e es ih => exact (spares_filterKey h hc hd hhooks _ _).bind fun _ => ih

theorem spares_filter (ps : Params) :
    Work.Spares (WithJoins c d (Reached c d)) err (filter ps) := by
  refine (spares_filterRequested h hc hd hhooks _).bind fun any => ?_
  split
  · exact Work.spares_pure _
  · exact spares_current_bind fun _ _ => spares_filterEntries h hc hd hhooks _

/-- **No call fails with an error of a kind that is not declared**, when no table has this error
and no hook ends with it. -/
theorem spares_work (call : Call) :
    Work.Spares (WithJoins c d (Reached c d)) err call.work := by
  have hparse := PatternTree.parse_ne_error h.undeclared
  cases call with
  | filter ps => exact spares_filter h hc hd hhooks ps
  | filterKey key v => exact spares_filterKey h hc hd hhooks key v
  | select paths => exact spares_selectScoped h paths .all
  | selectScoped paths scope => exact spares_selectScoped h paths scope
  | selectOnly patterns | selectExcept patterns =>
    exact (Work.spares_of (Outcome.map_ne_error (hparse patterns))).bind fun scope =>
      spares_selectScoped h [] scope
  | unselect patterns =>
    exact (Work.spares_of (hparse patterns)).bind fun _ =>
      spares_update (fun _ => rfl) fun _ => rfl
  | sort tokens => exact spares_sortScoped h hd hhooks tokens .all
  | sortScoped tokens scope => exact spares_sortScoped h hd hhooks tokens scope
  | join path => exact (spares_join h hd hhooks path).bind fun _ => Work.spares_pure _
  | paginate number size | skipTake skip size => exact spares_page h _
  | paginateBy ps => exact spares_current_bind fun _ _ => spares_page h _
  | setDefaultFilter ps =>
    exact spares_update (f := fun p => { p with defaultFilter := ps }) (fun _ => rfl)
      fun _ => rfl
  | setDefaultSelect paths =>
    exact spares_update (f := fun p => { p with defaultSelect := paths }) (fun _ => rfl)
      fun _ => rfl
  | setDefaultSort tokens =>
    exact spares_update (f := fun p => { p with defaultSort := tokens }) (fun _ => rfl)
      fun _ => rfl
  | apply ps =>
    refine spares_current_bind fun p _ => (spares_filter h hc hd hhooks ps).bind fun _ => ?_
    refine (spares_selectScoped h _ .all).bind fun _ => ?_
    refine (spares_sortScoped h hd hhooks _ .all).bind fun _ => ?_
    exact spares_current_bind fun _ _ => spares_page h _

end
end Calls

end Planner
end RequestPlan
