import RequestPlan.Proofs.Selection.Tree
import RequestPlan.Proofs.Work
import RequestPlan.Selection.Project

/-!
# Work that reads tables

Canonical keys, selections and projections are found with tables and entities alone: they have
nothing to do with the filters that are kept.

* `Registry.Reads`: what such work is made of, and `Reads.keeps`: it keeps what tables keep.
* `reads_canonical`, `reads_select`, `reads_project`: the work of this kind.
-/

namespace RequestPlan
namespace Registry

/-- Work made of looks at the entities and of tables. -/
inductive Reads : {α : Type} → RegistryM α → Prop
  | of {α : Type} (x : Except Error α) : Reads (Work.of x)
  | bind {α β : Type} {m : RegistryM α} {f : α → RegistryM β} (hm : Reads m)
      (hf : ∀ a, Reads (f a)) : Reads (m >>= f)
  | entities {α : Type} {f : Catalog → RegistryM α} (hf : ∀ c, Reads (f c)) :
      Reads (get >>= fun r => f r.catalog)
  | table (entity : String) (kind : Kind) : Reads (table entity kind)

/-- **What tables keep is kept by all work that reads them.** -/
theorem Reads.keeps {R : Registry → Prop} {α : Type} {m : RegistryM α} (h : Reads m)
    (hR : ∀ entity kind, Work.Keeps R (Registry.table entity kind)) : Work.Keeps R m := by
  induction h with
  | of x => exact Work.keeps_of x
  | bind _ _ ihm ihf => exact ihm.bind ihf
  | entities _ ih => exact Work.keeps_get.bind fun r => ih r.catalog
  | table entity kind => exact hR entity kind

theorem reads_pure {α : Type} (a : α) : Reads (pure a) := .of (.ok a)

theorem reads_definition (name : String) : Reads (definition name) :=
  .entities fun c => .of (c.get name)

theorem reads_foldlM {α β : Type} {f : β → α → RegistryM β} (h : ∀ b a, Reads (f b a))
    (as : List α) (b : β) : Reads (as.foldlM f b) := by
  induction as generalizing b with
  | nil => exact reads_pure b
  | cons a as ih => exact .bind (h b a) ih

/-! ## Filters -/

theorem reads_canonical (entity : String) (key : FilterKey) : Reads (canonical entity key) := by
  induction key generalizing entity with
  | nil => exact reads_pure none
  | cons aliasName rest ih =>
    refine .bind (.table entity .filterable) fun t => ?_
    split
    · exact reads_pure none
    · split
      · exact reads_pure _
      · refine .bind (reads_definition entity) fun d => ?_
        split
        · exact reads_pure _
        · rename_i entry _ r _
          refine Reads.entities (f := fun c => if r.kind = .manyToMany ∨ c.contains r.related = false
            then return some (aliasName :: rest)
            else return (← canonical r.related rest).map (aliasName :: ·)) fun c => ?_
          split
          · exact reads_pure _
          · exact .bind (ih r.related) fun k => reads_pure _

theorem reads_filterLink (d : Definition) (key : String) : Reads (filterLink d key) := by
  unfold filterLink
  split
  · exact .of (.error _)
  · dsimp only
    split
    · exact .of (.error _)
    · refine .bind (reads_definition _) fun related => ?_
      split
      · exact .of (.error _)
      · exact reads_pure _

/-! ## Selections -/

theorem reads_selectAlias {below : Option (String → List String → Scope → RegistryM Selection)}
    (hbelow : ∀ find, below = some find → ∀ name paths scope, Reads (find name paths scope))
    (d : Definition) (t : Table) (scope : Scope) (s : Selection)
    (request : String × List (Option String)) : Reads (selectAlias below d t scope s request) := by
  unfold selectAlias
  dsimp only
  split
  · exact reads_pure s
  · split
    · exact reads_pure s
    · split
      · exact reads_pure _
      · split
        · exact .of (.error _)
        · split
          · exact reads_pure s
          · exact .bind (hbelow _ rfl _ _ _) fun child => reads_pure _

theorem reads_selectLevel {below : Option (String → List String → Scope → RegistryM Selection)}
    (hbelow : ∀ find, below = some find → ∀ name paths scope, Reads (find name paths scope))
    (entity : String) (paths : List String) (scope : Scope) :
    Reads (selectLevel below entity paths scope) :=
  .bind (reads_definition entity) fun d => .bind (.table entity .selectable) fun t =>
    reads_foldlM (fun s request => reads_selectAlias hbelow d t scope s request) _ _

theorem reads_select (depth : Nat) (entity : String) (paths : List String) (scope : Scope) :
    Reads (select depth entity paths scope) := by
  induction depth generalizing entity paths scope with
  | zero => exact reads_selectLevel (fun find hnone => by cases hnone) entity paths scope
  | succ depth ih =>
    refine reads_selectLevel (fun find hsome name paths scope => ?_) entity paths scope
    cases hsome
    exact ih name paths scope

theorem reads_project (entity : String) (s : Selection) : Reads (project entity s) := by
  induction s using Selection.induct generalizing entity with
  | level columns relations ih =>
    have hbelow : ∀ d t p, Reads (projectBelow d t p relations) := by
      intro d t
      induction relations with
      | nil => exact fun p => reads_pure p
      | cons e es ihes =>
        intro p
        obtain ⟨a, s⟩ := e
        have hrest := ihes fun e he => ih e (List.mem_cons_of_mem _ he)
        rw [projectBelow]
        split
        · exact hrest p
        · refine .bind (reads_definition _) fun related => ?_
          split
          · exact .of (.error _)
          · exact .bind (ih (a, s) List.mem_cons_self related.name) fun child => hrest _
    exact .bind (reads_definition entity) fun d => .bind (.table entity .selectable) fun t =>
      .bind (.of _) fun p => hbelow d t p

end Registry
end RequestPlan
