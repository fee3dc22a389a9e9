import RequestPlan.Proofs.Planner.Calls
import RequestPlan.Proofs.Registry.Reads

/-!
# Uses of a registry

* `Use`: an operation on a registry, or what a planner does with it, and `Registry.usedBy`: the
  registry behind several uses.
* `Registry.Lasting`: a property that tables, filters and registrations keep. `Lasting.usedBy`: it
  holds behind any uses.
* `sound_usedBy`: **whatever is done with it, a registry is sound**.
-/

namespace RequestPlan

/-- A use of a registry: an operation, a call of a planner, or the plan of one. -/
inductive Use where
  | operation (op : Registry.Operation)
  | call (p : Planner) (asked : Planner.Call)
  | build (p : Planner)

/-- The registry behind a use, whether it succeeds or not. -/
def Use.behind (r : Registry) : Use → Registry
  | .operation op => Registry.perform r op
  | .call p asked => (Planner.perform (r, p) asked).1
  | .build p => Registry.behind r p.build

/-- Everything that is kept is forgotten. -/
def Use.Clears (use : Use) : Prop := use = .operation .clear

/-- An entity is to be registered. -/
def Use.Registers (use : Use) : Prop := ∃ d, use = .operation (.register d)

namespace Registry

/-- The registry behind several uses. -/
def usedBy (r : Registry) (uses : List Use) : Registry := uses.foldl Use.behind r

/-- A property that tables, filters and registrations keep, whether they succeed or not. -/
structure Lasting (R : Registry → Prop) : Prop where
  table : ∀ entity kind, Work.Keeps R (table entity kind)
  filter : ∀ entity key, key.Divided → Work.Keeps R (filter entity key)
  register : ∀ d, Work.Keeps R (register d)

section Lasting

variable {R : Registry → Prop} {find : FilterFinder} {key : FilterKey}

/-- A filter that is made anew keeps what tables and the filters on related rows keep. -/
theorem keeps_compileBy (htable : ∀ entity kind, Work.Keeps R (Registry.table entity kind))
    (hfind : ∀ entity, Work.Keeps R (find entity key.tail)) (entity : String) :
    Work.Keeps R (compileBy find entity key) := by
  unfold compileBy
  split
  · exact Work.keeps_pure none
  · refine ((reads_definition entity).keeps htable).bind fun d => (htable _ _).bind fun t => ?_
    split
    · exact Work.keeps_pure none
    · split
      · refine ((reads_filterLink d _).keeps htable).bind fun p => ?_
        split
        split
        · exact Work.keeps_pure _
        · exact (hfind _).bind fun child => Work.keeps_pure _
      · exact Work.keeps_pure _

end Lasting

end Registry

namespace Planner

variable {R : Registry → Prop}

/-- What tables keep is kept by the work of a planner beside its filters. -/
theorem keptBeside_of_table (htable : ∀ entity kind, Work.Keeps R (Registry.table entity kind)) :
    KeptBeside fun s => R s.1 := by
  have hreads : ∀ {α : Type} {m : RegistryM α}, Registry.Reads m →
      Work.Keeps (fun s : Registry × Planner => R s.1) (PlannerM.ofRegistry m) :=
    fun hm => (hm.keeps htable).on (fun _ hs => hs) fun _ _ _ hr => hr
  have hsort : ∀ {α : Type} {m : SortM α}, Work.Keeps (SortM.Both R fun _ => True) m →
      Work.Keeps (fun s : Registry × Planner => R s.1) (PlannerM.ofSort m) :=
    fun hm => hm.on (fun _ hs => ⟨hs, trivial⟩) fun _ _ _ ht => ht.1
  refine ⟨fun entity kind => hreads (.table entity kind), fun paths scope => ?_, fun patterns => ?_,
    fun tokens scope => ?_, fun path => ?_, fun f _ => Work.keeps_modify fun _ hs => hs⟩
  · exact keeps_current.bind fun p => (hreads (Registry.reads_select _ _ _ _)).bind fun _ =>
      Work.keeps_modify fun _ hs => hs
  · exact (Work.keeps_of _).bind fun t => Work.keeps_modify fun _ hs => hs
  · refine keeps_current.bind fun p => ?_
    split
    · exact Work.keeps_pure _
    · exact (hsort ((Registry.made_sort _ _ _).keeps htable fun _ _ _ _ _ => trivial)).bind
        fun _ => Work.keeps_modify fun _ hs => hs
  · exact keeps_current.bind fun p => hsort (SortM.keeps_ofJoins fun _ _ _ _ => trivial)

/-- A filter that is found may ask for joins, which leave the registry alone. -/
theorem keeps_applied (p : Planner) (v : Value) (f : CompiledFilter) :
    Work.Keeps (fun s : Registry × Planner => R s.1)
      (PlannerM.ofSort (SortM.ofJoins fun c => f.apply c p.entity p.settings v)) := by
  have hjoins : Work.Keeps (SortM.Both R fun _ => True)
      (SortM.ofJoins fun c => f.apply c p.entity p.settings v) :=
    SortM.keeps_ofJoins fun _ _ _ _ => trivial
  exact hjoins.on (fun _ hs => ⟨hs, trivial⟩) fun _ _ _ ht => ht.1

/-- What tables and filters keep is kept by all work of a planner. -/
theorem kept_of_filter (htable : ∀ entity kind, Work.Keeps R (Registry.table entity kind))
    (hfilter : ∀ entity key, FilterKey.Divided key → Work.Keeps R (Registry.filter entity key)) :
    Kept fun s => R s.1 := by
  refine ⟨keptBeside_of_table htable, fun key v => ?_⟩
  refine keeps_filterKey_of (fun key => ?_) (fun _ => Work.keeps_modify fun _ hs => hs) key
  refine keeps_current.bind fun p => ?_
  have hkey : Work.Keeps (fun s : Registry × Planner => R s.1)
      (PlannerM.ofRegistry (Registry.filter p.entity.name (FilterKey.parse key))) :=
    (hfilter p.entity.name _ (FilterKey.divided_parse key)).on (fun _ hs => hs) fun _ _ _ hr => hr
  refine hkey.bind fun f? => ?_
  split
  · exact Work.keeps_pure _
  · rename_i f
    exact keeps_applied p v f

theorem reads_build (p : Planner) : Registry.Reads p.build := by
  unfold build
  cases p.selection with
  | none => exact Registry.reads_pure _
  | some s =>
    dsimp only
    rw [bind_map_left]
    exact .bind (Registry.reads_project _ _) fun projection => Registry.reads_pure _

end Planner

namespace Registry

variable {R : Registry → Prop} {r : Registry}

/-- **What lasts holds behind every use**, also one that fails. Only where everything is forgotten,
it has to hold with nothing kept. -/
theorem Lasting.behind (h : Lasting R) {use : Use} (hclear : use.Clears → Work.Keeps R clear)
    (hr : R r) : R (use.behind r) := by
  cases use with
  | call p asked =>
    exact (Planner.kept_of_filter h.table h.filter).work asked (r, p) hr
  | build p => exact (Planner.reads_build p).keeps h.table r hr
  | operation op =>
    cases op with
    | register d => exact h.register d r hr
    | table entity kind => exact h.table entity kind r hr
    | filter entity key => exact h.filter entity _ (FilterKey.divided_parse key) r hr
    | compile entity key =>
      have htail : FilterKey.Divided (FilterKey.parse key).tail :=
        fun part hpart => FilterKey.divided_parse key part (List.mem_of_mem_tail hpart)
      have hfind : ∀ entity, Work.Keeps R (Registry.filter entity (FilterKey.parse key).tail) :=
        fun entity => h.filter entity _ htail
      exact keeps_compileBy h.table hfind entity r hr
    | clear => exact hclear rfl r hr

/-- What lasts holds behind any uses. -/
theorem Lasting.usedBy (h : Lasting R) {uses : List Use}
    (hclear : ∀ use ∈ uses, use.Clears → Work.Keeps R clear) (hr : R r) : R (r.usedBy uses) := by
  induction uses generalizing r with
  | nil => exact hr
  | cons use uses ih =>
    obtain ⟨huse, huses⟩ := List.forall_mem_cons.1 hclear
    exact ih huses (h.behind huse hr)

theorem lasting_sound : Lasting Sound where
  table _ _ r hs := (answers_table rfl r rfl hs).2.2
  filter _ _ hkey r hs := (answers_filter hs.named hkey r rfl hs).2.2
  register d _ hs := hs.register d

theorem keeps_clear_sound : Work.Keeps Sound clear :=
  fun _ hs => sound_of_nothing_kept hs.named rfl rfl

/-- **Whatever is done with it, a registry is sound.** -/
theorem sound_usedBy (hs : r.Sound) (uses : List Use) : (r.usedBy uses).Sound :=
  lasting_sound.usedBy (fun _ _ _ => keeps_clear_sound) hs

/-- Only a registration changes the entities. -/
theorem of_behind (hs : r.Sound) {use : Use} (h : ¬use.Registers) :
    (use.behind r).Of r.catalog := by
  have hof : r.Of r.catalog := ⟨rfl, hs⟩
  cases use with
  | call p asked =>
    have hkept := Planner.kept_of_filter (R := Of r.catalog) keeps_table fun entity key hkey =>
      (answers_filter hs.named hkey).keeps
    exact hkept.work asked (r, p) hof
  | build p => exact (Planner.reads_build p).keeps keeps_table r hof
  | operation op =>
    obtain ⟨hsound, hcatalog⟩ := hs.perform op
    refine ⟨hcatalog.trans ?_, hsound⟩
    cases op with
    | register d => exact absurd ⟨d, rfl⟩ h
    | _ => rfl

/-- No use takes an entity away. -/
theorem extends_behind (hs : r.Sound) (use : Use) : r.catalog.Extends (use.behind r).catalog := by
  by_cases h : use.Registers
  · obtain ⟨d, rfl⟩ := h
    show r.catalog.Extends (behind r (register d)).catalog
    rw [behind_register]
    exact extends_registered r.catalog d
  · rw [(of_behind hs h).1]
    exact fun _ _ hfind => hfind

theorem catalog_usedBy (hs : r.Sound) {uses : List Use} (h : ∀ use ∈ uses, ¬use.Registers) :
    (r.usedBy uses).catalog = r.catalog := by
  induction uses generalizing r with
  | nil => rfl
  | cons use uses ih =>
    obtain ⟨huse, huses⟩ := List.forall_mem_cons.1 h
    obtain ⟨hcatalog, hsound⟩ := of_behind hs huse
    exact (ih hsound huses).trans hcatalog

theorem sound_empty : empty.Sound := sound_of_nothing_kept Catalog.named_empty rfl rfl

end Registry
end RequestPlan
