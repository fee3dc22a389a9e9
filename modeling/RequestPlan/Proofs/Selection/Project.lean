import RequestPlan.Proofs.Projection
import RequestPlan.Proofs.Selection.Aliases
import RequestPlan.Proofs.Selection.Tree
import RequestPlan.Selection.Project

/-!
# What projections hold

* `Catalog.project`: the projection that a catalog has for a selection, and `answers_project`:
  it is the one that a registry answers.
* `Catalog.Brings`: what a relation alias of a selection loads.
* `at_columns_iff`: **the columns behind some names** are those selected there, and the keys of
  the relations on both sides.
-/

namespace RequestPlan

/-! ## Projections without a cache -/

namespace Catalog

open Registry (projectColumns keyColumns selectColumn)

mutual

/-- The projection of a selection on an entity. -/
def project (c : Catalog) (entity : String) : Selection → Except Error Projection
  | ⟨columns, relations⟩ =>
    (c.get entity).bind fun d =>
      (Table.of d.toEntity .selectable).bind fun t =>
        (projectColumns d t columns).bind fun p => projectBelow c d t p relations

/-- The projection of an entity with those of selections below its relations. -/
def projectBelow (c : Catalog) (d : Definition) (t : Table) (p : Projection) :
    List (String × Selection) → Except Error Projection
  | [] => .ok p
  | (aliasName, selection) :: rest =>
    match (t.find? aliasName).bind fun e => d.relation? e.key with
    | none => projectBelow c d t p rest
    | some r =>
      (c.get r.related).bind fun related =>
        match r.link? d.toEntity related.toEntity with
        | none => .error (.unsupportedRelation d.name r.name .select)
        | some link =>
          (project c related.name selection).bind fun child =>
            projectBelow c d t (p.load ⟨link, keyColumns (r.parentKeys d.toEntity),
              keyColumns (r.childKeys related.toEntity), child⟩) rest

end

end Catalog

namespace Registry

variable {c : Catalog}

/-- **The projection of a selection is what the catalog says**, whatever is kept. -/
theorem answers_project (entity : String) (s : Selection) :
    Answers c (project entity s) (c.project entity s) := by
  induction s using Selection.induct generalizing entity with
  | level columns relations ih =>
    have hbelow : ∀ (d : Definition) (t : Table) (p : Projection),
        Answers c (projectBelow d t p relations) (c.projectBelow d t p relations) := by
      intro d t
      induction relations with
      | nil => exact fun p => answers_pure p
      | cons e es ihes =>
        intro p
        obtain ⟨a, s⟩ := e
        have hrest := ihes fun e he => ih e (List.mem_cons_of_mem _ he)
        rw [projectBelow, Catalog.projectBelow]
        cases (t.find? a).bind fun e => d.relation? e.key with
        | none => exact hrest p
        | some r =>
          refine (answers_definition rfl).andThen fun related _ => ?_
          cases r.link? d.toEntity related.toEntity with
          | none => exact answers_of (.error _)
          | some link => exact (ih (a, s) List.mem_cons_self related.name).andThen fun _ _ => hrest _
    rw [project, Catalog.project]
    refine (answers_definition rfl).andThen fun d hget => ?_
    refine (answers_table (Catalog.table_of_get hget)).andThen fun t _ => ?_
    exact (answers_of _).andThen fun p _ => hbelow d t p

/-- Without hooks a column is selected under its alias. -/
theorem selectColumn_eq_ok_iff {d : Definition} (h : d.hooks.selects = ∅)
    {a key : String} {col : Column} :
    selectColumn d a key = .ok col ↔ col = .stored (d.column key) (some a) := by
  unfold selectColumn
  rw [h, Dict.find?_empty]
  simp [eq_comm]

end Registry

/-! ## Links -/

namespace Relation

variable {r : Relation} {parent related : Entity} {link : Link} {m : Morph}

theorem name_of_link? (h : r.link? parent related = some link) : link.name = r.name := by
  unfold link? at h
  dsimp only at h
  split at h <;> cases h <;> rfl

/-- **Both sides of a relation select the columns of its link.** The column that tells entities
apart is on the side of the foreign key. -/
theorem keys_of_link? (h : r.link? parent related = some link) :
    link.parentColumn ∈ r.parentKeys parent ∧ link.relatedColumn ∈ r.childKeys related ∧
      ∀ m, link.morph = some m →
        r.kind = .morphOwning ∧ m.column ∈ r.parentKeys parent ∨
          r.kind = .morphOwned ∧ m.column ∈ r.childKeys related := by
  unfold link? at h
  dsimp only at h
  unfold parentKeys childKeys
  split at h
  · cases h
  all_goals
    rename_i hkind
    cases h
    simp only [hkind]
    cases r.morphType <;> simp

end Relation

/-! ## What a level loads -/

namespace Catalog

open Registry (projectColumns keyColumns selectColumn)

variable {c : Catalog} {d related d' : Definition} {t : Table} {p p₀ : Projection}
  {s s' : Selection} {entity name : String} {names : List String} {col : Column} {r : Relation}
  {e : String × Selection} {relations : List (String × Selection)} {l : Projection.Load}

/-- What a relation in a selection loads. -/
structure Brings (c : Catalog) (d : Definition) (e : String × Selection) (r : Relation)
    (related : Definition) (l : Projection.Load) : Prop where
  relates : c.Relates d e.1 r related
  link : r.link? d.toEntity related.toEntity = some l.link
  child : c.project related.name e.2 = .ok l.child
  parentKeys : l.parentKeys = keyColumns (r.parentKeys d.toEntity)
  childKeys : l.childKeys = keyColumns (r.childKeys related.toEntity)

theorem relates_iff {a : String} (ht : Table.of d.toEntity .selectable = .ok t) :
    c.Relates d a r related ↔
      ((t.find? a).bind fun e => d.relation? e.key) = some r ∧
        c.find? r.related = some related := by
  refine and_congr_left' ?_
  rw [Entity.selectKey?_of_table ht]
  cases t.find? a <;> simp

/-- The relations of a selection are loaded one after the other. -/
theorem exists_loads (ht : Table.of d.toEntity .selectable = .ok t)
    (h : c.projectBelow d t p₀ relations = .ok p) :
    ∃ ls, p = p₀.loadAll ls ∧
      (∀ l ∈ ls, ∃ e ∈ relations, ∃ r related, c.Brings d e r related l) ∧
      ∀ e ∈ relations, ∀ r related, c.Relates d e.1 r related →
        ∃ l ∈ ls, c.Brings d e r related l := by
  induction relations generalizing p₀ with
  | nil =>
    cases h
    exact ⟨[], rfl, fun _ hl => absurd hl List.not_mem_nil,
      fun _ he => absurd he List.not_mem_nil⟩
  | cons e es ih =>
    obtain ⟨a, s⟩ := e
    rw [projectBelow] at h
    split at h
    · rename_i hnone
      obtain ⟨ls, rfl, hls, hes⟩ := ih h
      refine ⟨ls, rfl, ?_, ?_⟩
      · intro l hl
        obtain ⟨e, he, hbrings⟩ := hls l hl
        exact ⟨e, List.mem_cons_of_mem _ he, hbrings⟩
      · refine List.forall_mem_cons.2 ⟨fun r related hr => ?_, hes⟩
        rw [relates_iff ht, hnone] at hr
        cases hr.1
    · rename_i r hr
      obtain ⟨related, hget, h⟩ := Outcome.bind_eq_ok.1 h
      split at h
      · cases h
      · rename_i link hlink
        obtain ⟨child, hchild, h⟩ := Outcome.bind_eq_ok.1 h
        obtain ⟨ls, rfl, hls, hes⟩ := ih h
        have hrelates : c.Relates d a r related := (relates_iff ht).2 ⟨hr, get_eq_ok_iff.1 hget⟩
        let l : Projection.Load := ⟨link, keyColumns (r.parentKeys d.toEntity),
          keyColumns (r.childKeys related.toEntity), child⟩
        have hbrings : c.Brings d (a, s) r related l := ⟨hrelates, hlink, hchild, rfl, rfl⟩
        refine ⟨l :: ls, rfl, ?_, ?_⟩
        · refine List.forall_mem_cons.2 ⟨⟨(a, s), List.mem_cons_self, r, related, hbrings⟩, ?_⟩
          intro l hl
          obtain ⟨e, he, hbrings⟩ := hls l hl
          exact ⟨e, List.mem_cons_of_mem _ he, hbrings⟩
        · refine List.forall_mem_cons.2 ⟨fun r' related' hr' => ?_, ?_⟩
          · obtain ⟨rfl, rfl⟩ := hrelates.unique hr'
            exact ⟨l, List.mem_cons_self, hbrings⟩
          · intro e he r related hr
            obtain ⟨l', hl', hbrings⟩ := hes e he r related hr
            exact ⟨l', List.mem_cons_of_mem _ hl', hbrings⟩

/-- The columns of a level are those of its aliases that may be selected. -/
theorem projectColumns_eq_ok {aliases : List String} (ht : Table.of d.toEntity .selectable = .ok t)
    (h : projectColumns d t aliases = .ok p) :
    p.relations = [] ∧ p.Tidy ∧ ∀ col, col ∈ p.columns ↔
      ∃ a ∈ aliases, ∃ key, d.selectKey? a = some key ∧ selectColumn d a key = .ok col := by
  -- an alias adds its column to those before it
  suffices hfold : p.relations = [] ∧ p.Tidy ∧ ∀ col, col ∈ p.columns ↔
      col ∈ Projection.empty.columns ∨
        ∃ a ∈ aliases, ∃ key, d.selectKey? a = some key ∧ selectColumn d a key = .ok col by
    simpa [Projection.empty] using hfold
  have hnone : Projection.empty.relations = [] := rfl
  have htidy : Projection.empty.Tidy := .empty
  unfold projectColumns at h
  generalize Projection.empty = p₀ at h hnone htidy ⊢
  induction aliases generalizing p₀ with
  | nil =>
    cases h
    exact ⟨hnone, htidy, fun col => by simp⟩
  | cons a aliases ih =>
    obtain ⟨p₁, hstep, hrest⟩ := Outcome.foldlM_cons_eq_ok.1 h
    simp only [List.mem_cons, exists_eq_or_imp, Entity.selectKey?_of_table (a := a) ht]
    split at hstep
    · rename_i hfind
      cases hstep
      simpa [hfind] using ih p₀ hrest hnone htidy
    · rename_i entry hfind
      obtain ⟨col₁, hcol, rfl⟩ := Outcome.map_eq_ok.1 hstep
      obtain ⟨hnone, htidy, hcolumns⟩ := ih (p₀.push col₁) hrest
        ((Projection.relations_push p₀ col₁).trans hnone) (htidy.pushAll [col₁])
      refine ⟨hnone, htidy, fun col => ?_⟩
      rw [hcolumns, Projection.mem_push, or_assoc]
      simp [hfind, hcol, eq_comm]

/-- A level holds the columns of its aliases, and loads its relations. -/
theorem exists_level_of_project (h : c.project entity s = .ok p)
    (hfind : c.find? entity = some d) :
    ∃ (p₀ : Projection) (ls : List Projection.Load), p = p₀.loadAll ls ∧
      p₀.relations = [] ∧ p₀.Tidy ∧
      (∀ col, col ∈ p₀.columns ↔
        ∃ a ∈ s.columns, ∃ key, d.selectKey? a = some key ∧ selectColumn d a key = .ok col) ∧
      (∀ l ∈ ls, ∃ e ∈ s.relations, ∃ r related, c.Brings d e r related l) ∧
      ∀ e ∈ s.relations, ∀ r related, c.Relates d e.1 r related →
        ∃ l ∈ ls, c.Brings d e r related l := by
  obtain ⟨columns, relations⟩ := s
  rw [project] at h
  obtain ⟨d', hget, h⟩ := Outcome.bind_eq_ok.1 h
  rw [get_eq_ok_iff.1 hget] at hfind
  cases hfind
  obtain ⟨t, ht, h⟩ := Outcome.bind_eq_ok.1 h
  obtain ⟨p₀, hcolumns, h⟩ := Outcome.bind_eq_ok.1 h
  obtain ⟨hnone, htidy, hmem⟩ := projectColumns_eq_ok ht hcolumns
  obtain ⟨ls, hp, hls, hes⟩ := exists_loads ht h
  exact ⟨p₀, ls, hp, hnone, htidy, hmem, hls, hes⟩

theorem exists_of_project (h : c.project entity s = .ok p) : ∃ d, c.find? entity = some d := by
  obtain ⟨columns, relations⟩ := s
  rw [project] at h
  obtain ⟨d, hget, -⟩ := Outcome.bind_eq_ok.1 h
  exact ⟨d, get_eq_ok_iff.1 hget⟩

theorem Brings.find? (hc : c.Named) (h : c.Brings d e r related l) :
    c.find? related.name = some related := by
  obtain ⟨-, hfind⟩ := h.relates
  rw [hc _ _ hfind, hfind]

/-- **A projection repeats no column and loads each relation once**, under its link's name. -/
theorem tidy_project (hc : c.Named) (h : c.project entity s = .ok p)
    (hfind : c.find? entity = some d) : p.Tidy := by
  induction s using Selection.induct generalizing entity p d with
  | level columns relations ih =>
    obtain ⟨p₀, ls, rfl, -, htidy, -, hls, -⟩ := exists_level_of_project h hfind
    refine Projection.tidy_loadAll htidy fun l hl => ?_
    obtain ⟨e, he, r, related, hbrings⟩ := hls l hl
    exact ih e he hbrings.child (hbrings.find? hc)

theorem Brings.tidy (hc : c.Named) (h : c.Brings d e r related l) : l.child.Tidy :=
  tidy_project hc h.child (h.find? hc)

/-! ## Levels behind names -/

section At

variable {F : Projection → Prop}

/-- What holds behind a name holds of what a relation of the name loads. -/
theorem exists_brings_of_at (hF : ∀ p q, F (p.merge q) → F p ∨ F q) (hc : c.Named)
    (h : c.project entity s = .ok p) (hfind : c.find? entity = some d)
    (hat : p.At F (name :: names)) :
    ∃ e ∈ s.relations, ∃ r related l,
      c.Brings d e r related l ∧ r.name = name ∧ l.node.At F names := by
  obtain ⟨p₀, ls, rfl, hnone, -, -, hls, -⟩ := exists_level_of_project h hfind
  have htidy : ∀ l ∈ ls, l.child.Tidy := fun l hl =>
    let ⟨_, _, _, _, hbrings⟩ := hls l hl
    hbrings.tidy hc
  rcases Projection.at_of_loadAll hF htidy hat with ⟨q, hq, -⟩ | ⟨l, hl, hname, hat⟩
  · simp [Projection.node?, hnone, Entries.find?] at hq
  · obtain ⟨e, he, r, related, hbrings⟩ := hls l hl
    have hr : r.name = name := (Relation.name_of_link? hbrings.link).symm.trans hname
    exact ⟨e, he, r, related, l, hbrings, hr, hat⟩

/-- What holds of what a relation loads holds behind its name. -/
theorem exists_brings (F : Projection → Prop) (hF : ∀ p q, F p ∨ F q → F (p.merge q))
    (hc : c.Named) (h : c.project entity s = .ok p) (hfind : c.find? entity = some d)
    (he : e ∈ s.relations) (hr : c.Relates d e.1 r related) :
    ∃ l, c.Brings d e r related l ∧ ∀ names, l.node.At F names → p.At F (r.name :: names) := by
  obtain ⟨p₀, ls, rfl, -, -, -, hls, hes⟩ := exists_level_of_project h hfind
  have htidy : ∀ l ∈ ls, l.child.Tidy := fun l hl =>
    let ⟨_, _, _, _, hbrings⟩ := hls l hl
    hbrings.tidy hc
  obtain ⟨l, hl, hbrings⟩ := hes e he r related hr
  refine ⟨l, hbrings, fun names hat => Projection.at_loadAll hF htidy (.inr ⟨l, hl, ?_, hat⟩)⟩
  exact Relation.name_of_link? hbrings.link

end At

/-- **There is a level behind some names exactly when relations of the selection lead there.** -/
theorem at_iff_leads (hc : c.Named) (h : c.project entity s = .ok p)
    (hfind : c.find? entity = some d) :
    p.At (fun _ => True) names ↔ ∃ d' s', c.Leads d s names d' s' := by
  induction names generalizing entity s p d with
  | nil => exact iff_of_true (Projection.at_nil.2 trivial) ⟨d, s, .here⟩
  | cons name names ih =>
    constructor
    · intro hat
      obtain ⟨e, he, r, related, l, hbrings, rfl, hnode⟩ :=
        exists_brings_of_at (fun _ _ => .inl) hc h hfind hat
      obtain ⟨d', s', hleads⟩ :=
        (ih hbrings.child (hbrings.find? hc)).1 ((Projection.at_pushAll fun _ _ _ h => h).1 hnode)
      exact ⟨d', s', .step he hbrings.relates hleads⟩
    · rintro ⟨d', s', hleads⟩
      cases hleads with
      | step he hr hbelow =>
        obtain ⟨l, hbrings, hat⟩ :=
          exists_brings (fun _ => True) (fun _ _ _ => trivial) hc h hfind he hr
        exact hat names ((Projection.at_pushAll fun _ _ _ h => h).2
          ((ih hbrings.child (hbrings.find? hc)).2 ⟨d', s', hbelow⟩))

/-- A relation that is loaded behind some names is one of a level that they lead to. -/
theorem exists_link (hc : c.Named) (h : c.project entity s = .ok p)
    (hfind : c.find? entity = some d) {link : Link}
    (hat : p.At (Projection.Loads name link) names) :
    ∃ d' s', c.Leads d s names d' s' ∧ ∃ e ∈ s'.relations, ∃ r related,
      c.Relates d' e.1 r related ∧ r.link? d'.toEntity related.toEntity = some link := by
  induction names generalizing entity s p d with
  | nil =>
    obtain ⟨p₀, ls, rfl, hnone, -, -, hls, -⟩ := exists_level_of_project h hfind
    rcases Projection.loads_of_loadAll (Projection.at_nil.1 hat) with ⟨child, hmem⟩ | ⟨l, hl, rfl⟩
    · rw [hnone] at hmem
      cases hmem
    · obtain ⟨e, he, r, related, hbrings⟩ := hls l hl
      exact ⟨d, s, .here, e, he, r, related, hbrings.relates, hbrings.link⟩
  | cons name names ih =>
    obtain ⟨e, he, r, related, l, hbrings, rfl, hnode⟩ :=
      exists_brings_of_at (fun _ _ => Projection.loads_or_loads_of_merge) hc h hfind hat
    obtain ⟨d', s', hleads, hlink⟩ :=
      ih hbrings.child (hbrings.find? hc) (Projection.at_loads_pushAll.1 hnode)
    exact ⟨d', s', .step he hbrings.relates hleads, hlink⟩

/-! ## Columns behind names -/

/-- What the level behind some names has to select: its columns, the keys of its relations, and
the keys of the relation that leads there. -/
inductive Needs (c : Catalog) : Definition → Selection → List String → Column → Prop
  | column {d : Definition} {s : Selection} {a key : String} {col : Column} (ha : a ∈ s.columns)
      (hkey : d.selectKey? a = some key) (hcol : selectColumn d a key = .ok col) :
      Needs c d s [] col
  | parentKey {d related : Definition} {s : Selection} {e : String × Selection} {r : Relation}
      {col : Column} (he : e ∈ s.relations) (hr : c.Relates d e.1 r related)
      (hcol : col ∈ keyColumns (r.parentKeys d.toEntity)) : Needs c d s [] col
  | childKey {d related : Definition} {s : Selection} {e : String × Selection} {r : Relation}
      {col : Column} (he : e ∈ s.relations) (hr : c.Relates d e.1 r related)
      (hcol : col ∈ keyColumns (r.childKeys related.toEntity)) : Needs c d s [r.name] col
  | step {d related : Definition} {s : Selection} {e : String × Selection} {r : Relation}
      {names : List String} {col : Column} (he : e ∈ s.relations) (hr : c.Relates d e.1 r related)
      (hbelow : Needs c related e.2 names col) : Needs c d s (r.name :: names) col

/-- **A level selects exactly what it has to.** -/
theorem at_columns_iff (hc : c.Named) (h : c.project entity s = .ok p)
    (hfind : c.find? entity = some d) :
    p.At (fun q => col ∈ q.columns) names ↔ c.Needs d s names col := by
  induction names generalizing entity s p d with
  | nil =>
    obtain ⟨p₀, ls, rfl, -, -, hcolumns, hls, hes⟩ := exists_level_of_project h hfind
    rw [Projection.at_nil, Projection.mem_columns_loadAll, hcolumns]
    constructor
    · rintro (⟨a, ha, key, hkey, hcol⟩ | ⟨l, hl, hcol⟩)
      · exact .column ha hkey hcol
      · obtain ⟨e, he, r, related, hbrings⟩ := hls l hl
        rw [hbrings.parentKeys] at hcol
        exact .parentKey he hbrings.relates hcol
    · intro hneeds
      cases hneeds with
      | column ha hkey hcol => exact .inl ⟨_, ha, _, hkey, hcol⟩
      | parentKey he hr hcol =>
        obtain ⟨l, hl, hbrings⟩ := hes _ he _ _ hr
        exact .inr ⟨l, hl, hbrings.parentKeys ▸ hcol⟩
  | cons name names ih =>
    constructor
    · intro hat
      obtain ⟨e, he, r, related, l, hbrings, rfl, hnode⟩ :=
        exists_brings_of_at (fun _ _ => Projection.mem_columns_merge.1) hc h hfind hat
      rcases Projection.at_columns_pushAll.1 hnode with hnode | ⟨rfl, hcol⟩
      · exact .step he hbrings.relates ((ih hbrings.child (hbrings.find? hc)).1 hnode)
      · exact .childKey he hbrings.relates (hbrings.childKeys ▸ hcol)
    · intro hneeds
      cases hneeds with
      | childKey he hr hcol =>
        obtain ⟨l, hbrings, hat⟩ :=
          exists_brings (fun q => col ∈ q.columns) (fun _ _ => Projection.mem_columns_merge.2)
            hc h hfind he hr
        exact hat [] (Projection.at_columns_pushAll.2 (.inr ⟨rfl, hbrings.childKeys ▸ hcol⟩))
      | step he hr hbelow =>
        obtain ⟨l, hbrings, hat⟩ :=
          exists_brings (fun q => col ∈ q.columns) (fun _ _ => Projection.mem_columns_merge.2)
            hc h hfind he hr
        exact hat names (Projection.at_columns_pushAll.2
          (.inl ((ih hbrings.child (hbrings.find? hc)).2 hbelow)))

/-- What a level has to select is said by the levels of the selection that lead there. -/
theorem needs_iff : c.Needs d s names col ↔
    (∃ d' s', c.Leads d s names d' s' ∧ ∃ a ∈ s'.columns, ∃ key,
      d'.selectKey? a = some key ∧ selectColumn d' a key = .ok col) ∨
    (∃ d' s', c.Leads d s names d' s' ∧ ∃ e ∈ s'.relations, ∃ r related,
      c.Relates d' e.1 r related ∧ col ∈ keyColumns (r.parentKeys d'.toEntity)) ∨
    ∃ before d' s', c.Leads d s before d' s' ∧ ∃ e ∈ s'.relations, ∃ r related,
      c.Relates d' e.1 r related ∧ names = before ++ [r.name] ∧
        col ∈ keyColumns (r.childKeys related.toEntity) := by
  constructor
  · intro h
    induction h with
    | column ha hkey hcol => exact .inl ⟨_, _, .here, _, ha, _, hkey, hcol⟩
    | parentKey he hr hcol => exact .inr (.inl ⟨_, _, .here, _, he, _, _, hr, hcol⟩)
    | childKey he hr hcol => exact .inr (.inr ⟨[], _, _, .here, _, he, _, _, hr, rfl, hcol⟩)
    | step he hr _ ih =>
      rcases ih with ⟨d', s', hleads, h⟩ | ⟨d', s', hleads, h⟩ |
        ⟨before, d', s', hleads, e, hmem, r, related, hr', rfl, hcol⟩
      · exact .inl ⟨d', s', .step he hr hleads, h⟩
      · exact .inr (.inl ⟨d', s', .step he hr hleads, h⟩)
      · exact .inr (.inr ⟨_, d', s', .step he hr hleads, e, hmem, r, related, hr', rfl, hcol⟩)
  · -- what is needed behind a level is needed behind those that lead to it
    have hstep : ∀ {before d' s'}, c.Leads d s before d' s' →
        ∀ {names}, c.Needs d' s' names col → c.Needs d s (before ++ names) col := by
      intro before d' s' hleads
      induction hleads with
      | here => exact id
      | step he hr _ ih => exact fun hneeds => .step he hr (ih hneeds)
    rintro (⟨d', s', hleads, a, ha, key, hkey, hcol⟩ |
      ⟨d', s', hleads, e, he, r, related, hr, hcol⟩ |
      ⟨before, d', s', hleads, e, he, r, related, hr, rfl, hcol⟩)
    · simpa using hstep hleads (.column ha hkey hcol)
    · simpa using hstep hleads (.parentKey he hr hcol)
    · exact hstep hleads (.childKey he hr hcol)

end Catalog

namespace Registry

variable {r : Registry} {entity name : String} {s : Selection} {p parent child : Projection}
  {names : List String} {link : Link}

/-- **Related rows can be put to their parents.** For every relation that a projection loads, at
any depth, the parent selects one column of the link and the related entity the other, and the
column that tells entities apart is selected on the side of the foreign key. So it is whatever
hooks make the other columns, and also for a relation that several aliases name. -/
theorem keys_of_project (hs : r.Sound) (h : r.result (project entity s) = .ok p)
    (hparent : p.node? names = some parent) (hmem : (name, link, child) ∈ parent.relations) :
    ∃ d d' s', r.catalog.find? entity = some d ∧ r.catalog.Leads d s names d' s' ∧
      ∃ e ∈ s'.relations, ∃ rel related, r.catalog.Relates d' e.1 rel related ∧
        rel.link? d'.toEntity related.toEntity = some link ∧ link.name = name ∧
        .stored link.parentColumn none ∈ parent.columns ∧
        .stored link.relatedColumn none ∈ child.columns ∧
        ∀ m, link.morph = some m →
          rel.kind = .morphOwning ∧ .stored m.column none ∈ parent.columns ∨
            rel.kind = .morphOwned ∧ .stored m.column none ∈ child.columns := by
  rw [(answers_project entity s r rfl hs).1] at h
  obtain ⟨d, hfind⟩ := Catalog.exists_of_project h
  have htidy : p.Tidy := Catalog.tidy_project hs.named h hfind
  have hname : link.name = name := (htidy.of_node? hparent).name_eq hmem
  obtain ⟨d', s', hleads, e, he, rel, related, hrelates, hlink⟩ :=
    Catalog.exists_link hs.named h hfind ⟨parent, hparent, child, hmem⟩
  obtain ⟨hparentKey, hchildKey, hmorph⟩ := Relation.keys_of_link? hlink
  -- the keys of the relation are needed, and so they are selected
  have hneeds : ∀ {names node col}, p.node? names = some node →
      r.catalog.Needs d s names col → col ∈ node.columns := by
    intro names node col hnode hneeds
    obtain ⟨q, hq, hcol⟩ := (Catalog.at_columns_iff hs.named h hfind).2 hneeds
    rw [hnode] at hq
    cases hq
    exact hcol
  have hown : ∀ k ∈ rel.parentKeys d'.toEntity, .stored k none ∈ parent.columns := fun k hk =>
    hneeds hparent (Catalog.needs_iff.2 (.inr (.inl
      ⟨d', s', hleads, e, he, rel, related, hrelates, List.mem_map_of_mem hk⟩)))
  have hchild : p.node? (names ++ [rel.name]) = some child := by
    rw [← Relation.name_of_link? hlink, hname]
    exact Projection.node?_of_mem htidy hparent hmem
  have hother : ∀ k ∈ rel.childKeys related.toEntity, .stored k none ∈ child.columns := fun k hk =>
    hneeds hchild (Catalog.needs_iff.2 (.inr (.inr
      ⟨names, d', s', hleads, e, he, rel, related, hrelates, rfl, List.mem_map_of_mem hk⟩)))
  refine ⟨d, d', s', hfind, hleads, e, he, rel, related, hrelates, hlink, hname,
    hown _ hparentKey, hother _ hchildKey, fun m hm => ?_⟩
  exact (hmorph m hm).imp (fun h => ⟨h.1, hown _ h.2⟩) fun h => ⟨h.1, hother _ h.2⟩

/-- Two aliases name the author, and a column of the notes tells what they are on. -/
theorem keys_of_posts :
    let s : Selection := ⟨["title"], [("author", ⟨["name"], []⟩),
      ("notes", ⟨["text"], [("subject", ⟨["title"], []⟩)]⟩), ("writer", ⟨["mail"], []⟩)]⟩
    ∃ p author notes, ofPosts.result (project "Post" s) = .ok p ∧
      p.node? ["author"] = some author ∧ p.node? ["notes"] = some notes ∧
      .stored "posts.author_id" none ∈ p.columns ∧ .stored "users.id" none ∈ author.columns ∧
      .stored "posts.id" none ∈ p.columns ∧ .stored "notes.subject_id" none ∈ notes.columns := by
  intro s
  let toAuthor : Link := ⟨"author", "users", "posts.author_id", "users.id", none⟩
  let toNotes : Link :=
    ⟨"notes", "notes", "posts.id", "notes.subject_id", some ⟨"notes.subject_type", "Post"⟩⟩
  obtain ⟨p, author, notes, hp, hauthor, hnotes, hmemAuthor, hmemNotes⟩ :
      ∃ p author notes, ofPosts.result (project "Post" s) = .ok p ∧
        p.node? ["author"] = some author ∧ p.node? ["notes"] = some notes ∧
        ("author", toAuthor, author) ∈ p.relations ∧ ("notes", toNotes, notes) ∈ p.relations :=
    ⟨_, _, _, by rfl, by rfl, by rfl, List.mem_cons_self, List.mem_cons_of_mem _ List.mem_cons_self⟩
  have hroot : p.node? [] = some p := rfl
  obtain ⟨_, _, _, -, -, _, -, _, _, -, -, -, hparent, hchild, -⟩ :=
    keys_of_project sound_ofPosts hp hroot hmemAuthor
  obtain ⟨_, _, _, -, -, _, -, _, _, -, -, -, hparent', hchild', -⟩ :=
    keys_of_project sound_ofPosts hp hroot hmemNotes
  exact ⟨p, author, notes, hp, hauthor, hnotes, hparent, hchild, hparent', hchild'⟩

end Registry
end RequestPlan
