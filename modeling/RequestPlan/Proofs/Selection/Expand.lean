import RequestPlan.Proofs.Registry.Caches
import RequestPlan.Proofs.Selection.Aliases
import RequestPlan.Proofs.Selection.Requests
import RequestPlan.Proofs.Selection.Tree
import RequestPlan.Proofs.Text

/-!
# What requested paths select

* `Catalog.select`: the selection that a catalog has for requested paths, and
  `answers_select`: it is the one that a registry answers.
* `Catalog.Gains`: what one requested alias brings to the selection of its level.
* `exists_selectLevel_iff`: a level can be selected when every requested alias brings something.
  `selectLevel_iff`: what it then has.
* `at_select_iff`: **what is selected below a relation** is selected there by what goes on behind
  its alias.
* `mem_paths_select`: **a path is selected exactly when it is declared, in scope, not too deep
  and asked for**.
-/

namespace RequestPlan

/-! ## Selections without a cache -/

/-- A way to select paths of an entity. -/
abbrev SelectionFinder := String → List String → Scope → Except Error Selection

namespace Catalog

/-- What a requested alias selects, with `below` for the level below. -/
def gain (below : Option SelectionFinder) (d : Definition) (t : Table) (scope : Scope)
    (request : String × List (Option String)) : Except Error Selection :=
  match t.find? request.1 with
  | none => .ok .empty
  | some entry =>
    if scope.allows request.1 then
      match d.relation? entry.key with
      | none => .ok ⟨[request.1], []⟩
      | some r =>
        if r.kind = .manyToMany then .error (.unsupportedRelation d.name r.name .select)
        else
          match below with
          | none => .ok .empty
          | some below =>
            (below r.related (request.2.map fun rest => rest.getD "*")
              (scope.child request.1)).map fun child => ⟨[], [(request.1, child)]⟩
    else .ok .empty

/-- What paths select at a level, with `below` for the level below. -/
def selectLevel (c : Catalog) (below : Option SelectionFinder) (entity : String)
    (paths : List String) (scope : Scope) : Except Error Selection :=
  (c.get entity).bind fun d =>
    (Table.of d.toEntity .selectable).bind fun t =>
      let requests := Selection.requests paths
      let start := if requests.contains "*" then Selection.columnsOf t scope else .empty
      (requests.drop "*").entries.foldlM
        (fun s request => (gain below d t scope request).map s.merge) start

/-- What paths select, relations so many levels deep. -/
def select (c : Catalog) : (depth : Nat) → (entity : String) → (paths : List String) →
    (scope : Scope) → Except Error Selection
  | 0 => c.selectLevel none
  | depth + 1 => c.selectLevel (some (c.select depth))

end Catalog

namespace Registry

variable {c : Catalog}

theorem answers_foldlM {α β : Type} {f : β → α → RegistryM β} {g : β → α → Except Error β}
    (h : ∀ b a, Answers c (f b a) (g b a)) (as : List α) (b : β) :
    Answers c (as.foldlM f b) (as.foldlM g b) := by
  induction as generalizing b with
  | nil => exact answers_pure b
  | cons a as ih =>
    rw [List.foldlM_cons, List.foldlM_cons]
    exact (h b a).andThen fun b' _ => ih b'

/-- What a requested alias selects comes to what there is already. -/
theorem answers_selectAlias {below : Option (String → List String → Scope → RegistryM Selection)}
    {below' : Option SelectionFinder}
    (hbelow : Option.Rel (fun f g => ∀ entity paths scope,
      Answers c (f entity paths scope) (g entity paths scope)) below below')
    (d : Definition) (t : Table) (scope : Scope) (s : Selection)
    (request : String × List (Option String)) :
    Answers c (selectAlias below d t scope s request)
      ((Catalog.gain below' d t scope request).map s.merge) := by
  obtain ⟨a, rests⟩ := request
  have hnothing : (Except.ok Selection.empty).map s.merge = (.ok s : Except Error Selection) :=
    congrArg Except.ok Selection.merge_empty
  unfold selectAlias Catalog.gain
  dsimp only
  cases t.find? a with
  | none =>
    dsimp only
    rw [hnothing]
    exact answers_pure s
  | some entry =>
    cases hallows : scope.allows a with
    | false =>
      simp only [Bool.not_false, if_true, Bool.false_eq_true, if_false]
      rw [hnothing]
      exact answers_pure s
    | true =>
      simp only [Bool.not_true, Bool.false_eq_true, if_false, if_true]
      cases d.relation? entry.key with
      | none => exact answers_pure _
      | some r =>
        dsimp only
        by_cases hkind : r.kind = .manyToMany
        · rw [if_pos hkind, if_pos hkind]
          exact answers_of (.error _)
        · rw [if_neg hkind, if_neg hkind]
          cases hbelow with
          | none =>
            dsimp only
            rw [hnothing]
            exact answers_pure s
          | @some f g hfind =>
            have hchild := hfind r.related (rests.map fun rest => rest.getD "*") (scope.child a)
            dsimp only
            cases hg : g r.related (rests.map fun rest => rest.getD "*") (scope.child a) with
            | error err =>
              rw [hg] at hchild
              exact hchild.fail
            | ok child =>
              rw [hg] at hchild
              exact hchild.bind (answers_pure _)

theorem answers_selectLevel {below : Option (String → List String → Scope → RegistryM Selection)}
    {below' : Option SelectionFinder}
    (hbelow : Option.Rel (fun f g => ∀ entity paths scope,
      Answers c (f entity paths scope) (g entity paths scope)) below below')
    (entity : String) (paths : List String) (scope : Scope) :
    Answers c (selectLevel below entity paths scope) (c.selectLevel below' entity paths scope) := by
  refine (answers_definition rfl).andThen fun d hget => ?_
  refine (answers_table (Catalog.table_of_get hget)).andThen fun t _ => ?_
  exact answers_foldlM (fun s request => answers_selectAlias hbelow d t scope s request) _ _

/-- **What paths select is what the catalog says**, whatever is kept. -/
theorem answers_select (depth : Nat) (entity : String) (paths : List String) (scope : Scope) :
    Answers c (select depth entity paths scope) (c.select depth entity paths scope) := by
  induction depth generalizing entity paths scope with
  | zero => exact answers_selectLevel .none entity paths scope
  | succ depth ih => exact answers_selectLevel (.some ih) entity paths scope

end Registry

/-! ## The paths of a level -/

namespace Catalog

variable {c : Catalog} {d : Definition} {t : Table} {scope : Scope} {s start : Selection}
  {entity a : String} {paths path : List String} {rests : List (Option String)}
  {below : Option SelectionFinder}

/-- What a requested alias brings to the selection of its level. -/
inductive Gains (below : Option SelectionFinder) (d : Definition) (scope : Scope) (a : String)
    (rests : List (Option String)) : Selection → Prop
  /-- The alias may not be selected, or is not in scope. -/
  | nothing (h : ∀ key, d.selectKey? a = some key → scope.allows a = false) :
      Gains below d scope a rests .empty
  /-- The level below is too deep. -/
  | deep {key : String} {r : Relation} (hkey : d.selectKey? a = some key)
      (hr : d.relation? key = some r) (hkind : r.kind ≠ .manyToMany) (hbelow : below = none) :
      Gains below d scope a rests .empty
  | column (hcolumn : d.SelectsColumn a) (hallows : scope.allows a = true) :
      Gains below d scope a rests ⟨[a], []⟩
  | related {key : String} {r : Relation} {find : SelectionFinder} {child : Selection}
      (hkey : d.selectKey? a = some key) (hr : d.relation? key = some r)
      (hkind : r.kind ≠ .manyToMany) (hallows : scope.allows a = true) (hbelow : below = some find)
      (hchild : find r.related (rests.map fun rest => rest.getD "*") (scope.child a) = .ok child) :
      Gains below d scope a rests ⟨[], [(a, child)]⟩

theorem gain_eq_ok_iff (ht : Table.of d.toEntity .selectable = .ok t) :
    gain below d t scope (a, rests) = .ok s ↔ Gains below d scope a rests s := by
  have hselect : d.selectKey? a = (t.find? a).map Entry.key := Entity.selectKey?_of_table ht
  unfold gain
  dsimp only
  constructor
  · intro h
    cases hfind : t.find? a with
    | none =>
      rw [hfind] at h hselect
      cases h
      refine .nothing fun key hkey => ?_
      rw [hselect] at hkey
      cases hkey
    | some entry =>
      rw [hfind] at h hselect
      dsimp only at h
      split at h
      · rename_i hallows
        cases hr : d.relation? entry.key with
        | none =>
          rw [hr] at h
          cases h
          exact .column ⟨entry.key, hselect, hr⟩ hallows
        | some r =>
          rw [hr] at h
          dsimp only at h
          split at h
          · cases h
          · rename_i hkind
            cases hbelow : below with
            | none =>
              rw [hbelow] at h
              cases h
              exact .deep hselect hr hkind rfl
            | some find =>
              rw [hbelow] at h
              obtain ⟨child, hchild, rfl⟩ := Outcome.map_eq_ok.1 h
              exact .related hselect hr hkind hallows rfl hchild
      · rename_i hallows
        cases h
        exact .nothing fun _ _ => Bool.eq_false_iff.2 hallows
  · have hentry : ∀ {key}, d.selectKey? a = some key → ∃ entry, t.find? a = some entry ∧
        entry.key = key := fun hkey => Option.map_eq_some_iff.1 (hselect ▸ hkey)
    rintro (h | ⟨hkey, hr, hkind, rfl⟩ | ⟨⟨key, hkey, hr⟩, hallows⟩ |
      ⟨hkey, hr, hkind, hallows, rfl, hchild⟩)
    · cases hfind : t.find? a with
      | none => rfl
      | some entry =>
        have hallows : scope.allows a = false := h entry.key (by rw [hselect, hfind]; rfl)
        simp only [hallows, Bool.false_eq_true, if_false]
    · obtain ⟨entry, hfind, rfl⟩ := hentry hkey
      simp only [hfind, hr, hkind, if_false, ite_self]
    · obtain ⟨entry, hfind, rfl⟩ := hentry hkey
      simp only [hfind, hr, hallows, if_true]
    · obtain ⟨entry, hfind, rfl⟩ := hentry hkey
      simp only [hfind, hr, hkind, hallows, if_true, if_false, hchild, Except.map]

/-- The requests of a level can be met when each of them can. -/
theorem exists_foldlM_iff {requests : List (String × List (Option String))} :
    (∃ s, requests.foldlM (fun s request => (gain below d t scope request).map s.merge) start =
      .ok s) ↔ ∀ request ∈ requests, ∃ g, gain below d t scope request = .ok g := by
  induction requests generalizing start with
  | nil => exact iff_of_true ⟨start, rfl⟩ fun _ hrequest => absurd hrequest List.not_mem_nil
  | cons request requests ih =>
    rw [List.forall_mem_cons]
    constructor
    · rintro ⟨s, hs⟩
      obtain ⟨s₁, hstep, hrest⟩ := Outcome.foldlM_cons_eq_ok.1 hs
      obtain ⟨g, hg, -⟩ := Outcome.map_eq_ok.1 hstep
      exact ⟨⟨g, hg⟩, ih.1 ⟨s, hrest⟩⟩
    · rintro ⟨⟨g, hg⟩, hall⟩
      obtain ⟨s, hs⟩ := ih.2 hall
      exact ⟨s, Outcome.foldlM_cons_eq_ok.2 ⟨_, Outcome.map_eq_ok.2 ⟨g, hg, rfl⟩, hs⟩⟩

/-- What a level has, the start has or some request brings. -/
theorem foldlM_iff {M : Selection → Prop} (hM : ∀ s t : Selection, M (s.merge t) ↔ M s ∨ M t)
    {requests : List (String × List (Option String))}
    (h : requests.foldlM (fun s request => (gain below d t scope request).map s.merge) start =
      .ok s) :
    M s ↔ M start ∨
      ∃ request ∈ requests, ∃ g, gain below d t scope request = .ok g ∧ M g := by
  induction requests generalizing start with
  | nil =>
    cases h
    simp
  | cons request requests ih =>
    obtain ⟨s₁, hstep, hrest⟩ := Outcome.foldlM_cons_eq_ok.1 h
    obtain ⟨g, hg, rfl⟩ := Outcome.map_eq_ok.1 hstep
    rw [ih hrest, hM, or_assoc]
    simp only [List.mem_cons, exists_eq_or_imp, hg, Except.ok.injEq, exists_eq_left']

/-- All columns of a level are those that may be selected and are in scope. -/
theorem mem_paths_columnsOf (ht : Table.of d.toEntity .selectable = .ok t) :
    path ∈ (Selection.columnsOf t scope).paths ↔
      ∃ a, path = [a] ∧ d.SelectsColumn a ∧ scope.allows a = true := by
  have hfold : ∀ (es : List Entry) (s : Selection),
      path ∈ (es.foldl (fun s e => s.addColumn e.aliasName) s).paths ↔
        path ∈ s.paths ∨ ∃ e ∈ es, path = [e.aliasName] := by
    intro es
    induction es with
    | nil => intro s; simp
    | cons e es ih =>
      intro s
      rw [List.foldl_cons, ih, Selection.mem_paths_addColumn, or_assoc]
      simp only [List.mem_cons, exists_eq_or_imp]
  rw [Selection.columnsOf, hfold, or_iff_right Selection.not_mem_paths_empty]
  constructor
  · rintro ⟨e, he, rfl⟩
    obtain ⟨he, hcond⟩ := List.mem_filter.1 he
    obtain ⟨hcolumn, hallows⟩ := Bool.and_eq_true_iff.1 hcond
    have hrelation : e.isRelation = false := Bool.not_eq_true' _ ▸ hcolumn
    exact ⟨e.aliasName, rfl, (Entity.selectsColumn_iff ht).2 ⟨e, he, rfl, hrelation⟩, hallows⟩
  · rintro ⟨a, rfl, hcolumn, hallows⟩
    obtain ⟨e, he, rfl, hrelation⟩ := (Entity.selectsColumn_iff ht).1 hcolumn
    exact ⟨e, List.mem_filter.2 ⟨he, by rw [hrelation, hallows]; rfl⟩, rfl⟩

/-- What one column more keeps, all columns of a level have. -/
theorem columnsOf_induct {P : Selection → Prop} (hempty : P .empty)
    (hadd : ∀ s, ∀ e ∈ t.entries.values, e.isRelation = false → P s → P (s.addColumn e.aliasName)) :
    P (Selection.columnsOf t scope) := by
  refine List.foldlRecOn (motive := P) _ _ hempty fun s hs e he => ?_
  obtain ⟨he, hcond⟩ := List.mem_filter.1 he
  have hcolumn : (!e.isRelation) = true := (Bool.and_eq_true_iff.1 hcond).1
  exact hadd s e he (Bool.not_eq_true' _ ▸ hcolumn) hs

theorem relations_columnsOf : (Selection.columnsOf t scope).relations = [] :=
  columnsOf_induct (P := (·.relations = [])) rfl fun _ _ _ _ hs => hs

/-- What is requested of a level by an alias. -/
theorem mem_requests_drop :
    (a, rests) ∈ ((Selection.requests paths).drop "*").entries ↔
      a ≠ "*" ∧ Selection.restsOf a paths ≠ [] ∧ rests = Selection.restsOf a paths := by
  have hfind : ((Selection.requests paths).drop "*").find? a =
      if a = "*" then none else (Selection.requests paths).find? a := Entries.find?_drop "*" a _
  rw [← Dict.find?_eq_some_iff, hfind, Selection.find?_requests]
  split
  · rename_i hstar
    simp only [reduceCtorEq, hstar, ne_eq, not_true_eq_false, false_and]
  · rename_i hstar
    split
    · rename_i hnone
      simp only [reduceCtorEq, hnone, ne_eq, not_true_eq_false, false_and, and_false]
    · rename_i hsome
      simp only [Option.some.injEq, ne_eq, hstar, hsome, not_false_iff, true_and, eq_comm]

theorem contains_requests : (Selection.requests paths).contains a = true ↔
    Selection.restsOf a paths ≠ [] := by
  rw [Dict.contains, Selection.find?_requests]
  split
  · rename_i h
    simp only [h, Option.isSome_none, Bool.false_eq_true, ne_eq, not_true_eq_false]
  · rename_i h
    simp only [Option.isSome_some, ne_eq, h, not_false_iff]

/-- **A level can be selected** when its entity may be selected from, and every requested alias
brings something. -/
theorem exists_selectLevel_iff : (∃ s, c.selectLevel below entity paths scope = .ok s) ↔
    ∃ d t, c.find? entity = some d ∧ Table.of d.toEntity .selectable = .ok t ∧
      ∀ a, a ≠ "*" → Selection.restsOf a paths ≠ [] →
        ∃ g, Gains below d scope a (Selection.restsOf a paths) g := by
  constructor
  · rintro ⟨s, h⟩
    obtain ⟨d, hget, h⟩ := Outcome.bind_eq_ok.1 h
    obtain ⟨t, ht, h⟩ := Outcome.bind_eq_ok.1 h
    refine ⟨d, t, get_eq_ok_iff.1 hget, ht, fun a hstar hrests => ?_⟩
    obtain ⟨g, hg⟩ := exists_foldlM_iff.1 ⟨s, h⟩ (a, Selection.restsOf a paths)
      (mem_requests_drop.2 ⟨hstar, hrests, rfl⟩)
    exact ⟨g, (gain_eq_ok_iff ht).1 hg⟩
  · rintro ⟨d, t, hfind, ht, hall⟩
    obtain ⟨s, hs⟩ : ∃ s, ((Selection.requests paths).drop "*").entries.foldlM
        (fun s request => (gain below d t scope request).map s.merge)
        (if (Selection.requests paths).contains "*" then Selection.columnsOf t scope else .empty) =
          .ok s := by
      refine exists_foldlM_iff.2 ?_
      rintro ⟨a, rests⟩ hrequest
      obtain ⟨hstar, hrests, rfl⟩ := mem_requests_drop.1 hrequest
      obtain ⟨g, hg⟩ := hall a hstar hrests
      exact ⟨g, (gain_eq_ok_iff ht).2 hg⟩
    exact ⟨s, Outcome.bind_eq_ok.2 ⟨d, get_eq_ok_iff.2 hfind, Outcome.bind_eq_ok.2 ⟨t, ht, hs⟩⟩⟩

/-- **The selection of a level** is all its columns when these are asked for, and what each
requested alias brings. -/
theorem selectLevel_iff {M : Selection → Prop} (hM : ∀ s t : Selection, M (s.merge t) ↔ M s ∨ M t)
    (h : c.selectLevel below entity paths scope = .ok s) (hfind : c.find? entity = some d) :
    ∃ t, Table.of d.toEntity .selectable = .ok t ∧
      (M s ↔ M (if Selection.restsOf "*" paths = [] then .empty else Selection.columnsOf t scope) ∨
        ∃ a g, a ≠ "*" ∧ Selection.restsOf a paths ≠ [] ∧
          Gains below d scope a (Selection.restsOf a paths) g ∧ M g) := by
  obtain ⟨d', hget, h⟩ := Outcome.bind_eq_ok.1 h
  rw [get_eq_ok_iff.1 hget] at hfind
  cases hfind
  obtain ⟨t, ht, h⟩ := Outcome.bind_eq_ok.1 h
  refine ⟨t, ht, ?_⟩
  rw [foldlM_iff hM h]
  refine or_congr ?_ ?_
  · by_cases hstar : Selection.restsOf "*" paths = []
    · rw [if_pos hstar, if_neg fun hcontains => contains_requests.1 hcontains hstar]
    · rw [if_neg hstar, if_pos (contains_requests.2 hstar)]
  · constructor
    · rintro ⟨⟨a, rests⟩, hrequest, g, hg, hgained⟩
      obtain ⟨hstar, hrests, rfl⟩ := mem_requests_drop.1 hrequest
      exact ⟨a, g, hstar, hrests, (gain_eq_ok_iff ht).1 hg, hgained⟩
    · rintro ⟨a, g, hstar, hrests, hg, hgained⟩
      exact ⟨(a, Selection.restsOf a paths), mem_requests_drop.2 ⟨hstar, hrests, rfl⟩, g,
        (gain_eq_ok_iff ht).2 hg, hgained⟩

/-- What unions keep, and the columns of a level and what its requests bring have, the selection of
the level has. -/
theorem of_selectLevel {P : Selection → Prop}
    (hmerge : ∀ s t : Selection, P s → P t → P (s.merge t))
    (hstart : ∀ t, Table.of d.toEntity .selectable = .ok t →
      P .empty ∧ P (Selection.columnsOf t scope))
    (hgains : ∀ t a rests g, Table.of d.toEntity .selectable = .ok t →
      Gains below d scope a rests g → P g)
    (h : c.selectLevel below entity paths scope = .ok s) (hfind : c.find? entity = some d) :
    P s := by
  obtain ⟨d', hget, h⟩ := Outcome.bind_eq_ok.1 h
  rw [get_eq_ok_iff.1 hget] at hfind
  cases hfind
  obtain ⟨t, ht, h⟩ := Outcome.bind_eq_ok.1 h
  have hfold : ∀ (requests : List (String × List (Option String))) (start : Selection), P start →
      requests.foldlM (fun s request => (gain below d t scope request).map s.merge) start = .ok s →
        P s := by
    intro requests
    induction requests with
    | nil =>
      intro start hstart h
      cases h
      exact hstart
    | cons request requests ih =>
      intro start hstart h
      obtain ⟨s₁, hstep, hrest⟩ := Outcome.foldlM_cons_eq_ok.1 h
      obtain ⟨g, hg, rfl⟩ := Outcome.map_eq_ok.1 hstep
      have hbrought : P g := hgains t _ _ g ht ((gain_eq_ok_iff ht).1 hg)
      exact ih _ (hmerge start g hstart hbrought) hrest
  refine hfold _ _ ?_ h
  split
  · exact (hstart t ht).2
  · exact (hstart t ht).1

/-- A column is selected when it may be, is in scope and is asked for. -/
theorem singleton_mem_paths_selectLevel (h : c.selectLevel below entity paths scope = .ok s)
    (hfind : c.find? entity = some d) :
    [a] ∈ s.paths ↔ d.SelectsColumn a ∧ scope.allows a = true ∧
      ∃ p ∈ paths, Selection.Asks p [a] := by
  obtain ⟨d', t', hfind', -, hall⟩ := exists_selectLevel_iff.1 ⟨s, h⟩
  rw [hfind] at hfind'
  cases hfind'
  obtain ⟨t, ht, hpaths⟩ := selectLevel_iff (M := ([a] ∈ ·.paths))
    (fun _ _ => Selection.mem_paths_merge) h hfind
  rw [hpaths, Selection.exists_asks_singleton]
  constructor
  · rintro (hstart | ⟨a', g, -, hrests, hg, hpath⟩)
    · split at hstart
      · exact absurd hstart Selection.not_mem_paths_empty
      · rename_i hstar
        obtain ⟨a', ha, hcolumn, hallows⟩ := (mem_paths_columnsOf ht).1 hstart
        cases ha
        exact ⟨hcolumn, hallows, .inl hstar⟩
    · cases hg with
      | nothing => exact absurd hpath Selection.not_mem_paths_empty
      | deep => exact absurd hpath Selection.not_mem_paths_empty
      | column hcolumn hallows =>
        cases Selection.mem_paths_column.1 hpath
        exact ⟨hcolumn, hallows, .inr hrests⟩
      | related =>
        obtain ⟨rest, hrest, hcons⟩ := Selection.mem_paths_relation.1 hpath
        cases hcons
        exact absurd hrest Selection.nil_not_mem_paths
  · rintro ⟨hcolumn, hallows, hstar | hrests⟩
    · rw [if_neg hstar]
      exact .inl ((mem_paths_columnsOf ht).2 ⟨a, rfl, hcolumn, hallows⟩)
    · obtain ⟨key, hkey, -⟩ := id hcolumn
      have hplain : a ≠ "*" := (Entity.plain_of_selectKey? hkey).1
      obtain ⟨g, hg⟩ := hall a hplain hrests
      refine .inr ⟨a, g, hplain, hrests, hg, ?_⟩
      cases hg with
      | nothing h => exact absurd hallows (Bool.eq_false_iff.1 (h key hkey))
      | deep hkey' hr =>
        rw [hcolumn.relation?_eq_none hkey'] at hr
        cases hr
      | column => exact Selection.mem_paths_column.2 rfl
      | related hkey' hr =>
        rw [hcolumn.relation?_eq_none hkey'] at hr
        cases hr

/-- An alias of a relation brings what goes on behind it, selected on the level below. -/
theorem Gains.eq_relation {key : String} {r : Relation} {find : SelectionFinder} {g : Selection}
    (h : Gains (some find) d scope a rests g) (hkey : d.selectKey? a = some key)
    (hr : d.relation? key = some r) (hallows : scope.allows a = true) :
    r.kind ≠ .manyToMany ∧ ∃ child, find r.related (rests.map fun rest => rest.getD "*")
      (scope.child a) = .ok child ∧ g = ⟨[], [(a, child)]⟩ := by
  cases h with
  | nothing h => exact absurd hallows (Bool.eq_false_iff.1 (h key hkey))
  | deep _ _ _ hbelow => cases hbelow
  | column hcolumn =>
    rw [hcolumn.relation?_eq_none hkey] at hr
    cases hr
  | @related key' r' find' child hkey' hr' hkind _ hbelow hchild =>
    rw [hkey] at hkey'
    cases hkey'
    rw [hr] at hr'
    cases hr'
    cases hbelow
    exact ⟨hkind, child, hchild, rfl⟩

/-- What goes on behind a requested alias can be selected on the level below. -/
theorem exists_child {key : String} {r : Relation} {find : SelectionFinder}
    (h : c.selectLevel (some find) entity paths scope = .ok s) (hfind : c.find? entity = some d)
    (hkey : d.selectKey? a = some key) (hr : d.relation? key = some r)
    (hallows : scope.allows a = true) (hrests : Selection.restsOf a paths ≠ []) :
    ∃ child, find r.related ((Selection.restsOf a paths).map fun rest => rest.getD "*")
        (scope.child a) = .ok child ∧
      Gains (some find) d scope a (Selection.restsOf a paths) ⟨[], [(a, child)]⟩ := by
  obtain ⟨d', t', hfind', -, hall⟩ := exists_selectLevel_iff.1 ⟨s, h⟩
  rw [hfind] at hfind'
  cases hfind'
  obtain ⟨g, hg⟩ := hall a (Entity.plain_of_selectKey? hkey).1 hrests
  obtain ⟨-, child, hchild, rfl⟩ := hg.eq_relation hkey hr hallows
  exact ⟨child, hchild, hg⟩

/-- **What is selected below an alias** is what goes on behind it, selected on the level below. -/
theorem at_selectLevel {F : Selection → Prop} (hF : ∀ s t : Selection, F (s.merge t) ↔ F s ∨ F t)
    (h : c.selectLevel below entity paths scope = .ok s) (hfind : c.find? entity = some d) :
    s.At F [a] ↔ ∃ key r find child, d.selectKey? a = some key ∧ d.relation? key = some r ∧
      scope.allows a = true ∧ below = some find ∧ Selection.restsOf a paths ≠ [] ∧
      find r.related ((Selection.restsOf a paths).map fun rest => rest.getD "*")
        (scope.child a) = .ok child ∧ F child := by
  obtain ⟨t, -, hlevel⟩ := selectLevel_iff (M := (·.At F [a])) (fun _ _ => Selection.at_merge hF)
    h hfind
  rw [hlevel]
  constructor
  · rintro (hstart | ⟨a', g, -, hrests, hg, hat⟩)
    · -- columns have no level below them
      obtain ⟨e, he, -⟩ := hstart
      split at he
      · cases he
      · rw [relations_columnsOf] at he
        cases he
    · cases hg with
      | related hkey hr hkind hallows hbelow hchild =>
        obtain ⟨e, he, rfl, hat⟩ := hat
        cases List.mem_singleton.1 he
        exact ⟨_, _, _, _, hkey, hr, hallows, hbelow, hrests, hchild, hat⟩
      | _ =>
        obtain ⟨e, he, -⟩ := hat
        cases he
  · rintro ⟨key, r, find, child, hkey, hr, hallows, rfl, hrests, hchild, hat⟩
    obtain ⟨child', hchild', hg⟩ := exists_child h hfind hkey hr hallows hrests
    rw [hchild] at hchild'
    cases hchild'
    have hplain : a ≠ "*" := (Entity.plain_of_selectKey? hkey).1
    exact .inr ⟨a, _, hplain, hrests, hg, (a, child), List.mem_singleton.2 rfl, rfl, hat⟩

theorem exists_level (depth : Nat) : ∃ below, c.select depth = c.selectLevel below := by
  cases depth with
  | zero => exact ⟨none, rfl⟩
  | succ depth => exact ⟨some (c.select depth), rfl⟩

theorem exists_of_select {depth : Nat} (h : c.select depth entity paths scope = .ok s) :
    ∃ d, c.find? entity = some d := by
  obtain ⟨below, hlevel⟩ := exists_level (c := c) depth
  rw [hlevel] at h
  obtain ⟨d, hget, -⟩ := Outcome.bind_eq_ok.1 h
  exact ⟨d, get_eq_ok_iff.1 hget⟩

/-- Nothing is selected below the relations that are too deep. -/
theorem not_at_select_zero {F : Selection → Prop}
    (hF : ∀ s t : Selection, F (s.merge t) ↔ F s ∨ F t)
    (h : c.select 0 entity paths scope = .ok s) (hfind : c.find? entity = some d) :
    ¬s.At F [a] := by
  intro hat
  obtain ⟨key, r, find, child, -, -, -, hnone, -⟩ := (at_selectLevel hF h hfind).1 hat
  cases hnone

/-- **What is selected below a relation** is what its entity has for what goes on behind the
alias. -/
theorem at_select_iff {depth : Nat} {F : Selection → Prop}
    {G : Definition → List String → Scope → Prop}
    (hF : ∀ s t : Selection, F (s.merge t) ↔ F s ∨ F t)
    (hbelow : ∀ {entity paths scope s d}, c.select depth entity paths scope = .ok s →
      c.find? entity = some d → (F s ↔ G d paths scope))
    (h : c.select (depth + 1) entity paths scope = .ok s) (hfind : c.find? entity = some d) :
    s.At F [a] ↔ scope.allows a = true ∧ Selection.restsOf a paths ≠ [] ∧
      ∃ r related, c.Relates d a r related ∧
        G related ((Selection.restsOf a paths).map fun rest => rest.getD "*") (scope.child a) := by
  rw [at_selectLevel hF h hfind]
  constructor
  · rintro ⟨key, r, find, child, hkey, hr, hallows, ⟨⟩, hrests, hchild, hat⟩
    obtain ⟨related, hrelated⟩ := exists_of_select hchild
    exact ⟨hallows, hrests, r, related, ⟨⟨key, hkey, hr⟩, hrelated⟩, (hbelow hchild hrelated).1 hat⟩
  · rintro ⟨hallows, hrests, r, related, ⟨⟨key, hkey, hr⟩, hrelated⟩, hgoes⟩
    obtain ⟨child, hchild, -⟩ := exists_child h hfind hkey hr hallows hrests
    exact ⟨key, r, _, child, hkey, hr, hallows, rfl, hrests, hchild,
      (hbelow hchild hrelated).2 hgoes⟩

/-- **A path is selected exactly when** it is not too deep, declared, in scope and asked for. -/
theorem mem_paths_select {depth : Nat} (h : c.select depth entity paths scope = .ok s)
    (hfind : c.find? entity = some d) :
    path ∈ s.paths ↔ path.length ≤ depth + 1 ∧ c.Declares d path ∧
      scope.allowsPath path = true ∧ ∃ p ∈ paths, Selection.Asks p path := by
  induction path generalizing depth entity paths scope s d with
  | nil => exact ⟨fun h => absurd h Selection.nil_not_mem_paths, fun h => h.2.1.elim⟩
  | cons a path ih =>
    match path with
    | [] =>
      obtain ⟨below, hlevel⟩ := exists_level (c := c) depth
      rw [hlevel] at h
      have hlength : [a].length ≤ depth + 1 := Nat.le_add_left 1 depth
      rw [singleton_mem_paths_selectLevel h hfind, Scope.allowsPath_singleton,
        and_iff_right hlength]
      rfl
    | b :: path =>
      rw [Selection.cons_cons_mem_paths]
      cases depth with
      | zero =>
        have hlength : ¬(a :: b :: path).length ≤ 0 + 1 := by simp
        have hnone : ¬s.At (b :: path ∈ ·.paths) [a] :=
          not_at_select_zero (fun _ _ => Selection.mem_paths_merge) h hfind
        exact iff_of_false hnone fun h => hlength h.1
      | succ depth =>
        have hlength : (a :: b :: path).length ≤ depth + 1 + 1 ↔ (b :: path).length ≤ depth + 1 :=
          Nat.succ_le_succ_iff
        rw [at_select_iff (fun _ _ => Selection.mem_paths_merge) ih h hfind, hlength,
          Selection.exists_asks_cons, Scope.allowsPath_cons (a := a), Bool.and_eq_true]
        constructor
        · rintro ⟨hallows, -, r, related, hrelates, hlength, hdeclares, hscope, hasks⟩
          exact ⟨hlength, ⟨r, related, hrelates, hdeclares⟩, ⟨hallows, hscope⟩, hasks⟩
        · rintro ⟨hlength, ⟨r, related, hrelates, hdeclares⟩, ⟨hallows, hscope⟩, hasks⟩
          obtain ⟨p, hp, -⟩ := id hasks
          obtain ⟨rest, hrest, -⟩ := List.mem_map.1 hp
          exact ⟨hallows, List.ne_nil_of_mem hrest, r, related, hrelates, hlength, hdeclares,
            hscope, hasks⟩

end Catalog

namespace Registry

variable {r : Registry} {depth : Nat} {entity : String} {paths : List String} {scope : Scope}
  {tree : Selection}

/-- **What paths select is exactly what is declared, in scope, not too deep and asked for.** A
text is among the paths of the selection when it leads along the selectable aliases of relations
to the selectable alias of a column, no more than `depth` relations deep, the scope allows it
level by level, and a requested path asks for it. -/
theorem mem_pathTexts_select (hs : r.Sound)
    (h : r.result (select depth entity paths scope) = .ok tree) :
    ∃ d, r.catalog.find? entity = some d ∧ ∀ text, text ∈ tree.pathTexts ↔
      let path := Text.splitOn '.' text
      path.length ≤ depth + 1 ∧ r.catalog.Declares d path ∧ scope.allowsPath path = true ∧
        ∃ p ∈ paths, Selection.Asks p path := by
  rw [(answers_select depth entity paths scope r rfl hs).1] at h
  have hdot : String.singleton '.' = "." := rfl
  obtain ⟨d, hfind⟩ := Catalog.exists_of_select h
  refine ⟨d, hfind, fun text => ?_⟩
  rw [Selection.pathTexts, List.mem_map, ← hdot]
  constructor
  · rintro ⟨path, hpath, rfl⟩
    obtain ⟨hlength, hdeclares, hrest⟩ := (Catalog.mem_paths_select h hfind).1 hpath
    rw [Text.splitOn_joinWith ?_ hdeclares.dot_not_mem]
    · exact ⟨hlength, hdeclares, hrest⟩
    · rintro rfl
      exact hdeclares
  · intro hpath
    exact ⟨_, (Catalog.mem_paths_select h hfind).2 hpath, Text.joinWith_splitOn '.' text⟩

/-- A bare relation stands for its columns, and what is too deep is left out. -/
theorem mem_pathTexts_of_posts :
    ∃ tree, ofPosts.result
        (select 2 "Post" ["title", " author.posts", "writer.posts.author.name"] .all) = .ok tree ∧
      "author.posts.title" ∈ tree.pathTexts ∧ "writer.posts.author.name" ∉ tree.pathTexts := by
  obtain ⟨tree, htree⟩ : ∃ tree, ofPosts.result
      (select 2 "Post" ["title", " author.posts", "writer.posts.author.name"] .all) = .ok tree :=
    ⟨_, by rfl⟩
  obtain ⟨d, hfind, hpaths⟩ := mem_pathTexts_select sound_ofPosts htree
  refine ⟨tree, htree, ?_, ?_⟩
  · have hd : d = Entity.post.define := Option.some.inj (hfind.symm.trans (by rfl))
    subst hd
    refine (hpaths _).2 ⟨by decide, ⟨_, _, ⟨⟨"author", by rfl, by rfl⟩, by rfl⟩, _, _,
      ⟨⟨"posts", by rfl, by rfl⟩, by rfl⟩, "title", by rfl, by rfl⟩, by rfl,
      " author.posts", by decide, some "posts", by rfl, none, by rfl, "*", none, by rfl, .inl rfl⟩
  · intro hmem
    exact absurd ((hpaths _).1 hmem).1 (by decide)

end Registry
end RequestPlan
