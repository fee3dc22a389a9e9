import RequestPlan.Proofs.Predicate

/-!
# Levels of projections

* `Projection.node?`: the level behind the names of relations. In a union it is the union of
  both levels (`node?_merge`).
* `Projection.At`: something holds of the level behind some names, which is there.
* `Projection.Tidy`: no column is repeated, and relations come in the order of their links'
  names. Whatever is done to tidy projections, they stay tidy.
-/

namespace RequestPlan

theorem Entries.find?_of_ordered_cons {α : Type} {e : String × α} {es : List (String × α)}
    (h : Ordered (e :: es)) : find? e.1 es = none := by
  cases hfind : find? e.1 es with
  | none => rfl
  | some x => exact absurd ((List.pairwise_cons.1 h).1 _ (mem_of_find? hfind)) (String.lt_irrefl _)

namespace Projection

variable {p q child : Projection} {c : Column} {cs : List Column} {link : Link} {name : String}
  {names : List String} {own relations : List (String × Link × Projection)}

/-! ## Columns -/

@[simp] theorem relations_push (p : Projection) (c : Column) :
    (p.push c).relations = p.relations := by
  unfold push
  split <;> rfl

@[simp] theorem relations_pushAll (p : Projection) (cs : List Column) :
    (p.pushAll cs).relations = p.relations := by
  induction cs generalizing p with
  | nil => rfl
  | cons c cs ih => exact (ih (p.push c)).trans (relations_push p c)

theorem mem_pushAll : c ∈ (p.pushAll cs).columns ↔ c ∈ p.columns ∨ c ∈ cs := by
  induction cs generalizing p with
  | nil => simp [pushAll]
  | cons d cs ih =>
    rw [pushAll, List.foldl_cons, ← pushAll, ih, mem_push, or_assoc, List.mem_cons]

theorem nodup_pushAll (h : p.columns.Nodup) : (p.pushAll cs).columns.Nodup := by
  induction cs generalizing p with
  | nil => exact h
  | cons c cs ih => exact ih (nodup_push h c)

theorem mem_columns_merge : c ∈ (p.merge q).columns ↔ c ∈ p.columns ∨ c ∈ q.columns := by
  obtain ⟨columns, relations⟩ := q
  exact mem_pushAll

/-! ## Tidy projections -/

/-- No column is repeated, and relations come in the order of their links' names. -/
inductive Tidy : Projection → Prop
  | level {columns : List Column} {relations : List (String × Link × Projection)}
      (hcolumns : columns.Nodup) (hordered : Entries.Ordered relations)
      (hnames : ∀ e ∈ relations, e.2.1.name = e.1) (hbelow : ∀ e ∈ relations, Tidy e.2.2) :
      Tidy ⟨columns, relations⟩

namespace Tidy

theorem nodup (h : p.Tidy) : p.columns.Nodup := by cases h; assumption

theorem ordered (h : p.Tidy) : Entries.Ordered p.relations := by cases h; assumption

theorem name_eq (h : p.Tidy) {e : String × Link × Projection} (he : e ∈ p.relations) :
    e.2.1.name = e.1 := by
  cases h with
  | level _ _ hnames _ => exact hnames e he

theorem of_mem (h : p.Tidy) {e : String × Link × Projection} (he : e ∈ p.relations) :
    e.2.2.Tidy := by
  cases h with
  | level _ _ _ hbelow => exact hbelow e he

theorem empty : Projection.empty.Tidy :=
  .level .nil Entries.ordered_nil (fun _ he => by cases he) fun _ he => by cases he

/-- Other columns, without repetitions, keep a projection tidy. -/
theorem of_columns (h : p.Tidy) (hrelations : q.relations = p.relations)
    (hcolumns : q.columns.Nodup) : q.Tidy := by
  obtain ⟨columns, relations⟩ := q
  cases hrelations
  exact .level hcolumns h.ordered (fun _ => h.name_eq) fun _ => h.of_mem

theorem pushAll (h : p.Tidy) (cs : List Column) : (p.pushAll cs).Tidy :=
  h.of_columns (relations_pushAll p cs) (nodup_pushAll h.nodup)

/-- A relation more, or in place of one of its name. -/
theorem put {columns : List Column} (h : Tidy ⟨columns, own⟩) (hname : link.name = name)
    (hchild : child.Tidy) : Tidy ⟨columns, Entries.put name (link, child) own⟩ := by
  refine .level h.nodup (h.ordered.put _ _) ?_ ?_
  · intro e he
    rcases Entries.mem_put he with rfl | he
    · exact hname
    · exact h.name_eq he
  · intro e he
    rcases Entries.mem_put he with rfl | he
    · exact hchild
    · exact h.of_mem he

/-- **The union of tidy projections is tidy.** -/
theorem merge (hp : p.Tidy) (hq : q.Tidy) : (p.merge q).Tidy := by
  induction q using induct generalizing p with
  | level columns relations ih =>
    -- the relations come in one after the other
    have hbelow : ∀ columns own, Tidy ⟨columns, own⟩ →
        Tidy ⟨columns, mergeBelow own relations⟩ := by
      have hnames : ∀ e ∈ relations, e.2.1.name = e.1 := fun _ => hq.name_eq
      have hchildren : ∀ e ∈ relations, e.2.2.Tidy := fun _ => hq.of_mem
      clear hq
      induction relations with
      | nil => exact fun columns own hown => hown
      | cons e es ihes =>
        intro columns own hown
        obtain ⟨name, link, child⟩ := e
        have hname : link.name = name := hnames _ List.mem_cons_self
        have hchild : child.Tidy := hchildren _ List.mem_cons_self
        have hrest := ihes (fun e he => ih e (List.mem_cons_of_mem _ he))
          (fun e he => hnames e (List.mem_cons_of_mem _ he))
          fun e he => hchildren e (List.mem_cons_of_mem _ he)
        rw [mergeBelow]
        split
        · rename_i ownLink ownChild hfind
          have hmem := Entries.mem_of_find? hfind
          exact hrest _ _ (hown.put (hown.name_eq hmem)
            (ih _ List.mem_cons_self (hown.of_mem hmem) hchild))
        · exact hrest _ _ (hown.put hname hchild)
    have hcolumns : Tidy ⟨(p.pushAll columns).columns, p.relations⟩ :=
      hp.of_columns rfl (nodup_pushAll hp.nodup)
    exact hbelow _ _ hcolumns

theorem one (hchild : child.Tidy) : Tidy ⟨[], [(link.name, link, child)]⟩ := by
  refine .level .nil (List.pairwise_singleton _ _) ?_ ?_
  · intro e he
    cases List.mem_singleton.1 he
    rfl
  · intro e he
    cases List.mem_singleton.1 he
    exact hchild

theorem attach (hp : p.Tidy) (hchild : child.Tidy) : (p.attach link child).Tidy :=
  hp.merge (.one hchild)

end Tidy

/-! ## Levels behind names -/

/-- The level behind the names of relations. -/
def node? : Projection → List String → Option Projection
  | p, [] => some p
  | p, name :: names => (Entries.find? name p.relations).bind fun e => e.2.node? names

/-- Something holds of the level behind the names of relations. -/
def At (F : Projection → Prop) (p : Projection) (names : List String) : Prop :=
  ∃ q, p.node? names = some q ∧ F q

/-- A level behind the names of a tidy projection is tidy. -/
theorem Tidy.of_node? (h : p.Tidy) (hq : p.node? names = some q) : q.Tidy := by
  induction names generalizing p with
  | nil =>
    cases hq
    exact h
  | cons name names ih =>
    obtain ⟨e, hfind, hq⟩ := Option.bind_eq_some_iff.1 hq
    exact ih (h.of_mem (Entries.mem_of_find? hfind)) hq

theorem node?_append {more : List String} :
    p.node? (names ++ more) = (p.node? names).bind fun q => q.node? more := by
  induction names generalizing p with
  | nil => rfl
  | cons name names ih =>
    rw [List.cons_append, node?, node?]
    cases Entries.find? name p.relations with
    | none => rfl
    | some e => exact ih

/-- What is loaded at a level is behind one name more. -/
theorem node?_of_mem (hp : p.Tidy) (hq : p.node? names = some q)
    (hmem : (name, link, child) ∈ q.relations) : p.node? (names ++ [name]) = some child := by
  rw [node?_append, hq, Option.bind_some, node?,
    Entries.find?_of_mem (hp.of_node? hq).ordered hmem]
  rfl

theorem find?_mergeBelow (h : Entries.Ordered relations) :
    Entries.find? name (mergeBelow own relations) =
      (Entries.find? name own).merge (fun e e' => (e.1, e.2.merge e'.2))
        (Entries.find? name relations) := by
  induction relations generalizing own with
  | nil => simp [mergeBelow, Entries.find?]
  | cons e es ih =>
    obtain ⟨n, link, child⟩ := e
    have hes := (List.pairwise_cons.1 h).2
    have hnone : Entries.find? n es = none := Entries.find?_of_ordered_cons h
    rw [mergeBelow, Entries.find?]
    by_cases hn : name = n
    · subst hn
      cases hfind : Entries.find? name own with
      | none => simp [ih hes, hnone]
      | some e => simp [ih hes, hnone]
    · cases hfind : Entries.find? n own with
      | none => simp [ih hes, hn, Entries.find?_put_ne hn]
      | some e => simp [ih hes, hn, Entries.find?_put_ne hn]

/-- A relation is loaded under a name, by a link. -/
def Loads (name : String) (link : Link) (p : Projection) : Prop :=
  ∃ child, (name, link, child) ∈ p.relations

/-- A union has no links of its own. -/
theorem loads_or_loads_of_merge (h : (p.merge q).Loads name link) :
    p.Loads name link ∨ q.Loads name link := by
  obtain ⟨columns, relations⟩ := q
  have hbelow : ∀ own : List (String × Link × Projection),
      (∃ child, (name, link, child) ∈ mergeBelow own relations) →
        (∃ child, (name, link, child) ∈ own) ∨ ∃ child, (name, link, child) ∈ relations := by
    clear h
    induction relations with
    | nil => exact fun own h => .inl h
    | cons e es ih =>
      intro own h
      obtain ⟨n, l, other⟩ := e
      rw [mergeBelow] at h
      split at h
      · rename_i ownLink ownChild hfind
        rcases ih _ h with ⟨child, hmem⟩ | ⟨child, hmem⟩
        · rcases Entries.mem_put hmem with heq | hmem
          · cases heq
            exact .inl ⟨_, Entries.mem_of_find? hfind⟩
          · exact .inl ⟨child, hmem⟩
        · exact .inr ⟨child, List.mem_cons_of_mem _ hmem⟩
      · rcases ih _ h with ⟨child, hmem⟩ | ⟨child, hmem⟩
        · rcases Entries.mem_put hmem with heq | hmem
          · cases heq
            exact .inr ⟨_, List.mem_cons_self⟩
          · exact .inl ⟨child, hmem⟩
        · exact .inr ⟨child, List.mem_cons_of_mem _ hmem⟩
  exact hbelow p.relations h

/-- **Behind some names, a union has the union of what both have there.** -/
theorem node?_merge (hq : q.Tidy) :
    (p.merge q).node? names = (p.node? names).merge Projection.merge (q.node? names) := by
  induction names generalizing p q with
  | nil => rfl
  | cons name names ih =>
    have hfind : Entries.find? name (p.merge q).relations =
        (Entries.find? name p.relations).merge (fun e e' => (e.1, e.2.merge e'.2))
          (Entries.find? name q.relations) := by
      obtain ⟨columns, relations⟩ := q
      exact find?_mergeBelow hq.ordered
    rw [node?, node?, node?, hfind]
    cases hown : Entries.find? name p.relations with
    | none => cases Entries.find? name q.relations <;> simp
    | some e =>
      cases hother : Entries.find? name q.relations with
      | none => simp
      | some e' => exact ih (hq.of_mem (Entries.mem_of_find? hother))

/-- The level behind a name and more, when a relation is attached. -/
theorem node?_attach_cons (hchild : child.Tidy) :
    (p.attach link child).node? (name :: names) =
      (p.node? (name :: names)).merge Projection.merge
        (if link.name = name then child.node? names else none) := by
  have hunion : (p.attach link child).node? (name :: names) =
      (p.merge ⟨[], [(link.name, link, child)]⟩).node? (name :: names) := rfl
  rw [hunion, node?_merge (.one hchild)]
  congr 1
  simp only [node?, Entries.find?]
  by_cases hname : link.name = name
  · rw [if_pos hname, if_pos hname.symm, Option.bind_some]
  · rw [if_neg hname, if_neg (Ne.symm hname), Option.bind_none]

section At

variable {F : Projection → Prop}

theorem at_nil : p.At F [] ↔ F p := by
  simp [At, node?]

/-- What holds behind a name when a relation is attached held there before, or holds of what is
attached. -/
theorem at_of_attach (hF : ∀ p q, F (p.merge q) → F p ∨ F q) (hchild : child.Tidy)
    (h : (p.attach link child).At F (name :: names)) :
    p.At F (name :: names) ∨ link.name = name ∧ child.At F names := by
  obtain ⟨q, hq, hFq⟩ := h
  rw [node?_attach_cons hchild] at hq
  split at hq
  · rename_i hname
    unfold At
    cases hown : p.node? (name :: names) with
    | none => exact .inr ⟨hname, q, by simpa [hown] using hq, hFq⟩
    | some a =>
      cases hother : child.node? names with
      | none => exact .inl ⟨q, by simpa [hown, hother] using hq, hFq⟩
      | some b =>
        have hunion : a.merge b = q := by simpa [hown, hother] using hq
        subst hunion
        exact (hF a b hFq).imp (fun h => ⟨a, rfl, h⟩) fun h => ⟨hname, b, rfl, h⟩
  · exact .inl ⟨q, by simpa using hq, hFq⟩

/-- What held behind a name still holds there when a relation is attached, and so does what holds
of it. -/
theorem at_attach (hF : ∀ p q, F p ∨ F q → F (p.merge q)) (hchild : child.Tidy)
    (h : p.At F (name :: names) ∨ link.name = name ∧ child.At F names) :
    (p.attach link child).At F (name :: names) := by
  unfold At
  rw [node?_attach_cons hchild]
  rcases h with ⟨a, hown, hFa⟩ | ⟨hname, b, hother, hFb⟩
  · rw [hown]
    cases (if link.name = name then child.node? names else none) with
    | none => exact ⟨a, rfl, hFa⟩
    | some b => exact ⟨a.merge b, rfl, hF a b (.inl hFa)⟩
  · rw [if_pos hname, hother]
    cases p.node? (name :: names) with
    | none => exact ⟨b, rfl, hFb⟩
    | some a => exact ⟨a.merge b, rfl, hF a b (.inr hFb)⟩

theorem at_pushAll_cons : (p.pushAll cs).At F (name :: names) ↔ p.At F (name :: names) := by
  simp only [At, node?, relations_pushAll]

/-- Columns more at a level change nothing that is not about columns. -/
theorem at_pushAll (hF : ∀ p q : Projection, p.relations = q.relations → F p → F q) :
    (p.pushAll cs).At F names ↔ p.At F names := by
  cases names with
  | nil =>
    rw [at_nil, at_nil]
    exact ⟨hF _ _ (relations_pushAll p cs), hF _ _ (relations_pushAll p cs).symm⟩
  | cons name names => exact at_pushAll_cons

theorem at_loads_pushAll :
    (p.pushAll cs).At (Loads name link) names ↔ p.At (Loads name link) names :=
  at_pushAll fun _ _ heq ⟨child, hmem⟩ => ⟨child, heq ▸ hmem⟩

theorem at_columns_pushAll : (p.pushAll cs).At (fun q => c ∈ q.columns) names ↔
    p.At (fun q => c ∈ q.columns) names ∨ names = [] ∧ c ∈ cs := by
  cases names with
  | nil => rw [at_nil, at_nil, mem_pushAll, and_iff_right rfl]
  | cons name names =>
    rw [at_pushAll_cons, or_iff_left]
    exact fun h => absurd h.1 (List.cons_ne_nil name names)

end At

/-! ## Relations that are loaded -/

/-- A relation that is loaded, with the columns on both sides by which rows are put together. -/
structure Load where
  link : Link
  parentKeys : List Column
  childKeys : List Column
  child : Projection

/-- What is loaded, with the columns that its own side needs. -/
def Load.node (l : Load) : Projection := l.child.pushAll l.childKeys

/-- A projection with one more relation loaded. -/
def load (p : Projection) (l : Load) : Projection := (p.pushAll l.parentKeys).attach l.link l.node

/-- A projection with more relations loaded. -/
def loadAll (p : Projection) (ls : List Load) : Projection := ls.foldl load p

section Load

variable {F : Projection → Prop} {l : Load} {ls : List Load}

theorem mem_columns_loadAll :
    c ∈ (p.loadAll ls).columns ↔ c ∈ p.columns ∨ ∃ l ∈ ls, c ∈ l.parentKeys := by
  induction ls generalizing p with
  | nil => simp [loadAll]
  | cons l ls ih =>
    have hload : c ∈ (p.load l).columns ↔ c ∈ p.columns ∨ c ∈ l.parentKeys := mem_pushAll
    rw [loadAll, List.foldl_cons, ← loadAll, ih, hload, or_assoc]
    simp only [List.mem_cons, exists_eq_or_imp]

theorem loads_of_loadAll (h : (p.loadAll ls).Loads name link) :
    p.Loads name link ∨ ∃ l ∈ ls, l.link = link := by
  induction ls generalizing p with
  | nil => exact .inl h
  | cons l ls ih =>
    rcases ih h with h | ⟨l', hl', h⟩
    · have hunion : ((p.pushAll l.parentKeys).merge ⟨[], [(l.link.name, l.link, l.node)]⟩).Loads
          name link := h
      rcases loads_or_loads_of_merge hunion with ⟨child, hmem⟩ | ⟨child, hmem⟩
      · rw [relations_pushAll] at hmem
        exact .inl ⟨child, hmem⟩
      · cases List.mem_singleton.1 hmem
        exact .inr ⟨l, List.mem_cons_self, rfl⟩
    · exact .inr ⟨l', List.mem_cons_of_mem _ hl', h⟩

theorem tidy_loadAll (hp : p.Tidy) (h : ∀ l ∈ ls, l.child.Tidy) : (p.loadAll ls).Tidy := by
  induction ls generalizing p with
  | nil => exact hp
  | cons l ls ih =>
    obtain ⟨hl, hls⟩ := List.forall_mem_cons.1 h
    exact ih ((hp.pushAll _).attach (hl.pushAll _)) hls

theorem at_of_loadAll (hF : ∀ p q, F (p.merge q) → F p ∨ F q) (hls : ∀ l ∈ ls, l.child.Tidy)
    (h : (p.loadAll ls).At F (name :: names)) :
    p.At F (name :: names) ∨ ∃ l ∈ ls, l.link.name = name ∧ l.node.At F names := by
  induction ls generalizing p with
  | nil => exact .inl h
  | cons l ls ih =>
    obtain ⟨hl, hls⟩ := List.forall_mem_cons.1 hls
    rcases ih hls h with h | ⟨l', hl', h⟩
    · rcases at_of_attach hF (hl.pushAll _) h with h | h
      · exact .inl (at_pushAll_cons.1 h)
      · exact .inr ⟨l, List.mem_cons_self, h⟩
    · exact .inr ⟨l', List.mem_cons_of_mem _ hl', h⟩

theorem at_loadAll (hF : ∀ p q, F p ∨ F q → F (p.merge q)) (hls : ∀ l ∈ ls, l.child.Tidy)
    (h : p.At F (name :: names) ∨ ∃ l ∈ ls, l.link.name = name ∧ l.node.At F names) :
    (p.loadAll ls).At F (name :: names) := by
  induction ls generalizing p with
  | nil =>
    rcases h with h | ⟨l, hl, -⟩
    · exact h
    · cases hl
  | cons l ls ih =>
    obtain ⟨hl, hls⟩ := List.forall_mem_cons.1 hls
    refine ih hls ?_
    rcases h with h | ⟨l', hl', h⟩
    · exact .inl (at_attach hF (hl.pushAll _) (.inl (at_pushAll_cons.2 h)))
    · rcases List.mem_cons.1 hl' with rfl | hl'
      · exact .inl (at_attach hF (hl.pushAll _) (.inr h))
      · exact .inr ⟨l', hl', h⟩

end Load

end Projection
end RequestPlan
