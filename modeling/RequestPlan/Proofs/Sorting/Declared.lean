import RequestPlan.Proofs.Planner.Growing
import RequestPlan.Proofs.Sorting.Steps

/-!
# What orderings and joins are made of

The tokens of a request may be any text, and yet it is not text of theirs that stands in a plan.

* `Text.IsName`: a letter or an underscore, and behind it letters, digits and underscores.
* `Catalog.Composes`: a join is made of declared tables, relations and keys.
* `Joins.Declared`: every join is, and what is joined has an alias of one of them;
  `enduring_declared`: no path changes that.
* `Order.Declared`: an ordering is by a declared key, or by a name on a join.
* `declared_of_sort`: **so is every ordering of any tokens, and every join that they leave.**
-/

namespace RequestPlan

/-! ## Names -/

namespace Text

/-- A letter or an underscore. -/
def StartsName (c : Char) : Prop := 'A' ≤ c ∧ c ≤ 'Z' ∨ 'a' ≤ c ∧ c ≤ 'z' ∨ c = '_'

/-- A text that matches `[A-Za-z_][A-Za-z0-9_]*`. -/
def IsName (s : String) : Prop :=
  ∃ c cs, s.toList = c :: cs ∧ StartsName c ∧ ∀ d ∈ cs, StartsName d ∨ '0' ≤ d ∧ d ≤ '9'

theorem startsName_iff {c : Char} : StartsName c ↔ (c.isAlpha || c = '_') = true := by
  have halpha : c.isAlpha = (c.isUpper || c.isLower) := rfl
  have hupper : c.isUpper = decide ('A' ≤ c ∧ c ≤ 'Z') := rfl
  have hlower : c.isLower = (decide ('a' ≤ c) && decide (c ≤ 'z')) := rfl
  simp only [StartsName, halpha, hupper, hlower, Bool.or_eq_true, Bool.and_eq_true,
    decide_eq_true_eq, or_assoc]

theorem isDigit_iff {c : Char} : c.isDigit = true ↔ '0' ≤ c ∧ c ≤ '9' := by
  simp [Char.isDigit, Char.le_def]

/-- What the rule for names of columns accepts are names. -/
theorem isName_iff {s : String} : IsName s ↔ isIdentifier s = true := by
  rw [IsName, isIdentifier]
  cases s.toList with
  | nil => simp
  | cons c cs =>
    simp only [List.cons.injEq, Bool.and_eq_true, List.all_eq_true, ← startsName_iff]
    constructor
    · rintro ⟨c, cs, ⟨rfl, rfl⟩, hc, hcs⟩
      refine ⟨hc, fun d hd => ?_⟩
      rcases hcs d hd with hstart | hdigit
      · simpa [Char.isAlphanum, or_right_comm] using Or.inl (startsName_iff.1 hstart)
      · simp [Char.isAlphanum, isDigit_iff.2 hdigit]
    · rintro ⟨hc, hcs⟩
      refine ⟨c, cs, ⟨rfl, rfl⟩, hc, fun d hd => ?_⟩
      rw [startsName_iff, ← isDigit_iff]
      simpa [Char.isAlphanum, or_right_comm] using hcs d hd

end Text

/-! ## Joins -/

namespace Catalog

variable {c c' : Catalog} {root d : Definition} {clause : Join} {name : String}

/-- The name of an owning relation of the root, or of a registered entity. -/
def OwningName (c : Catalog) (root : Definition) (name : String) : Prop :=
  ∃ d r, c.Reaches root d ∧ d.relation? name = some r ∧ r.kind = .owning

/-- A join along an owning relation. It is made of the root table, names of relations with the
suffix that joins have, the table of the related entity, its owner key, and the foreign key. -/
def Composes (c : Catalog) (root : Definition) (clause : Join) : Prop :=
  ∃ (before : List String) (name : String) (d next : Definition) (r : Relation),
    (∀ n ∈ before, c.OwningName root n) ∧ c.Reaches root d ∧ d.relation? name = some r ∧
    r.kind = .owning ∧ c.find? r.related = some next ∧
    let prior := aliasAlong root.table before
    let aliasName := prior ++ "_" ++ name ++ "_join"
    clause = ⟨next.table, aliasName, aliasName ++ "." ++ r.ownerColumn next.toEntity,
      prior ++ "." ++ r.foreignKey⟩

theorem Reaches.extend (h : c.Reaches root d) (hextends : c.Extends c') : c'.Reaches root d :=
  h.imp_right fun ⟨name, hd⟩ => ⟨name, hextends name d hd⟩

theorem OwningName.extend (h : c.OwningName root name) (hextends : c.Extends c') :
    c'.OwningName root name :=
  let ⟨d, r, hd, hr⟩ := h
  ⟨d, r, hd.extend hextends, hr⟩

theorem Composes.extend (h : c.Composes root clause) (hextends : c.Extends c') :
    c'.Composes root clause :=
  let ⟨before, name, d, next, r, hbefore, hd, hr, hkind, hnext, hclause⟩ := h
  ⟨before, name, d, next, r, fun n hn => (hbefore n hn).extend hextends, hd.extend hextends, hr,
    hkind, hextends _ _ hnext, hclause⟩

end Catalog

namespace Joins

variable {c c' : Catalog} {root : Definition} {js : Joins}

/-- An alias along names of relations. -/
def AliasOf (c : Catalog) (root : Definition) (aliasName : String) : Prop :=
  ∃ names, (∀ n ∈ names, c.OwningName root n) ∧ aliasName = aliasAlong root.table names

/-- Joins are made of what is declared, and what is joined has the alias of one of them. -/
structure Declared (c : Catalog) (root : Definition) (js : Joins) : Prop where
  clauses : ∀ clause ∈ js.clauses, c.Composes root clause
  memo : ∀ path j, js.find? path = some j → c.Reaches root j.definition ∧
    AliasOf c root j.aliasName ∧ ∃ clause ∈ js.clauses, clause.aliasName = j.aliasName

theorem declared_none : Declared c root .none where
  clauses _ h := absurd h List.not_mem_nil
  memo _ _ h := by cases h

theorem Declared.extend (h : js.Declared c root) (hextends : c.Extends c') :
    js.Declared c' root where
  clauses clause hclause := (h.clauses clause hclause).extend hextends
  memo path j hj := by
    obtain ⟨hd, ⟨names, hnames, halias⟩, hclause⟩ := h.memo path j hj
    exact ⟨hd.extend hextends, ⟨names, fun n hn => (hnames n hn).extend hextends, halias⟩, hclause⟩

theorem steps_declared (hhooks : ∀ d, c.Reaches root d → d.hooks.joins = ∅) :
    Steps c (Declared c root)
      fun _ prior d => c.Reaches root d ∧ AliasOf c root prior where
  found hjs hfind := ⟨(hjs.memo _ _ hfind).1, (hjs.memo _ _ hfind).2.1⟩
  add {js start prior d segment clause next} hjs hprior _ hnext := by
    obtain ⟨hd, names, hnames, rfl⟩ := hprior
    obtain ⟨r, hr, hkind, hrelated, hclause⟩ := exists_owning_of_joinSegment (hhooks d hd) hnext
    have hreaches : c.Reaches root next := .inr ⟨_, hrelated⟩
    -- the alias of the new join has the name of its relation more
    have hlonger : AliasOf c root clause.aliasName := by
      refine ⟨names ++ [segment], fun n hn => ?_, ?_⟩
      · rcases List.mem_append.1 hn with hn | hn
        · exact hnames n hn
        · exact List.mem_singleton.1 hn ▸ ⟨d, r, hd, hr, hkind⟩
      · rw [hclause, aliasAlong, aliasAlong, List.foldl_append]
        rfl
    refine ⟨⟨fun clause' hclause' => ?_, fun path j hj => ?_⟩, hreaches, hlonger⟩
    · rcases List.mem_append.1 hclause' with hold | hnew
      · exact hjs.clauses clause' hold
      · rw [List.mem_singleton.1 hnew]
        exact ⟨names, segment, d, next, r, hnames, hd, hr, hkind, hrelated, hclause⟩
    · rw [find?, Joins.add, Dict.find?_put] at hj
      split at hj
      · cases hj
        exact ⟨hreaches, hlonger, clause, List.mem_append_right _ (List.mem_singleton_self _), rfl⟩
      · obtain ⟨hj, halias, clause', hclause', heq⟩ := hjs.memo path j hj
        exact ⟨hj, halias, clause', List.mem_append_left _ hclause', heq⟩

/-- **No path makes a join of anything else**, as long as no hook joins. -/
theorem enduring_declared : Enduring root fun c js =>
    (∀ d, c.Reaches root d → d.hooks.joins = ∅) → js.Declared c root where
  extend hextends hjs hhooks := (hjs fun d hd => hhooks d (hd.extend hextends)).extend hextends
  path c path js hjs hhooks :=
    (steps_declared hhooks).keeps_leftJoin (fun _ _ => ⟨.inl rfl, [], by simp, rfl⟩) path js
      (hjs hhooks)

end Joins

/-! ## Orderings -/

/-- An ordering is by the column of a key that the entity has an alias to sort by for, or by a name
on a join. -/
def Order.Declared (c : Catalog) (root : Definition) (js : Joins) (o : Order) : Prop :=
  (∃ t a entry, c.table root.name .sortable = .ok t ∧ t.find? a = some entry ∧
    o.column = root.column entry.key) ∨
  ∃ clause ∈ js.clauses, ∃ name, Text.IsName name ∧ o.column = clause.aliasName ++ "." ++ name

namespace Registry

variable {c : Catalog} {root : Definition} {t : Table}

/-- Joins are made of what is declared, and so are orderings. -/
structure Declared (c : Catalog) (root : Definition) (os : List Order) (js : Joins) : Prop where
  joins : js.Declared c root
  orders : ∀ o ∈ os, o.Declared c root js

theorem sorts_declared (hhooks : ∀ d, c.Reaches root d → d.hooks.joins = ∅)
    (ht : c.table root.name .sortable = .ok t) : Sorts c root t (Declared c root) fun js j =>
      ∃ clause ∈ js.clauses, clause.aliasName = j.aliasName where
  path os path := by
    have hkeeps : Work.Keeps (Declared c root os) (leftJoin c root path) := by
      intro js hjs
      refine ⟨(Joins.steps_declared hhooks).keeps_leftJoin
        (fun _ _ => ⟨.inl rfl, [], by simp, rfl⟩) path js hjs.joins, fun o ho => ?_⟩
      -- the join that an ordering speaks of stays
      rcases hjs.orders o ho with halias | ⟨clause, hclause, hname⟩
      · exact .inl halias
      · exact .inr ⟨clause, Joins.keeps_leftJoin_clause clause path js hclause, hname⟩
    refine (((Joins.triple_leftJoin_find? path).and hkeeps).start fun js hjs => ⟨trivial, hjs⟩).imp
      (fun joined? js hjs => ⟨hjs.2, fun j hj => ?_⟩) |>.fail fun js hjs => hjs.2
    exact (hjs.2.joins.memo path j (hjs.1 j hj)).2.2
  fewer hjs := ⟨hjs.joins, fun o ho => hjs.orders o (List.mem_append_left _ ho)⟩
  byAlias {os js a entry} hjs hentry direction := by
    refine ⟨hjs.joins, fun o ho => ?_⟩
    rcases List.mem_append.1 ho with ho | ho
    · exact hjs.orders o ho
    · exact List.mem_singleton.1 ho ▸ .inl ⟨t, a, entry, ht, hentry, rfl⟩
  byName {os js j name} hjs hj hname direction := by
    obtain ⟨clause, hclause, halias⟩ := hj
    refine ⟨hjs.joins, fun o ho => ?_⟩
    rcases List.mem_append.1 ho with ho | ho
    · exact hjs.orders o ho
    · exact List.mem_singleton.1 ho ▸
        .inr ⟨clause, hclause, name, Text.isName_iff.2 hname, by rw [halias]⟩

/-- **Whatever its tokens are, sorting makes orderings and joins of what is declared.** This holds
without hooks behind any steps of a planner, some of which may sort and join as well, and of its
registry, which may have come to know more entities. Each ordering is by the column of a key that
the entity has an alias to sort by for, or by a name on a join, where the name has letters, digits
and underscores only. Each join is along an owning relation, and all of it is declared but for the
suffix in its alias. The joins are so even when sorting fails. -/
theorem declared_of_sort (uses : List Use) (d : Definition) (settings : Settings)
    (steps : List Planner.Step) (tokens : List String) (scope : Scope) :
    let s := Planner.run (empty.usedBy uses, Planner.start d settings) steps
    let sorted := (sort d tokens scope).run.run (s.1, s.2.joins)
    (∀ e, s.1.catalog.Reaches d e → e.hooks.joins = ∅) → d.hooks.sorts = ∅ →
      (∀ clause ∈ sorted.2.2.clauses, s.1.catalog.Composes d clause) ∧
      ∀ orders, sorted.1 = .ok orders →
        ∀ o ∈ orders, o.Declared s.1.catalog d sorted.2.2 := by
  intro s sorted hjoins hsorts
  have hholding : Planner.Holding d (fun c js =>
      (∀ e, c.Reaches d e → e.hooks.joins = ∅) → js.Declared c d) s :=
    Planner.holding_run Joins.enduring_declared (sound_usedBy sound_empty uses)
      (fun _ => Joins.declared_none) settings steps
  have hsort := Sorts.triple_sort (fun t ht => sorts_declared hjoins ht) hsorts [] tokens scope
    (s.1, s.2.joins)
    ⟨hholding.registry, hholding.joins hjoins, fun o ho => absurd ho List.not_mem_nil⟩
  refine ⟨?_, fun orders horders => (hsort.1 orders horders).2.orders⟩
  cases hresult : sorted.1 with
  | ok orders => exact (hsort.1 orders hresult).2.joins.clauses
  | error err => exact (hsort.2 err hresult).2.joins.clauses

/-- Tasks by what comes behind them. What else the tokens say is in no ordering, and in no join. -/
theorem declared_of_tasks :
    let task := (Entity.task ["first", "next"]).define
    let uses : List Use := [.operation (.register task)]
    let steps : List Planner.Step := [.call (.join "first.1=1")]
    let tokens := ["title_desc", "next.title; DROP TABLE tasks", " next.first.due_asc ", "1=1.id"]
    let s := Planner.run (empty.usedBy uses, Planner.start task .usual) steps
    let sorted := (sort task tokens .all).run.run (s.1, s.2.joins)
    sorted.1.toOption = some [⟨"tasks.title", .descending⟩,
        ⟨"tasks_next_join_first_join.due", .ascending⟩] ∧
      sorted.2.2.clauses.map Join.aliasName =
        ["tasks_first_join", "tasks_next_join", "tasks_next_join_first_join"] ∧
      (∀ clause ∈ sorted.2.2.clauses, s.1.catalog.Composes task clause) ∧
      ∀ orders, sorted.1 = .ok orders → ∀ o ∈ orders, o.Declared s.1.catalog task sorted.2.2 := by
  intro task uses steps tokens
  let c := (Planner.run (empty.usedBy uses, Planner.start task .usual) steps).1.catalog
  have hentries : c.entries = [("Task", task)] := by rfl
  have hjoins : ∀ e, c.Reaches task e → e.hooks.joins = ∅ := by
    rintro e (rfl | ⟨name, hname⟩)
    · rfl
    · have hmem := Dict.find?_eq_some_iff.1 hname
      rw [hentries] at hmem
      rw [(Prod.mk.inj (List.mem_singleton.1 hmem)).2]
      rfl
  have hdeclared := declared_of_sort uses task .usual steps tokens .all hjoins rfl
  exact ⟨by decide +kernel, by decide +kernel, hdeclared⟩

end Registry
end RequestPlan
