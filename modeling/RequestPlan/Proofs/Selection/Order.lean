import RequestPlan.Proofs.Dict
import RequestPlan.Proofs.Selection.Remove

/-!
# Selections in order

* `Selection.Ordered`: at every level the aliases come in order, and each once. Unions keep it so
  (`Ordered.merge`), and what is left when a part is taken back (`Ordered.remove`).
* `Ordered.ext`: **a selection in order is known from its paths and its levels.** So unions may be
  taken in any grouping (`Ordered.merge_assoc`).
* `Ordered.pathTexts_eq`: with the same paths, they are listed in the same way.
-/

namespace RequestPlan

namespace Selection

variable {s t child : Selection} {a : String} {path : List String} {F : Selection → Prop}

/-- At every level the aliases of columns and of relations come in order, and each once. -/
inductive Ordered : Selection → Prop
  | level {columns : List String} {relations : List (String × Selection)}
      (hcolumns : columns.Pairwise (· < ·)) (hrelations : Entries.Ordered relations)
      (hbelow : ∀ e ∈ relations, Ordered e.2) : Ordered ⟨columns, relations⟩

theorem pairwise_insertName {name : String} {ns : List String} (h : ns.Pairwise (· < ·)) :
    (insertName name ns).Pairwise (· < ·) := by
  induction ns with
  | nil => exact List.pairwise_singleton _ _
  | cons n ns ih =>
    obtain ⟨hlt, hns⟩ := List.pairwise_cons.1 h
    rw [insertName]
    split
    · rename_i hname
      have hfirst : ∀ m ∈ n :: ns, name < m :=
        List.forall_mem_cons.2 ⟨hname, fun m hm => String.lt_trans hname (hlt m hm)⟩
      exact List.pairwise_cons.2 ⟨hfirst, h⟩
    · rename_i hname
      split
      · exact h
      · rename_i hne
        have hfirst : ∀ m ∈ insertName name ns, n < m := by
          intro m hm
          rcases mem_insertName.1 hm with rfl | hm
          · exact Entries.lt_of_not_lt_of_ne hname hne
          · exact hlt m hm
        exact List.pairwise_cons.2 ⟨hfirst, ih hns⟩

namespace Ordered

theorem columns (h : s.Ordered) : s.columns.Pairwise (· < ·) := by cases h; assumption

theorem relations (h : s.Ordered) : Entries.Ordered s.relations := by cases h; assumption

theorem of_mem (h : s.Ordered) {e : String × Selection} (he : e ∈ s.relations) : e.2.Ordered := by
  cases h with
  | level _ _ hbelow => exact hbelow e he

theorem empty : Selection.empty.Ordered :=
  .level .nil Entries.ordered_nil fun _ he => absurd he List.not_mem_nil

theorem addColumn (h : s.Ordered) (a : String) : (s.addColumn a).Ordered := by
  cases h with
  | level hcolumns hrelations hbelow =>
    exact .level (pairwise_insertName hcolumns) hrelations hbelow

/-- **The union of selections in order is in order.** -/
theorem merge (hs : s.Ordered) (ht : t.Ordered) : (s.merge t).Ordered := by
  induction t using induct generalizing s with
  | level columns relations ih =>
    have hcolumns : ∀ own : List String, own.Pairwise (· < ·) →
        (columns.foldl (fun names name => insertName name names) own).Pairwise (· < ·) := by
      clear ht
      induction columns with
      | nil => exact fun own hown => hown
      | cons name names ihnames => exact fun own hown => ihnames _ (pairwise_insertName hown)
    -- the relations come in one after the other
    have hbelow : ∀ own, Entries.Ordered own → (∀ e ∈ own, e.2.Ordered) →
        Entries.Ordered (mergeBelow own relations) ∧
          ∀ e ∈ mergeBelow own relations, e.2.Ordered := by
      have hrelations : ∀ e ∈ relations, e.2.Ordered := fun e he => ht.of_mem he
      clear ht
      induction relations with
      | nil => exact fun own hown hall => ⟨hown, hall⟩
      | cons e es ihes =>
        intro own hown hall
        obtain ⟨b, child⟩ := e
        obtain ⟨hchild, hes⟩ := List.forall_mem_cons.1 hrelations
        have hold : ((Entries.find? b own).getD Selection.empty).Ordered := by
          cases hfind : Entries.find? b own with
          | none => exact empty
          | some old => exact hall _ (Entries.mem_of_find? hfind)
        have hboth := ih (b, child) List.mem_cons_self hold hchild
        refine ihes (fun e he => ih e (List.mem_cons_of_mem _ he)) hes _ (hown.put b _) ?_
        intro e he
        rcases Entries.mem_put he with rfl | he
        · exact hboth
        · exact hall e he
    obtain ⟨hordered, hall⟩ := hbelow s.relations hs.relations fun e he => hs.of_mem he
    exact .level (hcolumns _ hs.columns) hordered hall

/-- **A selection stays in order when a part is taken back.** -/
theorem remove (patterns : PatternTree) (h : s.Ordered) : (s.remove patterns).Ordered := by
  induction s using induct generalizing patterns with
  | level columns relations ih =>
    have hrelations : Entries.Ordered (removeBelow patterns relations) := by
      have hkeys : (relations.map Prod.fst).Pairwise (· < ·) := List.pairwise_map.2 h.relations
      exact List.pairwise_map.1 (hkeys.sublist sublist_removeBelow)
    have hbelow : ∀ e ∈ removeBelow patterns relations, e.2.Ordered := by
      intro e he
      obtain ⟨child, hchild, -, -, hleft⟩ := mem_removeBelow.1 he
      have hordered : child.Ordered := h.of_mem hchild
      rw [hleft]
      exact left_cases hordered (ih _ hchild _ hordered)
    exact .level (h.columns.filter _) hrelations hbelow

/-! ## What is known of a selection in order -/

/-- There is one level behind the alias of a relation. -/
theorem at_cons (h : s.Ordered) (he : (a, child) ∈ s.relations) :
    s.At F (a :: path) ↔ child.At F path := by
  constructor
  · rintro ⟨⟨b, child'⟩, he', rfl, hat⟩
    have hfind := Entries.find?_of_mem h.relations he'
    rw [Entries.find?_of_mem h.relations he] at hfind
    cases hfind
    exact hat
  · intro hat
    exact ⟨(a, child), he, rfl, hat⟩

theorem exists_relation_iff : s.HasLevel [a] ↔ ∃ child, (a, child) ∈ s.relations := by
  constructor
  · rintro ⟨⟨b, child⟩, he, rfl, -⟩
    exact ⟨child, he⟩
  · rintro ⟨child, he⟩
    exact ⟨(a, child), he, rfl, trivial⟩

/-- **A selection in order is known from its paths and its levels.** -/
theorem ext (hs : s.Ordered) (ht : t.Ordered) (hpaths : ∀ path, path ∈ s.paths ↔ path ∈ t.paths)
    (hlevels : ∀ path, s.HasLevel path ↔ t.HasLevel path) : s = t := by
  have hcolumns : ∀ a path,
      s.At (fun u => a ∈ u.columns) path ↔ t.At (fun u => a ∈ u.columns) path := by
    intro a path
    rw [← concat_mem_paths, ← concat_mem_paths]
    exact hpaths _
  clear hpaths
  induction s using induct generalizing t with
  | level columns relations ih =>
    obtain ⟨columns', relations'⟩ := t
    have hnames : columns = columns' :=
      List.Pairwise.eq_of_mem_iff hs.columns ht.columns fun a => hcolumns a []
    have hbelow : ∀ a child child', (a, child) ∈ relations → (a, child') ∈ relations' →
        child = child' := by
      intro a child child' he he'
      refine ih (a, child) he (hs.of_mem he) (ht.of_mem he') (fun path => ?_) fun b path => ?_
      · exact (hs.at_cons he).symm.trans ((hlevels (a :: path)).trans (ht.at_cons he'))
      · exact (hs.at_cons he).symm.trans ((hcolumns b (a :: path)).trans (ht.at_cons he'))
    have hsame : relations = relations' := by
      refine hs.relations.eq_of_mem_iff ht.relations fun e => ?_
      obtain ⟨a, child⟩ := e
      constructor
      · intro he
        obtain ⟨child', he'⟩ := exists_relation_iff.1
          ((hlevels [a]).1 (exists_relation_iff.2 ⟨child, he⟩))
        rwa [hbelow a child child' he he']
      · intro he'
        obtain ⟨child', he⟩ := exists_relation_iff.1
          ((hlevels [a]).2 (exists_relation_iff.2 ⟨child, he'⟩))
        rwa [← hbelow a child' child he he']
    rw [hnames, hsame]

/-- **Unions of selections in order may be taken in any grouping.** -/
theorem merge_assoc {u : Selection} (hs : s.Ordered) (ht : t.Ordered) (hu : u.Ordered) :
    (s.merge t).merge u = s.merge (t.merge u) := by
  refine ((hs.merge ht).merge hu).ext (hs.merge (ht.merge hu)) (fun path => ?_) fun path => ?_
  · simp only [mem_paths_merge, or_assoc]
  · simp only [hasLevel_merge, or_assoc]

end Ordered

/-! ## The order of paths -/

/-- The columns of a level come before what is below its relations; otherwise the first aliases
that differ decide. -/
def Before : List String → List String → Prop
  | [a], [b] => a < b
  | [_], _ :: _ :: _ => True
  | a :: b :: path, c :: d :: path' => a < c ∨ a = c ∧ Before (b :: path) (d :: path')
  | _, _ => False

theorem before_asymm {path path' : List String} (h : Before path path') : ¬Before path' path := by
  induction path generalizing path' with
  | nil => cases path' <;> cases h
  | cons a path ih =>
    match path, path', h with
    | [], [b], h => exact String.lt_asymm h
    | [], _ :: _ :: _, _ => exact id
    | b :: path, c :: d :: path', h =>
      rintro (hca | ⟨rfl, hbelow⟩)
      · rcases h with hac | ⟨rfl, -⟩
        · exact String.lt_asymm hac hca
        · exact String.lt_irrefl _ hca
      · rcases h with hac | ⟨-, h⟩
        · exact String.lt_irrefl _ hac
        · exact ih h hbelow

theorem before_cons {b : List String} (hpath : path ≠ []) (hb : b ≠ []) :
    Before (a :: path) (a :: b) ↔ Before path b := by
  obtain ⟨c, path, rfl⟩ := List.exists_cons_of_ne_nil hpath
  obtain ⟨d, b, rfl⟩ := List.exists_cons_of_ne_nil hb
  rw [Before, or_iff_right (String.lt_irrefl a), and_iff_right rfl]

/-- **The paths of a selection in order are in order.** -/
theorem Ordered.pairwise_paths (h : s.Ordered) : s.paths.Pairwise Before := by
  induction s using induct with
  | level columns relations ih =>
    have hbelow : (pathsBelow relations).Pairwise Before := by
      have hall : ∀ e ∈ relations, e.2.paths.Pairwise Before := fun e he => ih e he (h.of_mem he)
      have hrelations : Entries.Ordered relations := h.relations
      clear ih h
      induction relations with
      | nil => exact List.Pairwise.nil
      | cons e es ihes =>
        obtain ⟨a, child⟩ := e
        obtain ⟨hlt, hes⟩ := List.pairwise_cons.1 hrelations
        obtain ⟨hchild, hall⟩ := List.forall_mem_cons.1 hall
        rw [pathsBelow, List.pairwise_append]
        refine ⟨List.pairwise_map.2 ?_, ihes hall hes, ?_⟩
        · refine hchild.imp_of_mem ?_
          intro path path' hpath hpath' hbefore
          exact (before_cons (ne_of_mem_of_not_mem hpath nil_not_mem_paths)
            (ne_of_mem_of_not_mem hpath' nil_not_mem_paths)).2 hbefore
        · -- the first aliases decide
          intro path hpath path' hpath'
          obtain ⟨rest, hrest, rfl⟩ := List.mem_map.1 hpath
          obtain ⟨e, he, rest', hrest', rfl⟩ := mem_pathsBelow.1 hpath'
          obtain ⟨b, rest, rfl⟩ :=
            List.exists_cons_of_ne_nil (ne_of_mem_of_not_mem hrest nil_not_mem_paths)
          obtain ⟨c, rest', rfl⟩ :=
            List.exists_cons_of_ne_nil (ne_of_mem_of_not_mem hrest' nil_not_mem_paths)
          exact .inl (hlt e he)
    rw [paths, List.pairwise_append]
    refine ⟨List.pairwise_map.2 h.columns, hbelow, ?_⟩
    intro path hpath path' hpath'
    obtain ⟨a, -, rfl⟩ := List.mem_map.1 hpath
    obtain ⟨e, -, rest, hrest, rfl⟩ := mem_pathsBelow.1 hpath'
    obtain ⟨b, rest, rfl⟩ :=
      List.exists_cons_of_ne_nil (ne_of_mem_of_not_mem hrest nil_not_mem_paths)
    exact trivial

/-- **Selections in order with the same paths list them in the same way**, whatever relations
there are below which nothing is selected. -/
theorem Ordered.pathTexts_eq (hs : s.Ordered) (ht : t.Ordered)
    (h : ∀ path, path ∈ s.paths ↔ path ∈ t.paths) : s.pathTexts = t.pathTexts := by
  have hasymm : Std.Asymm Before := ⟨fun _ _ hbefore => before_asymm hbefore⟩
  have hpaths : s.paths = t.paths :=
    List.Pairwise.eq_of_mem_iff hs.pairwise_paths ht.pairwise_paths h
  rw [pathTexts, pathTexts, hpaths]

end Selection
end RequestPlan
