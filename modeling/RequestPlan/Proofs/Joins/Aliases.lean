import Mathlib.Data.List.Nodup
import RequestPlan.Proofs.Joins.Memo
import RequestPlan.Proofs.Joins.Steps

/-!
# Aliases of joins

Without hooks for joins, the alias of a join is the table that its path starts from, and behind it
the names along the path, each with a suffix.

* `aliasAlong`: the alias at the end of names; `aliasAlong_inj`: different names have different
  aliases, unless the word of the suffix is a word of a name.
* `Joins.Along`: every alias is one along names from the root table; `Joins.Apart`: different paths
  have different aliases.
* `keeps_leftJoin_along`, `Holds.apart`: **the first holds behind any paths, and the second where no
  name has the word of the suffix**.
-/

namespace RequestPlan

/-! ## Aliases along names -/

/-- The words of a text, between underscores. -/
def Text.words (s : String) : List String := splitOn '_' s

/-- The alias at the end of names, each of which makes it longer by its own suffix. -/
def aliasAlong (table : String) (names : List String) : String :=
  names.foldl (fun aliasName name => aliasName ++ "_" ++ name ++ "_join") table

variable {table : String} {names names' : List String}

theorem words_suffix (aliasName name : String) :
    Text.words (aliasName ++ "_" ++ name ++ "_join") =
      Text.words aliasName ++ (Text.words name ++ ["join"]) := by
  have hsuffix : "_join" = String.singleton '_' ++ "join" := by decide
  have hjoin : Text.splitOn '_' "join" = ["join"] := by decide
  have hassoc : aliasName ++ "_" ++ name ++ "_join" =
      (aliasName ++ String.singleton '_' ++ name) ++ String.singleton '_' ++ "join" := by
    rw [hsuffix]
    simp only [String.append_assoc]
    rfl
  rw [Text.words, hassoc, Text.splitOn_append, Text.splitOn_append, hjoin, List.append_assoc]
  rfl

/-- The words of an alias are those of the table and of the names, with `join` behind each name. -/
theorem words_aliasAlong : Text.words (aliasAlong table names) =
    Text.words table ++ names.flatMap fun name => Text.words name ++ ["join"] := by
  induction names generalizing table with
  | nil => exact (List.append_nil _).symm
  | cons name names ih =>
    have hcons : aliasAlong table (name :: names) =
        aliasAlong (table ++ "_" ++ name ++ "_join") names := rfl
    rw [hcons, ih, words_suffix, List.flatMap_cons, List.append_assoc]

theorem aliasAlong_ne (h : names ≠ []) : aliasAlong table names ≠ table := by
  intro heq
  have hwords := congrArg Text.words heq
  rw [words_aliasAlong] at hwords
  have hnone := List.append_right_eq_self.1 hwords
  obtain ⟨name, names, rfl⟩ := List.exists_cons_of_ne_nil h
  rw [List.flatMap_cons] at hnone
  simp at hnone

/-- What ends with a word that is not in it is read up to that word. -/
theorem append_cons_inj_of_not_mem {α : Type} {w : α} {ws ws' rest rest' : List α} (h : w ∉ ws)
    (h' : w ∉ ws') (heq : ws ++ w :: rest = ws' ++ w :: rest') : ws = ws' ∧ rest = rest' := by
  induction ws generalizing ws' with
  | nil =>
    cases ws' with
    | nil => exact ⟨rfl, (List.cons.inj heq).2⟩
    | cons v ws' => exact absurd (List.cons.inj heq).1 (List.ne_of_not_mem_cons h')
  | cons v ws ih =>
    cases ws' with
    | nil => exact absurd (List.cons.inj heq).1.symm (List.ne_of_not_mem_cons h)
    | cons v' ws' =>
      obtain ⟨hhead, htail⟩ := List.cons.inj heq
      obtain ⟨hws, hrest⟩ := ih (List.not_mem_of_not_mem_cons h)
        (List.not_mem_of_not_mem_cons h') htail
      exact ⟨by rw [hhead, hws], hrest⟩

/-- **Names are read back from their alias**, when none has the word of the suffix. -/
theorem aliasAlong_inj (h : ∀ name ∈ names, "join" ∉ Text.words name)
    (h' : ∀ name ∈ names', "join" ∉ Text.words name)
    (heq : aliasAlong table names = aliasAlong table names') : names = names' := by
  have hwords := congrArg Text.words heq
  rw [words_aliasAlong, words_aliasAlong] at hwords
  replace hwords := List.append_cancel_left hwords
  clear heq
  induction names generalizing names' with
  | nil =>
    cases names' with
    | nil => rfl
    | cons name' names' => simp at hwords
  | cons name names ih =>
    cases names' with
    | nil => simp at hwords
    | cons name' names' =>
      obtain ⟨hname, hnames⟩ := List.forall_mem_cons.1 h
      obtain ⟨hname', hnames'⟩ := List.forall_mem_cons.1 h'
      rw [List.flatMap_cons, List.flatMap_cons, List.append_assoc, List.append_assoc] at hwords
      -- a name has no `join` of its own, so that its words end at the first one
      obtain ⟨hfirst, hrest⟩ := append_cons_inj_of_not_mem hname hname' hwords
      have hsame : name = name' := by
        rw [← Text.joinWith_splitOn '_' name, ← Text.joinWith_splitOn '_' name']
        exact congrArg (Text.joinWith (String.singleton '_')) hfirst
      rw [hsame, ih hnames hnames' hrest]

/-! ## Entities that paths lead to -/

/-- No owning relation of an entity has an empty name, or one with the word of the suffix. -/
def Entity.NamesApart (e : Entity) : Prop :=
  ∀ name r, e.relation? name = some r → r.kind = .owning → name ≠ "" ∧ "join" ∉ Text.words name

theorem Entity.namesApart_iff {e : Entity} : e.NamesApart ↔
    ∀ p ∈ e.relations.entries, p.2.kind = .owning → p.1 ≠ "" ∧ "join" ∉ Text.words p.1 :=
  ⟨fun h p hp => h p.1 p.2 (Dict.find?_eq_some_iff.2 hp),
    fun h name r hr => h (name, r) (Dict.find?_eq_some_iff.1 hr)⟩

instance (e : Entity) : Decidable e.NamesApart := decidable_of_iff _ Entity.namesApart_iff.symm

namespace Catalog

variable {c : Catalog} {root d : Definition} {j k : Joined} {leg : Leg}

/-- Paths from an entity may lead to it and to the registered ones. -/
def Reaches (c : Catalog) (root d : Definition) : Prop := d = root ∨ ∃ name, c.find? name = some d

/-- What a step to a table says about its alias, its entity, and the name. -/
theorem owning_of_step (hhooks : ∀ d, c.Reaches root d → d.hooks.joins = ∅)
    (hj : c.Reaches root j.definition) {clause : Join} {name : String}
    (h : c.step j name = .ok (some (clause, d))) :
    clause.aliasName = j.aliasName ++ "_" ++ name ++ "_join" ∧ c.Reaches root d ∧
      ∃ e r, c.Reaches root e ∧ e.relation? name = some r ∧ r.kind = .owning := by
  obtain ⟨r, hr, hkind, hrelated, rfl⟩ := exists_owning_of_joinSegment (hhooks _ hj) h
  exact ⟨rfl, .inr ⟨_, hrelated⟩, _, r, hj, hr, hkind⟩

/-- Without hooks for joins, who arrives has followed owning relations, and the alias says which. -/
theorem along_of_arrive (hhooks : ∀ d, c.Reaches root d → d.hooks.joins = ∅)
    (hj : c.Reaches root j.definition) (h : c.arrive j names = .ok (some k)) :
    k.aliasName = aliasAlong j.aliasName names ∧
      ∀ name ∈ names, ∃ e r, c.Reaches root e ∧ e.relation? name = some r ∧ r.kind = .owning := by
  induction names generalizing j with
  | nil =>
    cases h
    exact ⟨rfl, fun _ hname => absurd hname List.not_mem_nil⟩
  | cons name names ih =>
    obtain ⟨clause, d, hstep, hrest⟩ := exists_step_of_arrive h
    obtain ⟨halias, hd, hname⟩ := owning_of_step hhooks hj hstep
    obtain ⟨hk, hnames⟩ := ih hd hrest
    refine ⟨?_, List.forall_mem_cons.2 ⟨hname, hnames⟩⟩
    rw [hk, halias]
    rfl

theorem IsLeg.along (h : c.IsLeg root leg) (hhooks : ∀ d, c.Reaches root d → d.hooks.joins = ∅) :
    leg.clause.aliasName = aliasAlong root.table leg.names ∧ ∀ name ∈ leg.names,
      ∃ e r, c.Reaches root e ∧ e.relation? name = some r ∧ r.kind = .owning :=
  along_of_arrive hhooks (.inl rfl) h.arrive

end Catalog

/-! ## Joins -/

namespace Joins

open Catalog (Reaches)

variable {c : Catalog} {root : Definition} {js : Joins} {legs : List Leg}

/-- The aliases of joins are aliases along names from the root table. -/
structure Along (c : Catalog) (root : Definition) (js : Joins) : Prop where
  clauses : ∀ clause ∈ js.clauses, ∃ names, names ≠ [] ∧
    clause.aliasName = aliasAlong root.table names
  memo : ∀ path j, js.find? path = some j → c.Reaches root j.definition ∧
    ∃ names, j.aliasName = aliasAlong root.table names

theorem along_none : Along c root .none where
  clauses _ h := absurd h List.not_mem_nil
  memo _ _ h := by cases h

theorem Along.not_mem (h : js.Along c root) : root.table ∉ js.clauses.map Join.aliasName := by
  intro hmem
  obtain ⟨clause, hclause, halias⟩ := List.mem_map.1 hmem
  obtain ⟨names, hne, hnames⟩ := h.clauses clause hclause
  exact aliasAlong_ne hne (hnames.symm.trans halias)

theorem steps_along (hhooks : ∀ d, c.Reaches root d → d.hooks.joins = ∅) : Steps c (Along c root)
    fun _ prior d => c.Reaches root d ∧ ∃ names, prior = aliasAlong root.table names where
  found hjs hfind := hjs.memo _ _ hfind
  add {js start prior d segment clause next} hjs hprior _ hnext := by
    obtain ⟨hd, names, hnames⟩ := hprior
    have hstep : c.step ⟨prior, d⟩ segment = .ok (some (clause, next)) := hnext
    obtain ⟨halias, hreaches, -⟩ := Catalog.owning_of_step hhooks hd hstep
    have hlonger : clause.aliasName = aliasAlong root.table (names ++ [segment]) := by
      rw [halias, aliasAlong, List.foldl_append]
      exact congrArg (· ++ "_" ++ segment ++ "_join") hnames
    -- the new alias has the segment more; the old ones stay
    refine ⟨⟨fun clause' hclause' => ?_, fun path j hj => ?_⟩, hreaches, _, hlonger⟩
    · rcases List.mem_append.1 hclause' with hold | hnew
      · exact hjs.clauses clause' hold
      · cases List.mem_singleton.1 hnew
        exact ⟨names ++ [segment], by simp, hlonger⟩
    · rw [find?, Joins.add, Dict.find?_put] at hj
      split at hj
      · cases hj
        exact ⟨hreaches, _, hlonger⟩
      · exact hjs.memo path j hj

/-- **Every alias is one along names from the root table**, whatever paths are joined. -/
theorem keeps_leftJoin_along (hhooks : ∀ d, c.Reaches root d → d.hooks.joins = ∅) (path : String) :
    Work.Keeps (Along c root) (leftJoin c root path) :=
  (steps_along hhooks).keeps_leftJoin (fun _ _ => ⟨.inl rfl, [], rfl⟩) path

/-- Clauses and paths are told apart by their aliases. -/
structure Apart (js : Joins) : Prop where
  clauses : (js.clauses.map Join.aliasName).Nodup
  memo : ∀ path path' j j', js.find? path = some j → js.find? path' = some j' →
    j.aliasName = j'.aliasName → path = path'

/-- No leg is joined twice. -/
theorem Holds.nodup (h : Holds c root js legs) : legs.Nodup := by
  -- legs stand for the entries of the memo, which are ordered by path
  have hentries : js.memo.entries.Nodup := js.memo.ordered.imp fun hlt heq => by
    rw [heq] at hlt
    exact String.lt_irrefl _ hlt
  exact ((h.memo.nodup_iff).1 hentries).of_map _

/-- **Different paths have different aliases**, when no name has the word of the suffix. -/
theorem Holds.apart (h : Holds c root js legs) (hhooks : ∀ d, c.Reaches root d → d.hooks.joins = ∅)
    (hnames : ∀ d, c.Reaches root d → d.toEntity.NamesApart) : js.Apart := by
  have hword : ∀ leg ∈ legs, ∀ name ∈ leg.names, "join" ∉ Text.words name := by
    intro leg hleg name hname
    obtain ⟨e, r, he, hr, hkind⟩ := ((h.isLeg leg hleg).along hhooks).2 name hname
    exact (hnames e he name r hr hkind).2
  have hsame : ∀ leg ∈ legs, ∀ l ∈ legs, leg.clause.aliasName = l.clause.aliasName → leg = l := by
    intro leg hleg l hl halias
    rw [((h.isLeg leg hleg).along hhooks).1, ((h.isLeg l hl).along hhooks).1] at halias
    have hpath : leg.names = l.names := aliasAlong_inj (hword leg hleg) (hword l hl) halias
    exact (h.isLeg leg hleg).unique (h.isLeg l hl) hpath
  refine ⟨?_, fun path path' j j' hj hj' halias => ?_⟩
  · rw [h.clauses, List.map_map]
    exact List.Nodup.map_on hsame h.nodup
  · obtain ⟨leg, hleg, hpath, rfl⟩ := h.exists_leg_of_find? hj
    obtain ⟨l, hl, hpath', rfl⟩ := h.exists_leg_of_find? hj'
    obtain rfl := hsame leg hleg l hl halias
    -- both paths are the names of the one leg, with dots between
    rw [← dotted_splitOn path, ← dotted_splitOn path', ← hpath, ← hpath']

/-- No leg has an empty name, when no owning relation has. -/
theorem not_mem_names_of_isLeg (hhooks : ∀ d, c.Reaches root d → d.hooks.joins = ∅)
    (hnames : ∀ d, c.Reaches root d → d.toEntity.NamesApart) (leg : Leg) (h : c.IsLeg root leg) :
    "" ∉ leg.names := by
  intro hmem
  obtain ⟨e, r, he, hr, hkind⟩ := (h.along hhooks).2 "" hmem
  exact (hnames e he "" r hr hkind).1 rfl

end Joins
end RequestPlan
