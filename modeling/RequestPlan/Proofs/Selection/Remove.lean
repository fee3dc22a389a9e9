import RequestPlan.Proofs.Selection.Patterns
import RequestPlan.Proofs.Selection.Tree

/-!
# Parts of a selection that are taken back

* `Selection.left`: what patterns leave below a relation, and `mem_removeBelow`: the relations that
  stay, with what is left below them.
* `paths_remove`: **what patterns leave is what the scope of all but them allows.**
* `Selection.Laden`: below every relation a column is selected. `laden_remove_iff`: **a relation
  below which nothing is selected is taken back just when some pattern reaches to its level.**
-/

namespace RequestPlan
namespace Selection

variable {s child : Selection} {a : String} {path init : List String} {t : PatternTree}
  {F : Selection → Prop}

/-- What patterns leave below a relation that none of them covers. -/
def left (t : PatternTree) (a : String) (child : Selection) : Selection :=
  if (t.below a).isEmpty then child else child.remove (t.below a)

theorem left_of_below_eq_nil (h : t.below a = []) : left t a child = child := by
  rw [left, h]
  rfl

theorem left_of_below_ne_nil (h : t.below a ≠ []) : left t a child = child.remove (t.below a) := by
  rw [left, if_neg fun hempty => h (List.isEmpty_iff.1 hempty)]

theorem left_cases {P : Selection → Prop} (hall : P child)
    (hremove : P (child.remove (t.below a))) : P (left t a child) := by
  unfold left
  split
  · exact hall
  · exact hremove

theorem removeBelow_cons {es : List (String × Selection)} :
    removeBelow t ((a, child) :: es) =
      if t.covers a || (left t a child).isEmpty then removeBelow t es
      else (a, left t a child) :: removeBelow t es := by
  rw [removeBelow]
  cases t.covers a with
  | true => rfl
  | false =>
    simp only [Bool.false_or, Bool.false_eq_true, if_false]
    rfl

/-- The relations that stay, with what is left below them. -/
theorem mem_removeBelow {e : String × Selection} {es : List (String × Selection)} :
    e ∈ removeBelow t es ↔ ∃ child, (e.1, child) ∈ es ∧ t.covers e.1 = false ∧
      e.2.isEmpty = false ∧ e.2 = left t e.1 child := by
  induction es with
  | nil => simp [removeBelow]
  | cons e' es ih =>
    obtain ⟨a, child⟩ := e'
    have hcons : (∃ child', (e.1, child') ∈ (a, child) :: es ∧ t.covers e.1 = false ∧
        e.2.isEmpty = false ∧ e.2 = left t e.1 child') ↔
        (e = (a, left t a child) ∧ t.covers a = false ∧ (left t a child).isEmpty = false) ∨
          e ∈ removeBelow t es := by
      rw [ih]
      constructor
      · rintro ⟨child', hmem, hcovers, hempty, hleft⟩
        rcases List.mem_cons.1 hmem with hhead | htail
        · obtain ⟨rfl, rfl⟩ := Prod.mk.inj hhead
          exact .inl ⟨Prod.ext rfl hleft, hcovers, hleft ▸ hempty⟩
        · exact .inr ⟨child', htail, hcovers, hempty, hleft⟩
      · rintro (⟨rfl, hcovers, hempty⟩ | ⟨child', hmem, hrest⟩)
        · exact ⟨child, List.mem_cons_self, hcovers, hempty, rfl⟩
        · exact ⟨child', List.mem_cons_of_mem _ hmem, hrest⟩
    rw [hcons, removeBelow_cons]
    cases hgone : t.covers a || (left t a child).isEmpty with
    | true =>
      rw [if_pos rfl]
      refine (or_iff_right ?_).symm
      rintro ⟨-, hcovers, hempty⟩
      rw [hcovers, hempty] at hgone
      cases hgone
    | false =>
      obtain ⟨hcovers, hempty⟩ := Bool.or_eq_false_iff.1 hgone
      rw [if_neg Bool.false_ne_true, List.mem_cons]
      simp only [hcovers, hempty, and_true]

/-- Relations go, and none changes its place. -/
theorem sublist_removeBelow {es : List (String × Selection)} :
    ((removeBelow t es).map Prod.fst).Sublist (es.map Prod.fst) := by
  induction es with
  | nil => exact List.Sublist.refl _
  | cons e es ih =>
    obtain ⟨a, child⟩ := e
    rw [removeBelow_cons]
    split
    · exact ih.cons _
    · exact ih.cons_cons _

/-! ## Paths -/

theorem paths_of_isEmpty (h : s.isEmpty = true) : s.paths = [] := by
  obtain ⟨columns, relations⟩ := s
  obtain ⟨hcolumns, hrelations⟩ := Bool.and_eq_true_iff.1 h
  cases List.isEmpty_iff.1 hcolumns
  cases List.isEmpty_iff.1 hrelations
  rfl

/-- The scope below an alias is the one of all but the patterns that go on there. -/
theorem allowsPath_except_cons : (Scope.except t).allowsPath (a :: path) =
    (!t.covers a && (Scope.except (t.below a)).allowsPath path) := by
  rw [Scope.allowsPath_cons]
  exact congrArg _ PatternTree.allowsPathBy_childBy_except

/-- Of the paths that start with an alias, the scope allows those that it allows below it. -/
theorem filter_map_cons (t : PatternTree) (a : String) (paths : List (List String)) :
    (paths.map (a :: ·)).filter (Scope.except t).allowsPath =
      if t.covers a then [] else
        (paths.filter (Scope.except (t.below a)).allowsPath).map (a :: ·) := by
  have hcons : (Scope.except t).allowsPath ∘ (a :: ·) =
      fun path => !t.covers a && (Scope.except (t.below a)).allowsPath path :=
    funext fun path => allowsPath_except_cons
  rw [List.filter_map, hcons]
  cases t.covers a with
  | true =>
    rw [if_pos rfl, List.map_eq_nil_iff, List.filter_eq_nil_iff]
    exact fun _ _ => Bool.false_ne_true
  | false => rfl

theorem paths_left (h : (child.remove (t.below a)).paths =
      child.paths.filter (Scope.except (t.below a)).allowsPath) :
    (left t a child).paths = child.paths.filter (Scope.except (t.below a)).allowsPath := by
  by_cases hbelow : t.below a = []
  · rw [left_of_below_eq_nil hbelow, hbelow]
    exact (List.filter_eq_self.2 fun _ _ => PatternTree.allowsPathBy_except_nil).symm
  · rw [left_of_below_ne_nil hbelow]
    exact h

/-- **What patterns leave is what the scope of all but them allows**, path by path. -/
theorem paths_remove (s : Selection) (t : PatternTree) :
    (s.remove t).paths = s.paths.filter (Scope.except t).allowsPath := by
  induction s using induct generalizing t with
  | level columns relations ih =>
    have hcolumns : (columns.filter fun a => !t.covers a).map (fun a => [a]) =
        (columns.map fun a => [a]).filter (Scope.except t).allowsPath := by
      rw [List.filter_map]
      refine congrArg (List.map _) (List.filter_congr fun a _ => ?_)
      exact (Scope.allowsPath_singleton (.except t) a).symm
    have hbelow : pathsBelow (removeBelow t relations) =
        (pathsBelow relations).filter (Scope.except t).allowsPath := by
      induction relations with
      | nil => rfl
      | cons e es ihes =>
        obtain ⟨a, child⟩ := e
        have hes := ihes fun e he => ih e (List.mem_cons_of_mem _ he)
        have hleft := paths_left (ih (a, child) List.mem_cons_self (t.below a))
        rw [pathsBelow, List.filter_append, filter_map_cons, ← hleft, ← hes, removeBelow_cons]
        cases hcovers : t.covers a with
        | true => rfl
        | false =>
          cases hempty : (left t a child).isEmpty with
          | true =>
            rw [paths_of_isEmpty hempty]
            rfl
          | false => rfl
    rw [remove, paths, paths, List.filter_append, hcolumns, hbelow]

/-! ## Levels -/

/-- A level with a relation is not empty. -/
theorem isEmpty_eq_false_of_at {F : Selection → Prop} (h : s.At F (init ++ [a])) :
    s.isEmpty = false := by
  refine Bool.eq_false_iff.2 fun hempty => ?_
  have hrelations : s.relations = [] := List.isEmpty_iff.1 (Bool.and_eq_true_iff.1 hempty).2
  cases init with
  | nil =>
    obtain ⟨e, he, -⟩ := h
    rw [hrelations] at he
    cases he
  | cons b init =>
    obtain ⟨e, he, -⟩ := h
    rw [hrelations] at he
    cases he

/-- Below every relation a column is selected, at its own level or deeper. -/
def Laden (s : Selection) : Prop := ∀ path, path ≠ [] → ¬s.At (fun u => u.paths = []) path

/-- Where no column is selected, some level is empty. -/
theorem exists_isEmpty (h : s.paths = []) : ∃ path, s.At (fun u => u.isEmpty = true) path := by
  induction s using induct with
  | level columns relations ih =>
    obtain ⟨hcolumns, hbelow⟩ := List.append_eq_nil_iff.1 h
    cases relations with
    | nil =>
      cases List.map_eq_nil_iff.1 hcolumns
      exact ⟨[], rfl⟩
    | cons e es =>
      obtain ⟨a, child⟩ := e
      obtain ⟨hchild, -⟩ := List.append_eq_nil_iff.1 hbelow
      obtain ⟨path, hat⟩ := ih (a, child) List.mem_cons_self (List.map_eq_nil_iff.1 hchild)
      exact ⟨a :: path, (a, child), List.mem_cons_self, rfl, hat⟩

theorem At.imp {G : Selection → Prop} (hFG : ∀ u, F u → G u) (h : s.At F path) : s.At G path := by
  induction path generalizing s with
  | nil => exact hFG s h
  | cons a path ih =>
    obtain ⟨e, he, rfl, hat⟩ := h
    exact ⟨e, he, rfl, ih hat⟩

/-- It is enough that no level below is empty. -/
theorem laden_iff : s.Laden ↔ ∀ path, path ≠ [] → ¬s.At (fun u => u.isEmpty = true) path := by
  constructor
  · intro h path hpath hat
    exact h path hpath (hat.imp fun _ => paths_of_isEmpty)
  · intro h path hpath hat
    -- an empty level is behind, and its aliases go on from these
    have hdeeper : ∃ rest, s.At (fun u => u.isEmpty = true) (path ++ rest) := by
      clear h hpath
      induction path generalizing s with
      | nil => exact exists_isEmpty hat
      | cons a path ih =>
        obtain ⟨e, he, rfl, hat⟩ := hat
        obtain ⟨rest, hrest⟩ := ih hat
        exact ⟨rest, e, he, rfl, hrest⟩
    obtain ⟨rest, hrest⟩ := hdeeper
    exact h (path ++ rest) (List.append_ne_nil_of_left_ne_nil hpath rest) hrest

end Selection

/-! ## Levels that patterns reach -/

/-- What is allowed is allowed from its start on. -/
theorem Scope.allowsPath_of_append {scope : Scope} {path rest : List String}
    (h : scope.allowsPath (path ++ rest) = true) : scope.allowsPath path = true := by
  induction path generalizing scope with
  | nil => rfl
  | cons a path ih =>
    rw [List.cons_append, Scope.allowsPath_cons] at h
    obtain ⟨hallows, hrest⟩ := Bool.and_eq_true_iff.1 h
    rw [Scope.allowsPath_cons, hallows, ih hrest]
    rfl

namespace PatternTree

variable {matching : Glob → String → Bool} {R : String → String → Prop} {patterns : List String}
  {t : PatternTree} {a : String} {init : List String}

/-- The patterns that go on below the aliases of a path. -/
def along (t : PatternTree) (path : List String) : PatternTree := path.foldl below t

theorem along_nil : along [] init = [] := by
  induction init with
  | nil => rfl
  | cons a init ih => exact ih

/-- A segment is matched with an alias. -/
def Matches (segment aliasName : String) : Prop :=
  ∃ g, Glob.parse segment = .ok g ∧ g.accepts aliasName = true

theorem decides_matches : Decides Glob.accepts Matches := by
  intro segment g a hg
  rw [Matches, hg]
  simp

/-- A pattern that is matched with a path goes on behind it. -/
def GoesOn (R : String → String → Prop) (segments path : List String) : Prop :=
  path.length < segments.length ∧ Agrees R segments path

theorem goesOn_cons {segment : String} {segments : List String} :
    GoesOn R (segment :: segments) (a :: init) ↔ R segment a ∧ GoesOn R segments init := by
  rw [GoesOn, agrees_cons, GoesOn, List.length_cons, List.length_cons, Nat.add_lt_add_iff_right]
  exact and_left_comm

/-- Below the aliases of a path there are the patterns that go on behind it. -/
theorem along_ne_nil (ht : t.Grown) :
    t.along init ≠ [] ↔ ∃ q, t.Spells q ∧ GoesOn Matches q init := by
  induction init generalizing t with
  | nil =>
    constructor
    · intro h
      obtain ⟨n, hn⟩ := List.exists_mem_of_ne_nil t h
      obtain ⟨q, hq⟩ := (ht n hn).exists_spells
      exact ⟨q, ⟨n, hn, hq⟩, List.length_pos_iff.2 hq.ne_nil, fun p hp => by simp at hp⟩
    · rintro ⟨q, ⟨n, hn, -⟩, -⟩
      exact List.ne_nil_of_mem hn
  | cons a init ih =>
    have hstep : (∃ q, t.Spells q ∧ GoesOn Matches q (a :: init)) ↔ _ :=
      exists_spells_cons goesOn_cons decides_matches ht
    have hnil : ¬GoesOn Matches [] init := fun h => Nat.not_lt_zero _ h.1
    rw [hstep, or_iff_right fun h => hnil h.2]
    exact ih ht.belowBy

/-- The same, pattern by pattern, where none of them ends. -/
theorem along_parse_ne_nil (h : parse patterns = .ok t)
    (hallows : (Scope.except t).allowsPath init = true) :
    t.along init ≠ [] ↔ ∃ p ∈ patterns, ∃ segments, segments? p = some segments ∧
      init.length < segments.length ∧ Agrees Matches segments init := by
  obtain ⟨ht, hsound, hkept⟩ := spells_parse h
  rw [along_ne_nil ht]
  constructor
  · rintro ⟨q, hq, hgoes⟩
    obtain ⟨p, hp, hsegments⟩ := hsound q hq
    exact ⟨p, hp, q, hsegments, hgoes⟩
  · rintro ⟨p, hp, segments, hsegments, -, hagrees⟩
    obtain ⟨q, hq, hstart⟩ := hkept p hp segments hsegments
    have hagrees' : Agrees Matches q init := Scope.agrees_of_prefix hstart hagrees
    rcases Nat.lt_or_ge init.length q.length with hlong | hshort
    · exact ⟨q, hq, hlong, hagrees'⟩
    · -- a shorter pattern in its place would end along the path
      have hnone := (allowsPathBy_except decides_matches ht).1 hallows
      exact absurd ⟨q, hq, hshort, hagrees'⟩ hnone

end PatternTree

namespace Selection

variable {s : Selection} {a : String} {init : List String} {t : PatternTree}

/-- **An empty level stays** where no pattern covers it and none reaches to it. -/
theorem at_isEmpty_remove :
    (s.remove t).At (fun u => u.isEmpty = true) (init ++ [a]) ↔
      s.At (fun u => u.isEmpty = true) (init ++ [a]) ∧
        (Scope.except t).allowsPath (init ++ [a]) = true ∧ init ≠ [] ∧ t.along init = [] := by
  induction init generalizing s t with
  | nil =>
    -- the level behind one alias is looked at
    refine iff_of_false ?_ fun h => h.2.2.1 rfl
    rintro ⟨e, he, -, hempty⟩
    obtain ⟨columns, relations⟩ := s
    obtain ⟨child, -, -, hnonempty, -⟩ := mem_removeBelow.1 he
    rw [At] at hempty
    rw [hempty] at hnonempty
    cases hnonempty
  | cons b init ih =>
    have hleft : ∀ child : Selection,
        (left t b child).At (fun u => u.isEmpty = true) (init ++ [a]) ↔
          child.At (fun u => u.isEmpty = true) (init ++ [a]) ∧
            (Scope.except (t.below b)).allowsPath (init ++ [a]) = true ∧
              (t.below b).along init = [] := by
      intro child
      by_cases hbelow : t.below b = []
      · rw [left_of_below_eq_nil hbelow, hbelow]
        exact (and_iff_left ⟨PatternTree.allowsPathBy_except_nil, PatternTree.along_nil⟩).symm
      · rw [left_of_below_ne_nil hbelow, ih]
        -- patterns go on here, so the level is not this one
        have hinit : (t.below b).along init = [] → init ≠ [] := by
          rintro halong rfl
          exact hbelow halong
        rw [and_iff_right_of_imp hinit]
    obtain ⟨columns, relations⟩ := s
    rw [List.cons_append, allowsPath_except_cons, Bool.and_eq_true, Bool.not_eq_true']
    constructor
    · rintro ⟨e, he, rfl, hat⟩
      obtain ⟨child, hchild, hcovers, -, hleft'⟩ := mem_removeBelow.1 he
      rw [hleft', hleft] at hat
      obtain ⟨hat, hallows, halong⟩ := hat
      exact ⟨⟨_, hchild, rfl, hat⟩, ⟨hcovers, hallows⟩, List.cons_ne_nil _ _, halong⟩
    · rintro ⟨⟨e, he, rfl, hat⟩, ⟨hcovers, hallows⟩, -, halong⟩
      have hbehind : (left t e.1 e.2).At (fun u => u.isEmpty = true) (init ++ [a]) :=
        (hleft e.2).2 ⟨hat, hallows, halong⟩
      refine ⟨(e.1, left t e.1 e.2), mem_removeBelow.2 ⟨e.2, he, hcovers, ?_, rfl⟩, rfl, hbehind⟩
      exact isEmpty_eq_false_of_at hbehind

/-- **A relation below which nothing is selected is taken back just when some pattern reaches to its
level.** So behind every relation that is left there is a column, unless an empty level lies below
several relations, none of which a pattern takes back, and no pattern goes on behind the aliases of
all but the last of them. -/
theorem laden_remove_iff {patterns : List String} (h : PatternTree.parse patterns = .ok t) :
    (s.remove t).Laden ↔ ∀ init a, init ≠ [] →
      s.At (fun u => u.isEmpty = true) (init ++ [a]) →
      (Scope.except t).allowsPath (init ++ [a]) = true →
        ∃ p ∈ patterns, ∃ segments, PatternTree.segments? p = some segments ∧
          init.length < segments.length ∧
          ∀ q ∈ segments.zip init, PatternTree.Matches q.1 q.2 := by
  rw [laden_iff]
  constructor
  · intro hladen init a hinit hat hallows
    refine (PatternTree.along_parse_ne_nil h (Scope.allowsPath_of_append hallows)).1 ?_
    intro halong
    exact hladen (init ++ [a]) (List.append_ne_nil_of_left_ne_nil hinit [a])
      (at_isEmpty_remove.2 ⟨hat, hallows, hinit, halong⟩)
  · intro hpatterns path hpath hat
    obtain ⟨init, a, rfl⟩ := (List.eq_nil_or_concat path).resolve_left hpath
    rw [List.concat_eq_append] at hat
    obtain ⟨hat, hallows, hinit, halong⟩ := at_isEmpty_remove.1 hat
    exact (PatternTree.along_parse_ne_nil h (Scope.allowsPath_of_append hallows)).2
      (hpatterns init a hinit hat hallows) halong

/-- A pattern that is longer than every path, and covers nothing, has an empty level found, and then
the relation before it. -/
theorem laden_remove_of_author : ∃ t, PatternTree.parse ["auth*.po?ts.body"] = .ok t ∧
    ((⟨["title"], [("author", ⟨[], [("posts", empty)]⟩)]⟩ : Selection).remove t).Laden := by
  obtain ⟨t, ht⟩ : ∃ t, PatternTree.parse ["auth*.po?ts.body"] = .ok t := ⟨_, rfl⟩
  refine ⟨t, ht, (laden_remove_iff ht).2 ?_⟩
  intro init a hinit hat _
  -- the only empty level is the one of the posts
  have hauthor : init = ["author"] := by
    match init, hinit, hat with
    | [b], _, ⟨e, he, hb, _⟩ =>
      cases List.mem_singleton.1 he
      exact congrArg (fun b => [b]) hb.symm
    | _ :: _ :: init, _, ⟨e, he, _, e', he', _, hat⟩ =>
      cases List.mem_singleton.1 he
      cases List.mem_singleton.1 he'
      have hnonempty : empty.isEmpty = false := isEmpty_eq_false_of_at hat
      cases hnonempty
  subst hauthor
  exact ⟨"auth*.po?ts.body", List.mem_singleton_self _, ["auth*", "po?ts", "body"], rfl, by decide,
    List.forall_mem_singleton.2 ⟨_, rfl, rfl⟩⟩

end Selection
end RequestPlan
