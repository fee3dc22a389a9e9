import RequestPlan.Proofs.Outcome
import RequestPlan.Selection.Scope

/-!
# Scopes and flat patterns

A scope keeps its patterns level by level. Patterns that start with the same segment share a
node, and one that ends there takes the place of those that go on.

* `PatternNode.Spells`, `PatternTree.Spells`: the patterns that are kept, by their segments.
* `PatternTree.Takes`: what is kept when a pattern comes in. A pattern may be given up only
  for one that it starts with.
* `spells_parse`: the patterns of a list that are kept, and those that stand for the others.
* `allowsPathBy_parse`: **level by level a scope allows the paths that its patterns, one by
  one, say**, whatever it means that a segment is matched with an alias.
-/

namespace RequestPlan

namespace PatternNode

/-- The patterns that a node is the start of, by their segments. -/
inductive Spells : PatternNode → List String → Prop
  | stop (g : Glob) : Spells (.stop g) [g.text]
  | more (g : Glob) {ns : List PatternNode} {n : PatternNode} {rest : List String}
      (hn : n ∈ ns) (hrest : Spells n rest) : Spells (.more g ns) (g.text :: rest)

/-- A node as patterns leave it: its glob is the one of its text, and it is the start of a
pattern. -/
inductive Grown : PatternNode → Prop
  | stop {g : Glob} (hglob : Glob.parse g.text = .ok g) : Grown (.stop g)
  | more {g : Glob} {ns : List PatternNode} (hglob : Glob.parse g.text = .ok g) (hne : ns ≠ [])
      (hbelow : ∀ n ∈ ns, Grown n) : Grown (.more g ns)

/-- The nodes of the level below. -/
def children : PatternNode → List PatternNode
  | .stop _ => []
  | .more _ ns => ns

theorem Grown.parse_text {n : PatternNode} (h : n.Grown) : Glob.parse n.glob.text = .ok n.glob := by
  cases h with
  | stop hglob => exact hglob
  | more hglob _ _ => exact hglob

/-- A grown node is the start of a pattern. -/
theorem Grown.exists_spells {n : PatternNode} (h : n.Grown) : ∃ segments, n.Spells segments := by
  induction h with
  | @stop g _ => exact ⟨_, .stop g⟩
  | @more g ns _ hne _ ih =>
    obtain ⟨n, ns, rfl⟩ := List.exists_cons_of_ne_nil hne
    obtain ⟨rest, hrest⟩ := ih n List.mem_cons_self
    exact ⟨_, .more g List.mem_cons_self hrest⟩

theorem Spells.ne_nil {n : PatternNode} {segments : List String} (h : n.Spells segments) :
    segments ≠ [] := by
  cases h <;> exact List.cons_ne_nil _ _

/-- Every pattern of a node starts with its segment. -/
theorem Spells.singleton_prefix {n : PatternNode} {segments : List String}
    (h : n.Spells segments) : [n.glob.text] <+: segments := by
  cases h with
  | stop g => exact List.prefix_rfl
  | more g hn hrest => exact ⟨_, rfl⟩

end PatternNode

namespace PatternTree

/-- The patterns that a tree keeps, by their segments. -/
def Spells (t : PatternTree) (segments : List String) : Prop := ∃ n ∈ t, n.Spells segments

/-- All nodes are as patterns leave them. -/
def Grown (t : PatternTree) : Prop := ∀ n ∈ t, n.Grown

/-- The segments of a pattern. A blank one has none. -/
def segments? (pattern : String) : Option (List String) :=
  (Text.nonBlank? pattern).map (Text.splitOn '.')

/-! ## A pattern comes in -/

/-- What is kept of the patterns `old` and of one more. -/
structure Takes (segments : List String) (old new : List String → Prop) : Prop where
  /-- Nothing else comes in. -/
  sound : ∀ q, new q → q = segments ∨ old q
  /-- The pattern itself is kept, or a shorter one for it. -/
  kept : ∃ q, new q ∧ q <+: segments
  /-- So is each of those that were there. -/
  stays : ∀ q, old q → ∃ q', new q' ∧ q' <+: q

/-- A pattern that ends with the segment of a node takes the place of all that go on. -/
theorem takes_stop (n : PatternNode) :
    Takes [n.glob.text] n.Spells (PatternNode.stop n.glob).Spells := by
  refine ⟨?_, ⟨_, .stop n.glob, List.prefix_rfl⟩, ?_⟩
  · intro q hq
    cases hq
    exact .inl rfl
  · intro q hq
    exact ⟨_, .stop n.glob, hq.singleton_prefix⟩

/-- A pattern that ends with a segment stands for all that go on. -/
theorem takes_stopped (g : Glob) (rest : List String) :
    Takes (g.text :: rest) (PatternNode.stop g).Spells (PatternNode.stop g).Spells :=
  ⟨fun _ hq => .inr hq, ⟨_, .stop g, ⟨rest, rfl⟩⟩, fun q hq => ⟨q, hq, List.prefix_rfl⟩⟩

theorem takes_more (g : Glob) {ns ns' : PatternTree} {rest : List String}
    (h : Takes rest (Spells ns) (Spells ns')) :
    Takes (g.text :: rest) (PatternNode.more g ns).Spells (PatternNode.more g ns').Spells := by
  refine ⟨?_, ?_, ?_⟩
  · intro q hq
    obtain _ | ⟨_, hn, hq⟩ := hq
    rcases h.sound _ ⟨_, hn, hq⟩ with rfl | ⟨m, hm, hq⟩
    · exact .inl rfl
    · exact .inr (.more g hm hq)
  · obtain ⟨q, ⟨n, hn, hq⟩, hstart⟩ := h.kept
    exact ⟨_, .more g hn hq, List.cons_prefix_cons.2 ⟨rfl, hstart⟩⟩
  · intro q hq
    obtain _ | ⟨_, hn, hq⟩ := hq
    obtain ⟨q', ⟨m, hm, hq'⟩, hstart⟩ := h.stays _ ⟨_, hn, hq⟩
    exact ⟨_, .more g hm hq', List.cons_prefix_cons.2 ⟨rfl, hstart⟩⟩

/-- What a change of the node of a segment can do. -/
theorem change_cases {segment : String} {fresh : Except Error PatternNode}
    {f : PatternNode → Except Error PatternNode} {t t' : PatternTree}
    (h : change segment fresh f t = .ok t') :
    (∃ l n r n', t = l ++ n :: r ∧ n.glob.text = segment ∧ f n = .ok n' ∧ t' = l ++ n' :: r) ∨
      ∃ n n', fresh = .ok n ∧ f n = .ok n' ∧ t' = t ++ [n'] := by
  induction t generalizing t' with
  | nil =>
    obtain ⟨n, hfresh, h⟩ := Outcome.bind_eq_ok.1 h
    obtain ⟨n', hn, h⟩ := Outcome.bind_eq_ok.1 h
    cases h
    exact .inr ⟨n, n', hfresh, hn, rfl⟩
  | cons m t ih =>
    rw [change] at h
    split at h
    · rename_i htext
      obtain ⟨n', hm, rfl⟩ := Outcome.map_eq_ok.1 h
      exact .inl ⟨[], m, t, n', rfl, htext, hm, rfl⟩
    · obtain ⟨ns, hrest, rfl⟩ := Outcome.map_eq_ok.1 h
      rcases ih hrest with ⟨l, n, r, n', rfl, htext, hn, rfl⟩ | ⟨n, n', hfresh, hn, rfl⟩
      · exact .inl ⟨m :: l, n, r, n', rfl, htext, hn, rfl⟩
      · exact .inr ⟨n, n', hfresh, hn, rfl⟩

/-- A node takes a pattern, so its level does. -/
theorem Takes.append_cons {segments : List String} {n n' : PatternNode}
    (h : Takes segments n.Spells n'.Spells) (l r : PatternTree) :
    Takes segments (Spells (l ++ n :: r)) (Spells (l ++ n' :: r)) := by
  refine ⟨?_, ?_, ?_⟩
  · rintro q ⟨m, hm, hq⟩
    rcases List.mem_append.1 hm with hm | hm
    · exact .inr ⟨m, List.mem_append_left _ hm, hq⟩
    · rcases List.mem_cons.1 hm with rfl | hm
      · rcases h.sound q hq with rfl | hq
        · exact .inl rfl
        · exact .inr ⟨n, List.mem_append_right _ List.mem_cons_self, hq⟩
      · exact .inr ⟨m, List.mem_append_right _ (List.mem_cons_of_mem _ hm), hq⟩
  · obtain ⟨q, hq, hstart⟩ := h.kept
    exact ⟨q, ⟨n', List.mem_append_right _ List.mem_cons_self, hq⟩, hstart⟩
  · rintro q ⟨m, hm, hq⟩
    rcases List.mem_append.1 hm with hm | hm
    · exact ⟨q, ⟨m, List.mem_append_left _ hm, hq⟩, List.prefix_rfl⟩
    · rcases List.mem_cons.1 hm with rfl | hm
      · obtain ⟨q', hq', hstart⟩ := h.stays q hq
        exact ⟨q', ⟨n', List.mem_append_right _ List.mem_cons_self, hq'⟩, hstart⟩
      · exact ⟨q, ⟨m, List.mem_append_right _ (List.mem_cons_of_mem _ hm), hq⟩, List.prefix_rfl⟩

/-- A node as it is found or made when a pattern comes in: nothing need go on below it yet. -/
structure Rooted (n : PatternNode) : Prop where
  glob : Glob.parse n.glob.text = .ok n.glob
  below : Grown n.children

theorem Rooted.of_grown {n : PatternNode} (h : n.Grown) : Rooted n := by
  refine ⟨h.parse_text, ?_⟩
  cases h with
  | stop _ => exact fun m hm => absurd hm List.not_mem_nil
  | more _ _ hbelow => exact hbelow

/-- A fresh node is of the segment, and is the start of nothing. -/
theorem fresh_node {path segment : String} {n : PatternNode}
    (h : (compileSegment path segment).map (fun g => PatternNode.more g []) = .ok n) :
    n.glob.text = segment ∧ Rooted n ∧ ∀ q, ¬n.Spells q := by
  obtain ⟨g, hg, rfl⟩ := Outcome.map_eq_ok.1 h
  unfold compileSegment at hg
  split at hg
  · rename_i g' hparse
    cases hg
    have htext : g.text = segment := Glob.text_parse hparse
    refine ⟨htext, ⟨?_, fun m hm => absurd hm List.not_mem_nil⟩, ?_⟩
    · rw [← htext] at hparse
      exact hparse
    · intro q hq
      obtain _ | ⟨_, hn, _⟩ := hq
      exact List.not_mem_nil hn
  · cases hg

/-- A level takes a pattern when the node of its segment does. -/
theorem takes_change {path segment : String} {segments : List String}
    {f : PatternNode → Except Error PatternNode} {t t' : PatternTree} (ht : t.Grown)
    (hnode : ∀ n n', n.glob.text = segment → Rooted n → f n = .ok n' →
      n'.Grown ∧ Takes segments n.Spells n'.Spells)
    (h : change segment ((compileSegment path segment).map fun g => .more g []) f t = .ok t') :
    t'.Grown ∧ Takes segments (Spells t) (Spells t') := by
  rcases change_cases h with ⟨l, n, r, n', rfl, htext, hn, rfl⟩ | ⟨n, n', hfresh, hn, rfl⟩
  · have hgrown : n.Grown := ht n (List.mem_append_right _ List.mem_cons_self)
    obtain ⟨hn', htakes⟩ := hnode n n' htext (.of_grown hgrown) hn
    refine ⟨?_, htakes.append_cons l r⟩
    intro m hm
    rcases List.mem_append.1 hm with hm | hm
    · exact ht m (List.mem_append_left _ hm)
    · rcases List.mem_cons.1 hm with rfl | hm
      · exact hn'
      · exact ht m (List.mem_append_right _ (List.mem_cons_of_mem _ hm))
  · obtain ⟨htext, hroot, hempty⟩ := fresh_node hfresh
    obtain ⟨hn', htakes⟩ := hnode n n' htext hroot hn
    refine ⟨?_, ?_⟩
    · intro m hm
      rcases List.mem_append.1 hm with hm | hm
      · exact ht m hm
      · rw [List.mem_singleton.1 hm]
        exact hn'
    · -- the fresh node brings no pattern of its own
      have hold : Spells (t ++ [n]) = Spells t := by
        funext q
        apply propext
        simp [Spells, or_and_right, exists_or, hempty]
      rw [← hold]
      exact htakes.append_cons t []

/-- **What is kept when a pattern comes in**: it, unless a shorter one is there, and all
others but those that it stands for. -/
theorem takes_insert {path : String} {segments : List String} {t t' : PatternTree}
    (ht : t.Grown) (hne : segments ≠ []) (h : insert path segments t = .ok t') :
    t'.Grown ∧ Takes segments (Spells t) (Spells t') := by
  induction segments generalizing t t' with
  | nil => exact absurd rfl hne
  | cons segment rest ih =>
    cases rest with
    | nil =>
      refine takes_change ht ?_ h
      rintro n n' rfl hroot hn
      cases hn
      exact ⟨.stop hroot.glob, takes_stop n⟩
    | cons next rest =>
      refine takes_change ht ?_ h
      rintro n n' rfl hroot hn
      cases n with
      | stop g =>
        cases hn
        exact ⟨.stop hroot.glob, takes_stopped g _⟩
      | more g below =>
        obtain ⟨below', hbelow, rfl⟩ := Outcome.map_eq_ok.1 hn
        obtain ⟨hgrown, htakes⟩ := ih hroot.below (List.cons_ne_nil _ _) hbelow
        obtain ⟨q, ⟨m, hm, -⟩, -⟩ := htakes.kept
        exact ⟨.more hroot.glob (List.ne_nil_of_mem hm) hgrown, takes_more g htakes⟩

/-- **What a tree keeps of the patterns that it was read from**: some of them, and for each
other one a shorter one. -/
theorem spells_parse {patterns : List String} {t : PatternTree} (h : parse patterns = .ok t) :
    t.Grown ∧ (∀ q, t.Spells q → ∃ p ∈ patterns, segments? p = some q) ∧
      ∀ p ∈ patterns, ∀ segments, segments? p = some segments →
        ∃ q, t.Spells q ∧ q <+: segments := by
  -- the same, from any tree on
  have hfold : ∀ (paths : List String) (t₀ t : PatternTree), t₀.Grown →
      paths.foldlM (fun t path => insert path (Text.splitOn '.' path) t) t₀ = .ok t →
        t.Grown ∧ (∀ q, t.Spells q → q ∈ paths.map (Text.splitOn '.') ∨ t₀.Spells q) ∧
          ∀ q, q ∈ paths.map (Text.splitOn '.') ∨ t₀.Spells q → ∃ q', t.Spells q' ∧ q' <+: q := by
    intro paths
    induction paths with
    | nil =>
      rintro t₀ t ht₀ ⟨⟩
      exact ⟨ht₀, fun q hq => .inr hq, fun q hq =>
        ⟨q, hq.resolve_left List.not_mem_nil, List.prefix_rfl⟩⟩
    | cons path paths ih =>
      intro t₀ t ht₀ hfold
      obtain ⟨t₁, hinsert, hfold⟩ := Outcome.foldlM_cons_eq_ok.1 hfold
      obtain ⟨ht₁, htakes⟩ := takes_insert ht₀ (Text.splitOn_ne_nil _ _) hinsert
      obtain ⟨ht, hsound, hkept⟩ := ih t₁ t ht₁ hfold
      refine ⟨ht, ?_, ?_⟩
      · intro q hq
        rcases hsound q hq with hq | hq
        · exact .inl (List.mem_cons_of_mem _ hq)
        · rcases htakes.sound q hq with rfl | hq
          · exact .inl List.mem_cons_self
          · exact .inr hq
      · -- what was kept first is kept, or something shorter for it
        have hstep : ∀ q, (∃ q', t₁.Spells q' ∧ q' <+: q) → ∃ q', t.Spells q' ∧ q' <+: q := by
          rintro q ⟨q₁, hq₁, hstart⟩
          obtain ⟨q', hq', hstart'⟩ := hkept q₁ (.inr hq₁)
          exact ⟨q', hq', hstart'.trans hstart⟩
        rintro q (hq | hq)
        · rcases List.mem_cons.1 hq with rfl | hq
          · exact hstep _ htakes.kept
          · exact hkept q (.inl hq)
        · exact hstep q (htakes.stays q hq)
  obtain ⟨ht, hsound, hkept⟩ := hfold _ [] t (fun n hn => absurd hn List.not_mem_nil) h
  refine ⟨ht, ?_, ?_⟩
  · intro q hq
    rcases hsound q hq with hq | ⟨n, hn, -⟩
    · obtain ⟨path, hpath, rfl⟩ := List.mem_map.1 hq
      obtain ⟨p, hp, hblank⟩ := List.mem_filterMap.1 hpath
      exact ⟨p, hp, by rw [segments?, hblank]; rfl⟩
    · exact absurd hn List.not_mem_nil
  · intro p hp segments hsegments
    obtain ⟨path, hpath, rfl⟩ := Option.map_eq_some_iff.1 hsegments
    exact hkept _ (.inl (List.mem_map.2 ⟨path, List.mem_filterMap.2 ⟨p, hp, hpath⟩, rfl⟩))

/-! ## Level by level -/

variable {matching : Glob → String → Bool} {R : String → String → Prop} {t : PatternTree}
  {a : String} {path : List String}

theorem coversBy_iff : t.coversBy matching a = true ↔ ∃ g, .stop g ∈ t ∧ matching g a = true := by
  simp only [coversBy, List.any_eq_true]
  constructor
  · rintro ⟨n, hn, h⟩
    cases n with
    | stop g => exact ⟨g, hn, h⟩
    | more g ns => cases h
  · rintro ⟨g, hg, h⟩
    exact ⟨_, hg, h⟩

theorem mem_belowBy {n : PatternNode} :
    n ∈ t.belowBy matching a ↔ ∃ g ns, .more g ns ∈ t ∧ matching g a = true ∧ n ∈ ns := by
  simp only [belowBy, List.mem_flatMap]
  constructor
  · rintro ⟨m, hm, hn⟩
    cases m with
    | stop g => exact absurd hn List.not_mem_nil
    | more g ns =>
      dsimp only at hn
      split at hn
      · rename_i hmatch
        exact ⟨g, ns, hm, hmatch, hn⟩
      · exact absurd hn List.not_mem_nil
  · rintro ⟨g, ns, hmore, hmatch, hn⟩
    refine ⟨_, hmore, ?_⟩
    dsimp only
    rwa [if_pos hmatch]

theorem Grown.belowBy (ht : t.Grown) : (t.belowBy matching a).Grown := by
  intro n hn
  obtain ⟨g, ns, hmore, -, hmem⟩ := mem_belowBy.1 hn
  cases ht _ hmore with
  | more _ _ hbelow => exact hbelow n hmem

/-- A pattern goes through an alias when one ends there or goes on below it. -/
theorem acceptsBy_iff (ht : t.Grown) :
    t.acceptsBy matching a = true ↔
      t.coversBy matching a = true ∨ ∃ q, (t.belowBy matching a).Spells q := by
  constructor
  · intro h
    simp only [acceptsBy, List.any_eq_true] at h
    obtain ⟨n, hn, hmatch⟩ := h
    have hgrown : n.Grown := ht n hn
    cases hgrown with
    | stop _ => exact .inl (coversBy_iff.2 ⟨_, hn, hmatch⟩)
    | @more g ns _ hne hbelow =>
      obtain ⟨m, ms, rfl⟩ := List.exists_cons_of_ne_nil hne
      obtain ⟨q, hq⟩ := (hbelow m List.mem_cons_self).exists_spells
      exact .inr ⟨q, m, mem_belowBy.2 ⟨g, _, hn, hmatch, List.mem_cons_self⟩, hq⟩
  · rintro (h | ⟨q, n, hn, -⟩)
    · exact acceptsBy_of_coversBy matching h
    · obtain ⟨g, ns, hmore, hmatch, -⟩ := mem_belowBy.1 hn
      simp only [acceptsBy, List.any_eq_true]
      exact ⟨_, hmore, hmatch⟩

/-- `R` says which segments are matched with which aliases. -/
def Decides (matching : Glob → String → Bool) (R : String → String → Prop) : Prop :=
  ∀ segment g a, Glob.parse segment = .ok g → (matching g a = true ↔ R segment a)

/-- Segments and aliases are matched, as far as both go. -/
def Agrees (R : String → String → Prop) (segments path : List String) : Prop :=
  ∀ q ∈ segments.zip path, R q.1 q.2

/-- All segments are matched with aliases. -/
def Ends (R : String → String → Prop) (segments path : List String) : Prop :=
  segments.length ≤ path.length ∧ Agrees R segments path

theorem agrees_nil : Agrees R [] path := fun q hq => by simp at hq

theorem agrees_cons {segment : String} {segments : List String} :
    Agrees R (segment :: segments) (a :: path) ↔ R segment a ∧ Agrees R segments path := by
  simp [Agrees]

theorem ends_cons {segment : String} {segments : List String} :
    Ends R (segment :: segments) (a :: path) ↔ R segment a ∧ Ends R segments path := by
  rw [Ends, agrees_cons, Ends, List.length_cons, List.length_cons, Nat.add_le_add_iff_right]
  exact and_left_comm

/-- The patterns that are matched with a path, by the first alias: one that ends there, or one
that goes on and is matched with the rest. -/
theorem exists_spells_cons {P : List String → List String → Prop}
    (hcons : ∀ {segment segments a path},
      P (segment :: segments) (a :: path) ↔ R segment a ∧ P segments path)
    (hR : Decides matching R) (ht : t.Grown) :
    (∃ q, t.Spells q ∧ P q (a :: path)) ↔
      (t.coversBy matching a = true ∧ P [] path) ∨
        ∃ q, (t.belowBy matching a).Spells q ∧ P q path := by
  constructor
  · rintro ⟨q, ⟨n, hn, hq⟩, hP⟩
    have hparse : Glob.parse n.glob.text = .ok n.glob := (ht n hn).parse_text
    cases hq with
    | stop g =>
      obtain ⟨hmatch, hP⟩ := hcons.1 hP
      exact .inl ⟨coversBy_iff.2 ⟨g, hn, (hR _ _ a hparse).2 hmatch⟩, hP⟩
    | more g hm hrest =>
      obtain ⟨hmatch, hP⟩ := hcons.1 hP
      exact .inr ⟨_, ⟨_, mem_belowBy.2 ⟨g, _, hn, (hR _ _ a hparse).2 hmatch, hm⟩, hrest⟩, hP⟩
  · rintro (⟨h, hP⟩ | ⟨q, ⟨m, hm, hq⟩, hP⟩)
    · obtain ⟨g, hg, hmatch⟩ := coversBy_iff.1 h
      exact ⟨_, ⟨_, hg, .stop g⟩, hcons.2 ⟨(hR _ _ a (ht _ hg).parse_text).1 hmatch, hP⟩⟩
    · obtain ⟨g, ns, hmore, hmatch, hmem⟩ := mem_belowBy.1 hm
      exact ⟨_, ⟨_, hmore, .more g hmem hq⟩,
        hcons.2 ⟨(hR _ _ a (ht _ hmore).parse_text).1 hmatch, hP⟩⟩

/-- A scope of patterns allows a path that one of them agrees with. -/
theorem allowsPathBy_only (hR : Decides matching R) (ht : t.Grown) (hpath : path ≠ []) :
    (Scope.only t).allowsPathBy matching path = true ↔ ∃ q, t.Spells q ∧ Agrees R q path := by
  induction path generalizing t with
  | nil => exact absurd rfl hpath
  | cons a path ih =>
    have hstep : (∃ q, t.Spells q ∧ Agrees R q (a :: path)) ↔ _ :=
      exists_spells_cons agrees_cons hR ht
    rw [hstep, and_iff_left agrees_nil, Scope.allowsPathBy, Bool.and_eq_true, Scope.allowsBy,
      acceptsBy_iff ht, Scope.childBy]
    by_cases hcovers : t.coversBy matching a = true
    · simp [hcovers]
    · rw [if_neg hcovers]
      simp only [hcovers, Bool.false_eq_true, false_or]
      cases path with
      | nil => simp [Scope.allowsPathBy, Agrees]
      | cons b path =>
        rw [ih ht.belowBy (List.cons_ne_nil _ _)]
        refine and_iff_right_of_imp ?_
        rintro ⟨q, hq, -⟩
        exact ⟨q, hq⟩

/-- Where there are no patterns, none ends along a path. -/
theorem allowsPathBy_except_nil : (Scope.except []).allowsPathBy matching path = true := by
  cases path with
  | nil => rfl
  | cons a path => exact Scope.allowsPathBy_all matching path

/-- Below an alias nothing is forbidden unless a pattern goes on there. -/
theorem allowsPathBy_childBy_except :
    ((Scope.except t).childBy matching a).allowsPathBy matching path =
      (Scope.except (t.belowBy matching a)).allowsPathBy matching path := by
  rw [Scope.childBy]
  cases t.belowBy matching a with
  | cons n ns => rfl
  | nil => exact (Scope.allowsPathBy_all matching path).trans allowsPathBy_except_nil.symm

/-- A scope without patterns allows a path along which none of them ends. -/
theorem allowsPathBy_except (hR : Decides matching R) (ht : t.Grown) :
    (Scope.except t).allowsPathBy matching path = true ↔ ¬∃ q, t.Spells q ∧ Ends R q path := by
  induction path generalizing t with
  | nil =>
    refine iff_of_true rfl ?_
    rintro ⟨q, ⟨n, -, hq⟩, hlength, -⟩
    exact hq.ne_nil (List.length_eq_zero_iff.1 (Nat.le_zero.1 hlength))
  | cons a path ih =>
    have hstep : (∃ q, t.Spells q ∧ Ends R q (a :: path)) ↔ _ := exists_spells_cons ends_cons hR ht
    have hnil : Ends R [] path := ⟨Nat.zero_le _, agrees_nil⟩
    rw [hstep, and_iff_left hnil, Scope.allowsPathBy, Bool.and_eq_true,
      allowsPathBy_childBy_except, ih ht.belowBy, Scope.allowsBy, Bool.not_eq_true', not_or,
      Bool.not_eq_true]

end PatternTree

/-! ## Pattern by pattern -/

namespace Scope

open PatternTree

/-- A shorter pattern agrees with all that a longer one agrees with. -/
theorem agrees_of_prefix {R : String → String → Prop} {q segments path : List String}
    (hstart : q <+: segments) (h : Agrees R segments path) : Agrees R q path := by
  obtain ⟨rest, rfl⟩ := hstart
  intro p hp
  refine h p ?_
  obtain ⟨i, hi, rfl⟩ := List.mem_iff_getElem.1 hp
  rw [List.length_zip] at hi
  refine List.mem_iff_getElem.2 ⟨i, by rw [List.length_zip, List.length_append]; omega, ?_⟩
  rw [List.getElem_zip, List.getElem_zip, List.getElem_append_left]

variable {matching : Glob → String → Bool} {R : String → String → Prop} {patterns : List String}
  {t : PatternTree} {path : List String}

/-- Some pattern of a list agrees with a path. -/
theorem allowsPathBy_parseOnly (hR : Decides matching R) (h : PatternTree.parse patterns = .ok t)
    (hpath : path ≠ []) :
    (Scope.only t).allowsPathBy matching path = true ↔
      ∃ p ∈ patterns, ∃ segments, segments? p = some segments ∧ Agrees R segments path := by
  obtain ⟨ht, hsound, hkept⟩ := spells_parse h
  rw [allowsPathBy_only hR ht hpath]
  constructor
  · rintro ⟨q, hq, hagrees⟩
    obtain ⟨p, hp, hsegments⟩ := hsound q hq
    exact ⟨p, hp, q, hsegments, hagrees⟩
  · rintro ⟨p, hp, segments, hsegments, hagrees⟩
    obtain ⟨q, hq, hstart⟩ := hkept p hp segments hsegments
    exact ⟨q, hq, agrees_of_prefix hstart hagrees⟩

/-- No pattern of a list ends along a path. -/
theorem allowsPathBy_parseExcept (hR : Decides matching R)
    (h : PatternTree.parse patterns = .ok t) :
    (Scope.except t).allowsPathBy matching path = true ↔
      ¬∃ p ∈ patterns, ∃ segments, segments? p = some segments ∧ Ends R segments path := by
  obtain ⟨ht, hsound, hkept⟩ := spells_parse h
  rw [allowsPathBy_except hR ht]
  refine not_congr ⟨?_, ?_⟩
  · rintro ⟨q, hq, hends⟩
    obtain ⟨p, hp, hsegments⟩ := hsound q hq
    exact ⟨p, hp, q, hsegments, hends⟩
  · rintro ⟨p, hp, segments, hsegments, hlength, hagrees⟩
    obtain ⟨q, hq, hstart⟩ := hkept p hp segments hsegments
    exact ⟨q, hq, Nat.le_trans hstart.length_le hlength, agrees_of_prefix hstart hagrees⟩

/-- **Level by level a scope allows the paths that its patterns, one by one, say.** The scope
of a list of patterns allows a path when some pattern that is not blank is matched with it as
far as both go; the scope of all but them does when none is matched with the path or a start of
it. This holds whatever it means that a segment is matched with an alias, and so the order of
the patterns does not matter. -/
theorem allowsPathBy_parse
    (hR : ∀ segment g a, Glob.parse segment = .ok g → (matching g a = true ↔ R segment a))
    (h : PatternTree.parse patterns = .ok t) (hpath : path ≠ []) :
    parseOnly patterns = .ok (.only t) ∧ parseExcept patterns = .ok (.except t) ∧
      ((Scope.only t).allowsPathBy matching path = true ↔
        ∃ p ∈ patterns, ∃ segments, segments? p = some segments ∧
          ∀ q ∈ segments.zip path, R q.1 q.2) ∧
      ((Scope.except t).allowsPathBy matching path = true ↔
        ¬∃ p ∈ patterns, ∃ segments, segments? p = some segments ∧
          segments.length ≤ path.length ∧ ∀ q ∈ segments.zip path, R q.1 q.2) ∧
      ∀ patterns' t', (∀ p, p ∈ patterns' ↔ p ∈ patterns) →
        PatternTree.parse patterns' = .ok t' →
          (Scope.only t').allowsPathBy matching path = (Scope.only t).allowsPathBy matching path ∧
          (Scope.except t').allowsPathBy matching path =
            (Scope.except t).allowsPathBy matching path := by
  refine ⟨?_, ?_, allowsPathBy_parseOnly hR h hpath, allowsPathBy_parseExcept hR h, ?_⟩
  · rw [parseOnly, h]
    rfl
  · rw [parseExcept, h]
    rfl
  · intro patterns' t' hsame h'
    constructor
    · rw [Bool.eq_iff_iff, allowsPathBy_parseOnly hR h' hpath, allowsPathBy_parseOnly hR h hpath]
      simp only [hsame]
    · rw [Bool.eq_iff_iff, allowsPathBy_parseExcept hR h', allowsPathBy_parseExcept hR h]
      simp only [hsame]

/-- Patterns that share a level, and one that takes the place of another. -/
theorem allowsPathBy_of_authors :
    ∃ t, PatternTree.parse ["author.bio", "a*.name", "author.bio.text", " ", "*_at"] = .ok t ∧
      (Scope.only t).allowsPathBy Glob.accepts ["author", "name"] = true ∧
      (Scope.except t).allowsPathBy Glob.accepts ["author", "bio", "text"] = false := by
  have hR : ∀ segment g a, Glob.parse segment = .ok g →
      (g.accepts a = true ↔ ∃ g, Glob.parse segment = .ok g ∧ g.accepts a = true) := by
    intro segment g a hg
    simp [hg]
  obtain ⟨t, ht⟩ : ∃ t, PatternTree.parse
      ["author.bio", "a*.name", "author.bio.text", " ", "*_at"] = .ok t := ⟨_, rfl⟩
  refine ⟨t, ht, ?_, ?_⟩
  · obtain ⟨-, -, honly, -⟩ := allowsPathBy_parse hR ht (List.cons_ne_nil "author" ["name"])
    refine honly.2 ⟨"a*.name", by decide, ["a*", "name"], rfl, ?_⟩
    exact List.forall_mem_cons.2 ⟨⟨_, rfl, rfl⟩, List.forall_mem_singleton.2 ⟨_, rfl, rfl⟩⟩
  · obtain ⟨-, -, -, hexcept, -⟩ :=
      allowsPathBy_parse hR ht (List.cons_ne_nil "author" ["bio", "text"])
    refine Bool.eq_false_iff.2 fun hallows => hexcept.1 hallows ?_
    refine ⟨"author.bio", by decide, ["author", "bio"], rfl, by decide, ?_⟩
    exact List.forall_mem_cons.2 ⟨⟨_, rfl, rfl⟩, List.forall_mem_singleton.2 ⟨_, rfl, rfl⟩⟩

end Scope
end RequestPlan
