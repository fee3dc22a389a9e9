import Mathlib.Data.List.Infix
import RequestPlan.Proofs.Selection.Patterns
import RequestPlan.Proofs.Text.Blank

/-!
# Patterns with faults

* `PatternTree.FirstFault`: the first segment of a pattern that is no glob, and
  `PatternTree.endsAlong`: a pattern of a tree that ends before it.
* `PatternTree.insert_cases`: what a pattern that comes in can do at the node of its first segment.
* `PatternTree.insert_eq_error_iff`, `PatternTree.endsAlong_insert`: one pattern, the fault that is
  reported of it and the tree it leaves.
* `PatternTree.parse_faults`: **a fault is reported unless an earlier pattern ends before it**.
-/

namespace RequestPlan.PatternTree

variable {t t' : PatternTree} {path segment : String} {segments rest start : List String}
  {f : GlobFault} {e : Error}

/-! ## The nodes of segments -/

/-- The node of a segment. -/
def node? (t : PatternTree) (segment : String) : Option PatternNode :=
  t.find? fun n => n.glob.text = segment

/-- A change is made at the node of the segment, or at a fresh one, and nothing else is changed. -/
theorem exists_place (segment : String) (fresh : Except Error PatternNode) (t : PatternTree) :
    ∃ place : PatternNode → PatternTree,
      (∀ f, change segment fresh f t =
        (((node? t segment).elim fresh .ok).bind f).map place) ∧
      ∀ n, n.glob.text = segment → ∀ s,
        node? (place n) s = if s = segment then some n else node? t s := by
  induction t with
  | nil =>
    refine ⟨fun n => [n], fun f => ?_, fun n hn s => ?_⟩
    · show (fresh.bind fun n => (f n).bind fun n' => .ok [n']) = (fresh.bind f).map _
      cases fresh with
      | error e => rfl
      | ok n => cases f n <;> rfl
    · simp [node?, hn, eq_comm]
  | cons m t ih =>
    by_cases hm : m.glob.text = segment
    · refine ⟨(· :: t), fun f => ?_, fun n hn s => ?_⟩
      · simp [change, node?, hm, Except.bind]
      · by_cases hs : s = segment
        · simp [node?, hn, hs]
        · simp [node?, hn, hm, hs, Ne.symm hs]
    · obtain ⟨place, hchange, hplace⟩ := ih
      refine ⟨fun n => m :: place n, fun f => ?_, fun n hn s => ?_⟩
      · rw [change, if_neg hm, hchange]
        have hnode : node? (m :: t) segment = node? t segment := by simp [node?, hm]
        rw [hnode]
        cases ((node? t segment).elim fresh .ok).bind f <;> rfl
      · have hrest := hplace n hn s
        by_cases hs : m.glob.text = s
        · have hne : s ≠ segment := fun h => hm (hs.trans h)
          simp [node?, hs, hne]
        · simpa [node?, hs] using hrest

/-- The node of a segment is a node of the tree. -/
theorem mem_of_node? {n : PatternNode} (h : node? t segment = some n) :
    n ∈ t ∧ n.glob.text = segment :=
  ⟨List.mem_of_find?_eq_some h, by simpa using List.find?_some h⟩

/-! ## Patterns that end before others -/

/-- A pattern of the tree ends along the segments. -/
def endsAlong : PatternTree → List String → Bool
  | _, [] => false
  | t, segment :: rest =>
    match node? t segment with
    | none => false
    | some (.stop _) => true
    | some (.more _ below) => endsAlong below rest

/-- A pattern ends with a node, or along the segments behind it. -/
def endsFrom (n : PatternNode) (rest : List String) : Bool :=
  match n with
  | .stop _ => true
  | .more _ below => endsAlong below rest

theorem endsAlong_cons (t : PatternTree) (segment : String) (rest : List String) :
    endsAlong t (segment :: rest) = (node? t segment).elim false (endsFrom · rest) := by
  rw [endsAlong]
  cases node? t segment with
  | none => rfl
  | some n => cases n <;> rfl

theorem endsAlong_empty (start : List String) : endsAlong [] start = false := by
  cases start <;> rfl

/-! ## One pattern -/

/-- What a pattern does to the node of its first segment. -/
def goOn (path : String) (rest : List String) (n : PatternNode) : Except Error PatternNode :=
  match rest, n with
  | [], n => .ok (.stop n.glob)
  | _ :: _, .stop g => .ok (.stop g)
  | rest, .more g below => (insert path rest below).map (.more g)

theorem insert_cons : insert path (segment :: rest) t =
    change segment ((compileSegment path segment).map fun g => .more g []) (goOn path rest) t := by
  cases rest with
  | nil => rw [insert]; rfl
  | cons next rest =>
    rw [insert]
    · congr 1
      funext n
      cases n <;> rfl
    · nofun

theorem glob_goOn {n n' : PatternNode} (h : goOn path rest n = .ok n') : n'.glob = n.glob := by
  unfold goOn at h
  split at h
  · cases h
    rfl
  · cases h
    rfl
  · obtain ⟨below, -, rfl⟩ := Outcome.map_eq_ok.1 h
    rfl

/-- **What a pattern that comes in can do**: its first segment is no glob, or the pattern goes on at
the node of the segment, where nothing need be below yet, and nothing else is changed. -/
theorem insert_cases (path segment : String) (rest : List String) (ht : t.Grown) :
    (∃ f, Glob.parse segment = .error f ∧
      insert path (segment :: rest) t = .error (.invalidPattern path f.position f.fault)) ∨
    ∃ (n : PatternNode) (place : PatternNode → PatternTree), Glob.parse segment = .ok n.glob ∧
      Grown n.children ∧ (∀ start, endsAlong t (segment :: start) = endsFrom n start) ∧
      insert path (segment :: rest) t = (goOn path rest n).map place ∧
      ∀ n', n'.glob = n.glob → ∀ s start, endsAlong (place n') (s :: start) =
        if s = segment then endsFrom n' start else endsAlong t (s :: start) := by
  obtain ⟨place, hchange, hplace⟩ := exists_place segment
    ((compileSegment path segment).map fun g => .more g []) t
  have hends : ∀ n', n'.glob.text = segment → ∀ s start, endsAlong (place n') (s :: start) =
      if s = segment then endsFrom n' start else endsAlong t (s :: start) := by
    intro n' hn' s start
    rw [endsAlong_cons, endsAlong_cons, hplace n' hn']
    split <;> rfl
  rw [insert_cons, hchange]
  cases hnode : node? t segment with
  | some n =>
    obtain ⟨hmem, htext⟩ := mem_of_node? hnode
    have hrooted : Rooted n := .of_grown (ht n hmem)
    refine .inr ⟨n, place, htext ▸ hrooted.glob, hrooted.below, fun start => ?_, rfl,
      fun n' hn' => hends n' (hn' ▸ htext)⟩
    rw [endsAlong_cons, hnode]
    rfl
  | none =>
    rw [Option.elim, compileSegment]
    cases hparse : Glob.parse segment with
    | error f => exact .inl ⟨f, rfl, rfl⟩
    | ok g =>
      refine .inr ⟨.more g [], place, rfl, nofun, fun start => ?_, rfl,
        fun n' hn' => hends n' (hn' ▸ Glob.text_parse hparse)⟩
      rw [endsAlong_cons, hnode]
      exact (endsAlong_empty start).symm

/-- The first segment that is no glob, and those before it. -/
def FirstFault (segments start : List String) (f : GlobFault) : Prop :=
  ∃ s rest, segments = start ++ s :: rest ∧ (∀ s ∈ start, ∃ g, Glob.parse s = .ok g) ∧
    Glob.parse s = .error f

theorem not_firstFault_nil : ¬FirstFault [] start f := by
  rintro ⟨s, rest, heq, -⟩
  exact List.append_ne_nil_of_right_ne_nil start (List.cons_ne_nil s rest) heq.symm

theorem firstFault_cons : FirstFault (segment :: rest) start f ↔
    (start = [] ∧ Glob.parse segment = .error f) ∨
      ∃ start', start = segment :: start' ∧ (∃ g, Glob.parse segment = .ok g) ∧
        FirstFault rest start' f := by
  constructor
  · rintro ⟨s, behind, heq, hgood, hfault⟩
    cases start with
    | nil =>
      obtain ⟨rfl, rfl⟩ := List.cons.inj heq
      exact .inl ⟨rfl, hfault⟩
    | cons first start =>
      obtain ⟨rfl, rfl⟩ := List.cons.inj heq
      obtain ⟨hfirst, hgood⟩ := List.forall_mem_cons.1 hgood
      exact .inr ⟨start, rfl, hfirst, s, behind, rfl, hgood, hfault⟩
  · rintro (⟨rfl, hfault⟩ | ⟨start, rfl, hfirst, s, behind, rfl, hgood, hfault⟩)
    · exact ⟨segment, rest, rfl, by simp, hfault⟩
    · exact ⟨s, behind, rfl, List.forall_mem_cons.2 ⟨hfirst, hgood⟩, hfault⟩

/-- **The first fault of a pattern is reported, unless another pattern ends before it.** -/
theorem insert_eq_error_iff (ht : t.Grown) : insert path segments t = .error e ↔
    ∃ start f, FirstFault segments start f ∧ endsAlong t start = false ∧
      e = .invalidPattern path f.position f.fault := by
  induction segments generalizing t with
  | nil => exact iff_of_false (by rw [insert]; nofun) fun ⟨_, _, h, _⟩ => not_firstFault_nil h
  | cons segment rest ih =>
    obtain ⟨f, hparse, hinsert⟩ | ⟨n, place, hparse, hbelow, hends, hinsert, -⟩ :=
      insert_cases path segment rest ht
    · rw [hinsert]
      constructor
      · rintro ⟨⟩
        exact ⟨[], f, firstFault_cons.2 (.inl ⟨rfl, hparse⟩), rfl, rfl⟩
      · rintro ⟨start, f', hfault, -, rfl⟩
        obtain ⟨-, hf⟩ | ⟨-, -, ⟨g, hg⟩, -⟩ := firstFault_cons.1 hfault
        · rw [hparse] at hf
          cases hf
          rfl
        · rw [hparse] at hg
          cases hg
    · -- the fault is behind the segment
      have hbehind : (∃ start f, FirstFault (segment :: rest) start f ∧ endsAlong t start = false ∧
          e = .invalidPattern path f.position f.fault) ↔
          ∃ start f, FirstFault rest start f ∧ endsFrom n start = false ∧
            e = .invalidPattern path f.position f.fault := by
        constructor
        · rintro ⟨start, f, hfault, hnone, rfl⟩
          obtain ⟨-, hf⟩ | ⟨start, rfl, -, hfault⟩ := firstFault_cons.1 hfault
          · rw [hparse] at hf
            cases hf
          · exact ⟨start, f, hfault, hends start ▸ hnone, rfl⟩
        · rintro ⟨start, f, hfault, hnone, rfl⟩
          exact ⟨segment :: start, f, firstFault_cons.2 (.inr ⟨start, rfl, ⟨_, hparse⟩, hfault⟩),
            (hends start).trans hnone, rfl⟩
      rw [hinsert, Outcome.map_eq_error, hbehind]
      cases rest with
      | nil => exact iff_of_false nofun fun ⟨_, _, h, _⟩ => not_firstFault_nil h
      | cons next rest =>
        cases n with
        | stop g => exact iff_of_false nofun fun ⟨_, _, _, h, _⟩ => Bool.false_ne_true h.symm
        | more g below => exact Outcome.map_eq_error.trans (ih hbelow)

/-- **A pattern ends where it ends itself, and where one ended before.** -/
theorem endsAlong_insert (ht : t.Grown) (hne : segments ≠ [])
    (h : insert path segments t = .ok t') :
    endsAlong t' start = true ↔ endsAlong t start = true ∨ segments <+: start := by
  induction segments generalizing t t' start with
  | nil => exact absurd rfl hne
  | cons segment rest ih =>
    obtain ⟨f, -, hinsert⟩ | ⟨n, place, -, hbelow, hends, hinsert, hplace⟩ :=
      insert_cases path segment rest ht
    · rw [hinsert] at h
      cases h
    · rw [hinsert] at h
      obtain ⟨n', hgo, rfl⟩ := Outcome.map_eq_ok.1 h
      have hfrom : ∀ start, endsFrom n' start = true ↔ endsFrom n start = true ∨ rest <+: start := by
        intro start
        cases rest with
        | nil =>
          cases hgo
          exact iff_of_true rfl (.inr List.nil_prefix)
        | cons next rest =>
          cases n with
          | stop g =>
            cases hgo
            exact iff_of_true rfl (.inl rfl)
          | more g below =>
            obtain ⟨below', hinsert, rfl⟩ := Outcome.map_eq_ok.1 hgo
            exact ih hbelow (List.cons_ne_nil _ _) hinsert
      cases start with
      | nil => simp [endsAlong]
      | cons s start =>
        rw [hplace n' (glob_goOn hgo), List.cons_prefix_cons]
        by_cases hs : s = segment
        · subst hs
          rw [if_pos rfl, hfrom, hends, and_iff_right rfl]
        · rw [if_neg hs, or_iff_left fun h => hs h.1.symm]

/-! ## Lists of patterns -/

variable {paths before : List String} {p : String}

/-- The tree with a pattern more, unless it is blank. -/
def withPattern (t : PatternTree) (p : String) : Except Error PatternTree :=
  (Text.nonBlank? p).elim (.ok t) fun path => insert path (Text.splitOn '.' path) t

theorem parse_eq_foldlM (paths : List String) : parse paths = paths.foldlM withPattern [] := by
  rw [parse, List.foldlM_filterMap]
  refine congrArg (fun step => paths.foldlM step []) (funext fun t => funext fun p => ?_)
  rw [withPattern]
  cases Text.nonBlank? p <;> rfl

/-- Some pattern of a list ends along the segments. -/
def Covers (patterns start : List String) : Prop :=
  ∃ p ∈ patterns, ∃ q, segments? p = some q ∧ q <+: start

theorem grown_withPattern {t' : PatternTree} (ht : t.Grown) (h : withPattern t p = .ok t') :
    t'.Grown := by
  unfold withPattern at h
  cases hp : Text.nonBlank? p with
  | none =>
    rw [hp] at h
    cases h
    exact ht
  | some path =>
    rw [hp] at h
    exact (takes_insert ht (Text.splitOn_ne_nil _ _) h).1

theorem endsAlong_withPattern (ht : t.Grown) (h : withPattern t p = .ok t') :
    endsAlong t' start = true ↔
      endsAlong t start = true ∨ ∃ q, segments? p = some q ∧ q <+: start := by
  unfold withPattern at h
  unfold segments?
  cases hp : Text.nonBlank? p with
  | none =>
    rw [hp] at h
    cases h
    simp
  | some path =>
    rw [hp] at h
    rw [endsAlong_insert ht (Text.splitOn_ne_nil _ _) h]
    simp

theorem withPattern_eq_error_iff (ht : t.Grown) : withPattern t p = .error e ↔
    ∃ segments start f, segments? p = some segments ∧ FirstFault segments start f ∧
      endsAlong t start = false ∧ e = .invalidPattern (Text.trim p) f.position f.fault := by
  unfold withPattern segments?
  cases hp : Text.nonBlank? p with
  | none => exact iff_of_false nofun fun ⟨_, _, _, h, _⟩ => by cases h
  | some path =>
    rw [(Text.nonBlank?_eq_some_iff.1 hp).2]
    refine (insert_eq_error_iff ht).trans ⟨fun ⟨start, f, h⟩ => ⟨_, start, f, rfl, h⟩, ?_⟩
    rintro ⟨_, start, f, ⟨⟩, h⟩
    exact ⟨start, f, h⟩

/-- The patterns of a tree end where those that it was read from do. -/
theorem endsAlong_parse (h : parse paths = .ok t) :
    t.Grown ∧ ∀ start, endsAlong t start = true ↔ Covers paths start := by
  have hfold : ∀ (paths : List String) (t₀ : PatternTree), t₀.Grown →
      paths.foldlM withPattern t₀ = .ok t →
        t.Grown ∧ ∀ start, endsAlong t start = true ↔
          endsAlong t₀ start = true ∨ Covers paths start := by
    intro paths
    induction paths with
    | nil =>
      rintro t₀ ht₀ ⟨⟩
      exact ⟨ht₀, fun start => (or_iff_left fun ⟨_, h, _⟩ => List.not_mem_nil h).symm⟩
    | cons p paths ih =>
      intro t₀ ht₀ h
      obtain ⟨t₁, hstep, hfold⟩ := Outcome.foldlM_cons_eq_ok.1 h
      obtain ⟨ht, hends⟩ := ih t₁ (grown_withPattern ht₀ hstep) hfold
      refine ⟨ht, fun start => ?_⟩
      rw [hends, endsAlong_withPattern ht₀ hstep, or_assoc]
      simp [Covers]
  obtain ⟨ht, hends⟩ := hfold paths [] nofun (parse_eq_foldlM paths ▸ h)
  refine ⟨ht, fun start => (hends start).trans (or_iff_right ?_)⟩
  rw [endsAlong_empty]
  exact Bool.false_ne_true

/-- The error of a list of patterns is the first fault of one of them that no earlier one ends
before. -/
theorem parse_eq_error_iff : parse paths = .error e ↔
    ∃ before p after, paths = before ++ p :: after ∧ (∃ t, parse before = .ok t) ∧
      ∃ segments start f, segments? p = some segments ∧ FirstFault segments start f ∧
        ¬Covers before start ∧ e = .invalidPattern (Text.trim p) f.position f.fault := by
  rw [parse_eq_foldlM, Outcome.foldlM_eq_error_iff]
  simp only [← parse_eq_foldlM]
  constructor
  · rintro ⟨before, p, after, t, rfl, hbefore, hp⟩
    obtain ⟨ht, hends⟩ := endsAlong_parse hbefore
    obtain ⟨segments, start, f, hsegments, hfault, hnone, rfl⟩ := (withPattern_eq_error_iff ht).1 hp
    have hcovers : ¬Covers before start := by
      rw [← hends, hnone]
      exact Bool.false_ne_true
    exact ⟨before, p, after, rfl, ⟨t, hbefore⟩, segments, start, f, hsegments, hfault, hcovers, rfl⟩
  · rintro ⟨before, p, after, rfl, ⟨t, hbefore⟩, segments, start, f, hsegments, hfault, hcovers, rfl⟩
    obtain ⟨ht, hends⟩ := endsAlong_parse hbefore
    rw [← hends, Bool.not_eq_true] at hcovers
    exact ⟨before, p, after, t, rfl, hbefore,
      (withPattern_eq_error_iff ht).2 ⟨segments, start, f, hsegments, hfault, hcovers, rfl⟩⟩

/-- With a segment that is no glob there is a first one. -/
theorem exists_firstFault {s : String} (hs : ¬∃ g, Glob.parse s = .ok g)
    (start rest : List String) :
    ∃ start' f, FirstFault (start ++ s :: rest) start' f ∧ start' <+: start := by
  induction start with
  | nil =>
    cases hparse : Glob.parse s with
    | error f => exact ⟨[], f, firstFault_cons.2 (.inl ⟨rfl, hparse⟩), List.prefix_rfl⟩
    | ok g => exact absurd ⟨g, hparse⟩ hs
  | cons a start ih =>
    cases hparse : Glob.parse a with
    | error f => exact ⟨[], f, firstFault_cons.2 (.inl ⟨rfl, hparse⟩), List.nil_prefix⟩
    | ok g =>
      obtain ⟨start', f, hfault, hstart⟩ := ih
      exact ⟨a :: start', f, firstFault_cons.2 (.inr ⟨start', rfl, ⟨g, hparse⟩, hfault⟩),
        List.cons_prefix_cons.2 ⟨rfl, hstart⟩⟩

theorem Covers.of_prefix {patterns start' : List String} (h : Covers patterns start')
    (hstart : start' <+: start) : Covers patterns start := by
  obtain ⟨p, hp, q, hq, hprefix⟩ := h
  exact ⟨p, hp, q, hq, hprefix.trans hstart⟩

/-- **Patterns have a tree when each of their segments is a glob or stands behind an earlier
pattern.** -/
theorem parse_ok_iff : (∃ t, parse paths = .ok t) ↔
    ∀ before p after, paths = before ++ p :: after → ∀ start s rest,
      segments? p = some (start ++ s :: rest) →
        (∃ g, Glob.parse s = .ok g) ∨ Covers before start := by
  constructor
  · rintro ⟨t, ht⟩ before p after rfl start s rest hsegments
    by_contra hnot
    obtain ⟨hs, hcovers⟩ := not_or.1 hnot
    obtain ⟨start', f, hfault, hstart⟩ := exists_firstFault hs start rest
    have hparse := ht
    rw [parse_eq_foldlM, List.foldlM_append] at hparse
    obtain ⟨t₀, hbefore, -⟩ := Outcome.bind_eq_ok.1 hparse
    rw [← parse_eq_foldlM] at hbefore
    have herror : parse (before ++ p :: after) = .error _ :=
      parse_eq_error_iff.2 ⟨before, p, after, rfl, ⟨t₀, hbefore⟩, _, start', f, hsegments, hfault,
        fun h => hcovers (h.of_prefix hstart), rfl⟩
    rw [ht] at herror
    cases herror
  · intro h
    cases hparse : parse paths with
    | ok t => exact ⟨t, rfl⟩
    | error e =>
      obtain ⟨before, p, after, heq, -, _, start, f, hsegments, ⟨s, rest, rfl, -, hs⟩, hcovers, -⟩ :=
        parse_eq_error_iff.1 hparse
      obtain ⟨g, hg⟩ := (h before p after heq start s rest hsegments).resolve_right hcovers
      rw [hs] at hg
      cases hg

/-- **What is reported of faulty patterns.** A list of patterns has a tree exactly when each segment
of a pattern that is not blank is a glob or stands behind all of an earlier pattern. Otherwise the
error is that of the first pattern with another fault, at its first segment that is no glob. So a
list has a tree in every order exactly when all segments of all its patterns are globs. -/
theorem parse_faults (paths : List String) :
    ((∃ t, parse paths = .ok t) ↔
      ∀ before p after, paths = before ++ p :: after → ∀ start s rest,
        segments? p = some (start ++ s :: rest) →
          (∃ g, Glob.parse s = .ok g) ∨ ∃ b ∈ before, ∃ q, segments? b = some q ∧ q <+: start) ∧
    (∀ e, parse paths = .error e ↔
      ∃ before p after, paths = before ++ p :: after ∧ (∃ t, parse before = .ok t) ∧
        ∃ start s rest f, segments? p = some (start ++ s :: rest) ∧
          (∀ s ∈ start, ∃ g, Glob.parse s = .ok g) ∧ Glob.parse s = .error f ∧
          (¬∃ b ∈ before, ∃ q, segments? b = some q ∧ q <+: start) ∧
          e = .invalidPattern (Text.trim p) f.position f.fault) ∧
    ((∀ ps, ps.Perm paths → ∃ t, parse ps = .ok t) ↔
      ∀ p ∈ paths, ∀ segments, segments? p = some segments →
        ∀ s ∈ segments, ∃ g, Glob.parse s = .ok g) := by
  refine ⟨parse_ok_iff, fun e => parse_eq_error_iff.trans ?_, ?_, ?_⟩
  · constructor
    · rintro ⟨before, p, after, heq, hbefore, _, start, f, hsegments, ⟨s, rest, rfl, hgood, hf⟩, h⟩
      exact ⟨before, p, after, heq, hbefore, start, s, rest, f, hsegments, hgood, hf, h⟩
    · rintro ⟨before, p, after, heq, hbefore, start, s, rest, f, hsegments, hgood, hf, h⟩
      exact ⟨before, p, after, heq, hbefore, _, start, f, hsegments, ⟨s, rest, rfl, hgood, hf⟩, h⟩
  · -- nothing comes before a pattern that is moved to the front
    intro h p hp segments hsegments s hs
    obtain ⟨before, after, rfl⟩ := List.append_of_mem hp
    obtain ⟨start, rest, rfl⟩ := List.append_of_mem hs
    have hfront := parse_ok_iff.1 (h (p :: (before ++ after)) List.perm_middle.symm)
    refine (hfront [] p _ rfl start s rest hsegments).resolve_right ?_
    rintro ⟨_, hmem, -⟩
    exact List.not_mem_nil hmem
  · intro h ps hperm
    refine parse_ok_iff.2 fun before p after heq start s rest hsegments => .inl ?_
    have hp : p ∈ paths := hperm.subset (heq ▸ List.mem_append_right before List.mem_cons_self)
    exact h p hp _ hsegments s (List.mem_append_right start List.mem_cons_self)

/-- A fault behind a pattern that ends before it is reported in one order and not in the other. -/
theorem unreported_of_author :
    segments? "author.[bio" = some ["author", "[bio"] ∧ (¬∃ g, Glob.parse "[bio" = .ok g) ∧
      (∃ t, parse ["author", "author.[bio"] = .ok t) ∧
      parse ["author.[bio", "author"] = .error (.invalidPattern "author.[bio" 0 .range) := by
  refine ⟨rfl, ?_, ⟨_, rfl⟩, rfl⟩
  rintro ⟨g, hg⟩
  cases hg

end RequestPlan.PatternTree
