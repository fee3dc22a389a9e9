import RequestPlan.Proofs.Planner.Selects

/-!
# What is taken back

* `pathTexts_remove`: **taking patterns back comes to selecting within the scope of all but them.**
* `Planner.emptyBehind_of_posts`: a planner may keep a relation below which nothing is selected,
  where `Selection.laden_remove_iff` says so.
-/

namespace RequestPlan

namespace Selection

variable {patterns : List String} {t : PatternTree}

/-- A selection without dots in its aliases loses the texts that the scope does not allow. -/
theorem pathTexts_remove_of_dotless (s : Selection) (t : PatternTree)
    (hs : ∀ path ∈ s.paths, ∀ a ∈ path, '.' ∉ a.toList) :
    (s.remove t).pathTexts =
      s.pathTexts.filter fun text => (Scope.except t).allowsPath (Text.splitOn '.' text) := by
  have hread : ∀ path ∈ s.paths, Text.splitOn '.' (Text.joinWith "." path) = path := by
    intro path hpath
    have hne : path ≠ [] := ne_of_mem_of_not_mem hpath nil_not_mem_paths
    exact Text.splitOn_joinWith hne (hs path hpath)
  rw [pathTexts, pathTexts, List.filter_map, paths_remove]
  refine congrArg _ (List.filter_congr fun path hpath => ?_)
  rw [Function.comp_apply, hread path hpath]

/-- What is left of what paths select is what they select within the scope of all but the
patterns. -/
theorem pathTexts_remove_of_select {r : Registry} (hs : r.Sound) {depth : Nat} {entity : String}
    {paths : List String} {s s' : Selection}
    (hall : r.result (Registry.select depth entity paths .all) = .ok s)
    (hexcept : r.result (Registry.select depth entity paths (.except t)) = .ok s') :
    (s.remove t).pathTexts = s'.pathTexts := by
  rw [(Registry.answers_select depth entity paths .all r rfl hs).1] at hall
  rw [(Registry.answers_select depth entity paths (.except t) r rfl hs).1] at hexcept
  obtain ⟨d, hfind⟩ := Catalog.exists_of_select hall
  have hordered : (s.remove t).Ordered := (Catalog.ordered_select hall).remove t
  refine hordered.pathTexts_eq (Catalog.ordered_select hexcept) fun path => ?_
  have hallowed : Scope.all.allowsPath path = true := Scope.allowsPathBy_all _ path
  rw [paths_remove, List.mem_filter, Catalog.mem_paths_select hall hfind,
    Catalog.mem_paths_select hexcept hfind, and_iff_right hallowed]
  constructor
  · rintro ⟨⟨hlength, hdeclares, hasks⟩, hallows⟩
    exact ⟨hlength, hdeclares, hallows, hasks⟩
  · rintro ⟨hlength, hdeclares, hallows, hasks⟩
    exact ⟨⟨hlength, hdeclares, hasks⟩, hallows⟩

/-- **Taking patterns back comes to selecting within the scope of all but them.** The dotted paths
of what is left of a selection, whose aliases have no dots, are those of the selection that the
scope allows, level by level, and in the same order. So it makes no difference whether paths are
selected without a scope and the patterns taken back then, or selected within the scope of all but
the patterns, whatever was done with the registry before. -/
theorem pathTexts_remove (h : PatternTree.parse patterns = .ok t) :
    Scope.parseExcept patterns = .ok (.except t) ∧
    (∀ s : Selection, (∀ path ∈ s.paths, ∀ a ∈ path, '.' ∉ a.toList) →
      (s.remove t).pathTexts =
        s.pathTexts.filter fun text => (Scope.except t).allowsPath (Text.splitOn '.' text)) ∧
    ∀ (uses : List Use) (depth : Nat) (entity : String) (paths : List String) (s s' : Selection),
      let r := Registry.empty.usedBy uses
      r.result (Registry.select depth entity paths .all) = .ok s →
      r.result (Registry.select depth entity paths (.except t)) = .ok s' →
        (s.remove t).pathTexts = s'.pathTexts := by
  refine ⟨?_, fun s hs => pathTexts_remove_of_dotless s t hs, ?_⟩
  · rw [Scope.parseExcept, h]
    rfl
  · intro uses depth entity paths s s' r hall hexcept
    have hsound : r.Sound := Registry.sound_usedBy Registry.sound_empty uses
    exact pathTexts_remove_of_select hsound hall hexcept

end Selection

namespace Planner

/-- Posts, users and notes are registered. -/
def postsAndMore : List Use :=
  [.operation (.register Entity.post.define), .operation (.register Entity.user.define),
    .operation (.register Entity.note.define)]

end Planner

namespace Selection

/-- A pattern within an alias, one that covers a relation, and one that is longer than every
path. -/
theorem pathTexts_remove_of_posts :
    let r := Registry.empty.usedBy Planner.postsAndMore
    let asked := ["*", "author.posts.title", "author.name", "writer", "notes"]
    ∃ t s s', PatternTree.parse ["wr*.mail", "author.posts", "notes.text.more", " "] = .ok t ∧
      r.result (Registry.select 3 "Post" asked .all) = .ok s ∧
      r.result (Registry.select 3 "Post" asked (.except t)) = .ok s' ∧
      (s.remove t).pathTexts = s'.pathTexts ∧
      (s.remove t).pathTexts =
        s.pathTexts.filter (fun text => (Scope.except t).allowsPath (Text.splitOn '.' text)) ∧
      s'.pathTexts = ["title", "author.name", "notes.text", "writer.name"] := by
  intro r asked
  have hexcept :
      (PatternTree.parse ["wr*.mail", "author.posts", "notes.text.more", " "]).toOption.map (fun t =>
        ((Registry.empty.usedBy Planner.postsAndMore).result
          (Registry.select 3 "Post" ["*", "author.posts.title", "author.name", "writer", "notes"]
            (.except t))).toOption.map pathTexts) =
      some (some ["title", "author.name", "notes.text", "writer.name"]) := by decide +kernel
  have hall : ((Registry.empty.usedBy Planner.postsAndMore).result
      (Registry.select 3 "Post" ["*", "author.posts.title", "author.name", "writer", "notes"]
        .all)).toOption.map paths =
      some [["title"], ["author", "name"], ["author", "posts", "title"], ["notes", "text"],
        ["writer", "mail"], ["writer", "name"]] := by decide +kernel
  obtain ⟨t, ht, hexcept⟩ := Outcome.exists_of_toOption hexcept
  obtain ⟨s', hs', htexts⟩ := Outcome.exists_of_toOption hexcept
  obtain ⟨s, hs, hpaths⟩ := Outcome.exists_of_toOption hall
  obtain ⟨-, hremove, hselect⟩ := pathTexts_remove ht
  refine ⟨t, s, s', ht, hs, hs', hselect Planner.postsAndMore 3 "Post" _ s s' hs hs', ?_, htexts⟩
  refine hremove s ?_
  rw [hpaths]
  decide

end Selection

namespace Planner

/-- **A relation may stay behind which nothing is selected**: the posts of an author are asked for
with an alias that they do not have, and no pattern reaches to them when something else is taken
back. -/
theorem emptyBehind_of_posts :
    let s := run (Registry.empty.usedBy postsAndMore, start Entity.post.define .usual)
      [.call (.select ["title", "author.posts.unknown"]), .call (.unselect ["slug"])]
    ∃ selection, s.2.selection = some selection ∧ selection.pathTexts = ["title"] ∧
      selection.At (fun level => level.paths = []) ["author", "posts"] ∧ ¬selection.Laden := by
  dsimp only
  have hselection : (run (Registry.empty.usedBy postsAndMore, start Entity.post.define .usual)
      [.call (.select ["title", "author.posts.unknown"]),
        .call (.unselect ["slug"])]).2.selection.map (fun selection => (selection.pathTexts,
          decide (selection.At (fun level => level.paths = []) ["author", "posts"]))) =
      some (["title"], true) := by decide +kernel
  obtain ⟨selection, hsome, hread⟩ := Option.map_eq_some_iff.1 hselection
  obtain ⟨htexts, hempty⟩ := Prod.mk.inj hread
  have hat := of_decide_eq_true hempty
  have hne : ["author", "posts"] ≠ [] := List.cons_ne_nil _ _
  exact ⟨selection, hsome, htexts, hat, fun hladen => hladen _ hne hat⟩

end Planner

end RequestPlan
