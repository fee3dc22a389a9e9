import Mathlib.Data.List.Forall2
import RequestPlan.Proofs.Planner.Growing
import RequestPlan.Proofs.Sorting.Tokens

/-!
# Calls that sort

* `Joins.enduring_faithful`: the joins of a planner are faithful to their paths, behind any steps.
* `Planner.ordering`, `run_sortScoped`: what a call that sorts does.
* `sortScoped_twice`: tokens may come in one call or in two.
* `sort_of_tokens`: **sort tokens depend neither on each other nor on what was joined before.**
-/

namespace RequestPlan

/-- Joins are faithful to their paths behind any paths and registrations. -/
theorem Joins.enduring_faithful {d : Definition} :
    Joins.Enduring d fun c js => js.Faithful c d where
  extend hextends h := h.extend hextends
  path _ path := Joins.keeps_leftJoin_faithful path

namespace Planner

variable {s : Registry × Planner} {scope : Scope} {tokens : List String}

/-! ## Calls -/

/-- What becomes of a planner that sorts. Joins stay in any case, and the orderings come behind
those that there are. -/
def ordering (p : Planner) : Except Error (List Order) × Joins → Except Error Unit × Planner
  | (.error err, js) => (.error err, { p with joins := js })
  | (.ok orders, js) => (.ok (), { p with joins := js, orders := p.orders ++ orders })

theorem tokensToSort_eq {p : Planner} (h : ∃ token ∈ tokens, Text.nonBlank? token ≠ none) :
    p.tokensToSort tokens = tokens.filterMap Text.nonBlank? ∧
      tokens.filterMap Text.nonBlank? ≠ [] := by
  have hne : tokens.filterMap Text.nonBlank? ≠ [] := by
    obtain ⟨token, hmem, htoken⟩ := h
    exact fun hnil => htoken (List.filterMap_eq_nil_iff.1 hnil token hmem)
  refine ⟨?_, hne⟩
  rw [tokensToSort]
  split
  · rename_i hnil
    exact absurd hnil hne
  · rfl

/-- **What a call that sorts does**: it adds what its tokens order by, or fails with their error. -/
theorem run_sortScoped (hs : s.1.Sound) (h : ∃ token ∈ tokens, Text.nonBlank? token ≠ none)
    (scope : Scope) :
    ∃ r : Registry, r.Of s.1.catalog ∧ (sortScoped tokens scope).run.run s =
      let made := s.2.ordering (Registry.sorted s.1 s.2.entity scope s.2.joins
        (tokens.filterMap Text.nonBlank?))
      (made.1, (r, made.2)) := by
  obtain ⟨htokens, hne⟩ := tokensToSort_eq (p := s.2) h
  have hcurrent : current.run.run s = (.ok s.2, s) := rfl
  let m := Registry.sort s.2.entity (tokens.filterMap Text.nonBlank?) scope
  have hof : Registry.Of s.1.catalog (m.run.run (s.1, s.2.joins)).2.1 :=
    (Registry.made_sort s.2.entity scope _).settled.keeps (s.1, s.2.joins) ⟨rfl, hs⟩
  refine ⟨_, hof, ?_⟩
  have hcall : (sortScoped tokens scope).run.run s = (do
      let orders ← PlannerM.ofSort m
      PlannerM.update fun p => { p with orders := p.orders ++ orders }).run.run s := by
    unfold sortScoped
    rw [Work.run_bind_of_ok hcurrent, htokens]
    split
    · rename_i hnil
      exact absurd hnil hne
    · rfl
  rw [hcall]
  unfold Registry.sorted
  rcases hrun : m.run.run (s.1, s.2.joins) with ⟨x, r, js⟩
  have hlifted : (PlannerM.ofSort m).run.run s = (x, (r, { s.2 with joins := js })) := by
    rw [PlannerM.ofSort, Work.run_on, hrun]
  cases x with
  | error err => exact Work.run_bind_of_error hlifted
  | ok orders => exact Work.run_bind_of_ok hlifted

/-- **Tokens may come in one call or in two.** -/
theorem sortScoped_twice (hs : s.1.Sound) {first second : List String}
    (hfirst : ∃ token ∈ first, Text.nonBlank? token ≠ none)
    (hsecond : ∃ token ∈ second, Text.nonBlank? token ≠ none) :
    let twice := (sortScoped first scope >>= fun _ => sortScoped second scope).run.run s
    let once := (sortScoped (first ++ second) scope).run.run s
    twice.1 = once.1 ∧ twice.2.2.joins = once.2.2.joins ∧
      (once.1 = .ok () → twice.2.2 = once.2.2) := by
  intro twice once
  have hboth : ∃ token ∈ first ++ second, Text.nonBlank? token ≠ none :=
    let ⟨token, hmem, htoken⟩ := hfirst
    ⟨token, List.mem_append_left _ hmem, htoken⟩
  obtain ⟨r, hr, hone⟩ := run_sortScoped hs hfirst scope
  obtain ⟨r', -, hall⟩ := run_sortScoped hs hboth scope
  rw [List.filterMap_append, Registry.sorted_append ⟨rfl, hs⟩] at hall
  rcases hsorted : Registry.sorted s.1 s.2.entity scope s.2.joins
    (first.filterMap Text.nonBlank?) with ⟨x, js⟩
  rw [hsorted] at hone hall
  cases x with
  | error err =>
    have htwice : twice = _ := Work.run_bind_of_error hone
    rw [htwice, show once = _ from hall]
    exact ⟨rfl, rfl, fun h => by cases h⟩
  | ok orders =>
    -- the second call finds the joins of the first one
    obtain ⟨r'', -, hlater⟩ := run_sortScoped (s := (r, { s.2 with
      joins := js, orders := s.2.orders ++ orders })) hr.2 hsecond scope
    have htwice : twice = _ := (Work.run_bind_of_ok hone).trans hlater
    rw [htwice, show once = _ from hall]
    dsimp only
    rw [Registry.sorted_eq_of hr ⟨rfl, hs⟩]
    rcases Registry.sorted s.1 s.2.entity scope js (second.filterMap Text.nonBlank?) with ⟨y, js'⟩
    cases y with
    | error err => exact ⟨rfl, rfl, fun h => by cases h⟩
    | ok later =>
      refine ⟨rfl, rfl, fun _ => ?_⟩
      show { s.2 with joins := js', orders := s.2.orders ++ orders ++ later } = _
      rw [List.append_assoc]
      rfl

/-! ## Tokens -/

/-- **Sort tokens depend neither on each other nor on what was joined before.** Let no hook sort,
and let no token start with a dot but where the empty name cannot be joined. When sorting by tokens
succeeds, behind any steps of a planner and its registry, it does so for each token alone and with
nothing joined before. The orderings are what each token orders by in this case, one after the
other. Each token alone joins some paths, and all tokens together add the clauses of these, in the
order of the tokens, each path only once, and none that is joined already. Besides, tokens may come
in one call or in two. -/
theorem sort_of_tokens (uses : List Use) (d : Definition) (settings : Settings) (steps : List Step)
    (scope : Scope) :
    let s := run (Registry.empty.usedBy uses, start d settings) steps
    (d.hooks.sorts = ∅ → ∀ tokens orders,
      (∀ token ∈ tokens, (Text.trim token).toList.head? = some '.' → ¬d.JoinsBlank) →
      (Registry.sorted s.1 d scope s.2.joins tokens).1 = .ok orders →
      ∃ legs : String → List Leg,
        (∀ token ∈ tokens,
          let alone := (Registry.sorted s.1 d scope .none [token]).2
          alone.clauses = (legs token).map Leg.clause ∧
          alone.memo.entries.Perm ((legs token).map fun leg => (leg.path, leg.joined))) ∧
        (∃ parts, List.Forall₂ (fun token part =>
            (Registry.sorted s.1 d scope .none [token]).1 = .ok part) tokens parts ∧
          orders = parts.flatten) ∧
        (Registry.sorted s.1 d scope s.2.joins tokens).2.clauses = s.2.joins.clauses ++
          ((Leg.firsts (tokens.flatMap legs)).filter s.2.joins.lacks).map Leg.clause) ∧
    ∀ first second, (∃ token ∈ first, Text.nonBlank? token ≠ none) →
      (∃ token ∈ second, Text.nonBlank? token ≠ none) →
      let twice := (sortScoped first scope >>= fun _ => sortScoped second scope).run.run s
      let once := (sortScoped (first ++ second) scope).run.run s
      twice.1 = once.1 ∧ twice.2.2.joins = once.2.2.joins ∧
        (once.1 = .ok () → twice.2.2 = once.2.2) := by
  intro s
  have hholding : Holding d (fun c js => js.Faithful c d) s :=
    holding_run Joins.enduring_faithful (Registry.sound_usedBy Registry.sound_empty uses)
      Joins.faithful_none settings steps
  have hr : s.1.Of s.1.catalog := hholding.registry
  refine ⟨fun hhooks tokens orders hheads hsorted => ?_, fun first second hfirst hsecond =>
    sortScoped_twice hr.2 hfirst hsecond⟩
  obtain ⟨t, ht⟩ := Registry.exists_table_of_sorted hr hsorted
  obtain ⟨legs, x, hx⟩ := Registry.exists_yields_tokens t scope hr hhooks hheads
  have halone : ∀ token ∈ tokens, Registry.sorted s.1 d scope .none [token] =
      (x token, Joins.none.keepAll (legs token)) := fun token hmem =>
    Registry.sorted_eq_of_yields hr ht (hx token hmem).1 Joins.faithful_none
  obtain ⟨⟨parts, hparts, horders⟩, hjoins⟩ :=
    Registry.sorted_eq_ok hr ht hholding.joins (fun token hmem => (hx token hmem).1) hsorted
  refine ⟨legs, fun token hmem => ?_, ⟨parts, ?_, horders⟩, ?_⟩
  · rw [halone token hmem]
    exact ⟨Joins.clauses_keepAll_none (hx token hmem).2,
      Joins.perm_memo_keepAll_none (hx token hmem).2⟩
  · refine ((List.forall₂_and_left _ _).2 ⟨fun _ hmem => hmem, hparts⟩).imp fun token part h => ?_
    rw [halone token h.1]
    exact h.2
  · rw [hjoins]
    exact Joins.clauses_keepAll _ _

/-- Tasks by what comes before and behind them, when some of it is joined already. -/
theorem sort_of_tasks :
    let task := (Entity.task ["first", "next"]).define
    let uses : List Use := [.operation (.register task)]
    let steps : List Step := [.call (.join "first.next")]
    let tokens := ["next.first.title", " ", "first.next.due_desc", "next.unknown.title", "title"]
    let s := run (Registry.empty.usedBy uses, start task .usual) steps
    let orders : List Order := [⟨"tasks_next_join_first_join.title", .ascending⟩,
      ⟨"tasks_first_join_next_join.due", .descending⟩, ⟨"tasks.title", .ascending⟩]
    s.2.joins.clauses.map Join.aliasName = ["tasks_first_join", "tasks_first_join_next_join"] ∧
      (Registry.sorted s.1 task .all s.2.joins tokens).1 = .ok orders ∧
      (∃ parts, List.Forall₂ (fun token part =>
        (Registry.sorted s.1 task .all .none [token]).1 = .ok part) tokens parts ∧
          orders = parts.flatten) ∧
      (Registry.sorted s.1 task .all s.2.joins tokens).2.clauses.map Join.aliasName =
        ["tasks_first_join", "tasks_first_join_next_join", "tasks_next_join",
          "tasks_next_join_first_join"] ∧
      ((sortScoped ["next.first.title", " "] .all >>= fun _ =>
        sortScoped ["first.next.due_desc", "next.unknown.title", "title"] .all).run.run s).1 =
          ((sortScoped tokens .all).run.run s).1 := by
  intro task uses steps tokens
  dsimp only
  obtain ⟨hsort, htwice⟩ := sort_of_tokens uses task .usual steps .all
  obtain ⟨orders, horders, rfl⟩ := Outcome.exists_of_toOption (f := id)
    (x := (Registry.sorted (run (Registry.empty.usedBy uses, start task .usual) steps).1 task .all
      (run (Registry.empty.usedBy uses, start task .usual) steps).2.joins tokens).1)
    (b := [⟨"tasks_next_join_first_join.title", .ascending⟩,
      ⟨"tasks_first_join_next_join.due", .descending⟩, ⟨"tasks.title", .ascending⟩])
    (by decide +kernel)
  obtain ⟨-, -, hparts, -⟩ := hsort rfl tokens _ (by decide +kernel) horders
  obtain ⟨hresult, -⟩ := htwice ["next.first.title", " "]
    ["first.next.due_desc", "next.unknown.title", "title"] ⟨_, List.mem_cons_self, by decide⟩
    ⟨_, List.mem_cons_self, by decide⟩
  exact ⟨by decide +kernel, horders, hparts, by decide +kernel, hresult⟩

end Planner
end RequestPlan
