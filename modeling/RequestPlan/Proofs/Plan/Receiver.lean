import RequestPlan.Plan.Receiver
import RequestPlan.Proofs.Predicate

/-!
# The calls that a plan comes to

* `Plan.calls`: the calls for a plan, each with how deep in relations it comes.
* `Plan.run_handTo_listener`: **who listens to a plan, and to all that is below it, hears these
  calls and no others**, one after the other.
* `Logger.run_refusing`: **a call that is refused ends the plan**; the log ends with this call.
* `Receiver.Alike.plan`: receivers that do alike with the parts do alike with a plan. So a recorder
  gets the same calls, and keeps those before the refused one (`Recorder.run_of_append_cons`).
-/

namespace RequestPlan

/-! ## Calls in order -/

mutual

/-- The calls for a projection: its columns, then its relations in order. -/
def Projection.calls (depth : Nat) : Projection → List (Nat × Call)
  | ⟨columns, relations⟩ => (depth, .select columns) :: relationCalls depth relations

/-- The calls for relations, each followed by those for what is below it. -/
def Projection.relationCalls (depth : Nat) :
    List (String × Link × Projection) → List (Nat × Call)
  | [] => []
  | (_, link, child) :: rest =>
    (depth, .load link) :: Projection.calls (depth + 1) child ++ relationCalls depth rest

end

/-- The calls for a plan: joins, filters, the projection, orderings and the window. -/
def Plan.calls (p : Plan) : List (Nat × Call) :=
  p.joins.map (fun j => (0, .join j)) ++ p.filters.map (fun f => (0, .filter f)) ++
    p.projection.toList.flatMap (Projection.calls 0) ++
    p.orders.map (fun o => (0, .order o)) ++ p.window.toList.map fun w => (0, .window w)

/-! ## Listeners -/

section Listener

variable {m : Type → Type} [Monad m] {hear : Nat × Call → m Unit}

/-- A receiver that passes its calls on, and those for the relations below. -/
def listener (hear : Nat × Call → m Unit) : Receiver (ReaderT Nat m) where
  join j := fun depth => hear (depth, .join j)
  filter p := fun depth => hear (depth, .filter p)
  select columns := fun depth => hear (depth, .select columns)
  load link inner := fun depth => do
    hear (depth, .load link)
    inner (depth + 1)
  order o := fun depth => hear (depth, .order o)
  window w := fun depth => hear (depth, .window w)

theorem handEach_map {α β : Type} (call : β → m Unit) (f : α → β) (xs : List α) :
    handEach call (xs.map f) = handEach (fun x => call (f x)) xs := by
  induction xs with
  | nil => rfl
  | cons x xs ih => rw [List.map_cons, handEach, handEach, ih]

theorem run_handEach {α : Type} (call : α → ReaderT Nat m Unit) (depth : Nat) (xs : List α) :
    (handEach call xs).run depth = handEach (fun x => (call x).run depth) xs := by
  induction xs with
  | nil => rfl
  | cons x xs ih => rw [handEach, handEach, ReaderT.run_bind, ih]

variable [LawfulMonad m]

theorem handEach_append {α : Type} (call : α → m Unit) (xs ys : List α) :
    handEach call (xs ++ ys) = (do handEach call xs; handEach call ys) := by
  induction xs with
  | nil => rw [List.nil_append, handEach, pure_bind]
  | cons x xs ih => rw [List.cons_append, handEach, handEach, ih, bind_assoc]

theorem Projection.run_handTo_listener (p : Projection) (depth : Nat) :
    (p.handTo (listener hear)).run depth = handEach hear (p.calls depth) := by
  induction p using Projection.induct generalizing depth with
  | level columns relations ih =>
    have hbelow : (Projection.handRelations (listener hear) relations).run depth =
        handEach hear (relationCalls depth relations) := by
      induction relations with
      | nil => rfl
      | cons e es ihes =>
        obtain ⟨name, link, child⟩ := e
        have hchild := ih (name, link, child) List.mem_cons_self (depth + 1)
        have hrest := ihes fun e he => ih e (List.mem_cons_of_mem _ he)
        have hload : ((listener hear).load link (child.handTo (listener hear))).run depth =
            handEach hear ((depth, .load link) :: child.calls (depth + 1)) :=
          congrArg (hear (depth, .load link) >>= fun _ => ·) hchild
        rw [Projection.handRelations, ReaderT.run_bind, hload, hrest, relationCalls,
          handEach_append]
    rw [Projection.handTo, ReaderT.run_bind, hbelow, calls, handEach]
    rfl

/-- A plan as its five parts, the absent ones empty. -/
theorem Plan.handTo_eq (r : Receiver m) (p : Plan) :
    p.handTo r = (do
      handEach r.join p.joins
      handEach r.filter p.filters
      handEach (fun projection => projection.handTo r) p.projection.toList
      handEach r.order p.orders
      handEach r.window p.window.toList) := by
  unfold Plan.handTo
  cases p.projection <;> cases p.window <;> simp [handEach]

/-- **A listener hears the calls for a plan**, one after the other, and no others. -/
theorem Plan.run_handTo_listener (p : Plan) :
    (p.handTo (listener hear)).run 0 = handEach hear p.calls := by
  have hprojection : handEach (fun projection : Projection =>
        (projection.handTo (listener hear)).run 0) p.projection.toList =
      handEach hear (p.projection.toList.flatMap (Projection.calls 0)) := by
    cases p.projection with
    | none => rfl
    | some projection =>
      simp [handEach, Projection.run_handTo_listener]
  rw [Plan.handTo_eq]
  simp only [calls, ReaderT.run_bind, run_handEach, hprojection, handEach_append, handEach_map,
    bind_assoc]
  rfl

end Listener

/-! ## Refusals -/

/-- Work with a log of calls, which ends at a refusal. -/
abbrev Logging := ExceptT PlanError (StateM (List (Nat × Call)))

/-- Every call is written down but the `n`-th, counted from one, which ends in an error. -/
structure Refuses (hear : Nat × Call → Logging Unit) (n : Nat)
    (error : Nat × Call → PlanError) (kept : Nat × Call → List (Nat × Call)) : Prop where
  written : ∀ c log, log.length + 1 ≠ n → (hear c).run.run log = (.ok (), log ++ [c])
  refused : ∀ c log, log.length + 1 = n → (hear c).run.run log = (.error (error c), log ++ kept c)

namespace Refuses

variable {hear : Nat × Call → Logging Unit} {n : Nat} {error : Nat × Call → PlanError}
  {kept : Nat × Call → List (Nat × Call)} {c : Nat × Call} {cs front rest log : List (Nat × Call)}

/-- Calls none of which is the one to refuse are written down behind the log. -/
theorem run_handEach (h : Refuses hear n error kept)
    (hn : n ≤ log.length ∨ log.length + cs.length < n) :
    (handEach hear cs).run.run log = (.ok (), log ++ cs) := by
  induction cs generalizing log with
  | nil =>
    rw [List.append_nil]
    rfl
  | cons c cs ih =>
    rw [List.length_cons] at hn
    have hlength : (log ++ [c]).length = log.length + 1 := List.length_append
    rw [handEach, ExceptT.run_bind, StateT.run_bind, h.written c log (by omega)]
    exact (@ih (log ++ [c]) (by omega)).trans (by rw [List.append_assoc]; rfl)

/-- The call to refuse is the last one that is heard. -/
theorem run_handEach_append_cons (h : Refuses hear n error kept) (hn : front.length + 1 = n) :
    (handEach hear (front ++ c :: rest)).run.run [] = (.error (error c), front ++ kept c) := by
  have hfront : (handEach hear front).run.run [] = (.ok (), front) :=
    h.run_handEach (.inr (by simp [← hn]))
  have hlast : (handEach hear (c :: rest)).run.run front = (.error (error c), front ++ kept c) := by
    rw [handEach, ExceptT.run_bind, StateT.run_bind, h.refused c front hn]
    rfl
  rw [handEach_append, ExceptT.run_bind, StateT.run_bind, hfront]
  exact hlast

end Refuses

namespace Logger

/-- A call is written down, and then refused if it is the one to refuse, counted from one. -/
def write (refused : Option (Nat × PlanError)) (c : Nat × Call) : Logging Unit := do
  modify (· ++ [c])
  let log ← get
  match refused with
  | some (n, e) => if log.length = n then throw e
  | none => pure ()

/-- A plan handed to a logger, with one log for all that is below: how it ended, and the log. -/
def run (refused : Option (Nat × PlanError)) (p : Plan) :
    Except PlanError Unit × List (Nat × Call) :=
  ((p.handTo (listener (write refused))).run 0).run.run []

theorem refuses_write_none : Refuses (write none) 0 (fun _ => .builder "") fun _ => [] where
  written _ _ _ := rfl
  refused _ _ h := absurd h (Nat.succ_ne_zero _)

theorem refuses_write_some (n : Nat) (e : PlanError) :
    Refuses (write (some (n, e))) n (fun _ => e) fun c => [c] := by
  have hwritten (c : Nat × Call) (log : List (Nat × Call)) :
      (write (some (n, e)) c).run.run log =
        ExceptT.run (m := StateM _) (if (log ++ [c]).length = n then throw e else pure ())
          (log ++ [c]) := rfl
  constructor
  · intro c log hn
    rw [hwritten, List.length_append, List.length_singleton, if_neg hn]
    rfl
  · intro c log hn
    rw [hwritten, List.length_append, List.length_singleton, if_pos hn]
    rfl

/-- **A call that is refused ends the plan.** A logger that refuses nothing has all calls in its
log. One that refuses the `n`-th has the first `n`, and its error is how the plan ends; with fewer
calls nothing is refused. -/
theorem run_refusing (p : Plan) (n : Nat) (e : PlanError) :
    run none p = (.ok (), p.calls) ∧
      run (some (n, e)) p =
        if 0 < n ∧ n ≤ p.calls.length then (.error e, p.calls.take n) else (.ok (), p.calls) := by
  unfold run
  rw [p.run_handTo_listener, p.run_handTo_listener]
  refine ⟨refuses_write_none.run_handEach (.inl (Nat.zero_le _)), ?_⟩
  split
  · rename_i hn
    obtain ⟨front, c, rest, hcalls, hfront⟩ :
        ∃ front c rest, p.calls = front ++ c :: rest ∧ front.length + 1 = n := by
      refine ⟨p.calls.take (n - 1), p.calls[n - 1], p.calls.drop (n - 1 + 1), ?_, ?_⟩
      · rw [← List.drop_eq_getElem_cons, List.take_append_drop]
      · rw [List.length_take]
        omega
    have htake : (front ++ c :: rest).take n = front ++ [c] := by
      rw [List.append_cons]
      exact List.take_left' (by rw [List.length_append, List.length_singleton, hfront])
    rw [hcalls, (refuses_write_some n e).run_handEach_append_cons hfront, htake]
  · exact (refuses_write_some n e).run_handEach (by rw [List.length_nil]; omega)

end Logger

/-! ## Receivers that do the same -/

section Alike

variable {m n : Type → Type} [Monad m] [Monad n] {R : m Unit → n Unit → Prop} {r : Receiver m}
  {s : Receiver n}

/-- Two receivers do with each part of a plan what a relation allows. -/
structure Receiver.Alike (R : m Unit → n Unit → Prop) (r : Receiver m) (s : Receiver n) : Prop where
  pure : R (pure ()) (pure ())
  bind : ∀ {a b c d}, R a b → R c d → R (a >>= fun _ => c) (b >>= fun _ => d)
  join : ∀ j, R (r.join j) (s.join j)
  filter : ∀ p, R (r.filter p) (s.filter p)
  select : ∀ columns, R (r.select columns) (s.select columns)
  load : ∀ link {a b}, R a b → R (r.load link a) (s.load link b)
  order : ∀ o, R (r.order o) (s.order o)
  window : ∀ w, R (r.window w) (s.window w)

namespace Receiver.Alike

theorem handEach (h : Alike R r s) {α : Type} {f : α → m Unit} {g : α → n Unit} {xs : List α}
    (hfg : ∀ x ∈ xs, R (f x) (g x)) : R (handEach f xs) (handEach g xs) := by
  induction xs with
  | nil => exact h.pure
  | cons x xs ih =>
    exact h.bind (hfg x List.mem_cons_self) (ih fun y hy => hfg y (List.mem_cons_of_mem _ hy))

theorem projection (h : Alike R r s) (p : Projection) : R (p.handTo r) (p.handTo s) := by
  induction p using Projection.induct with
  | level columns relations ih =>
    have hbelow :
        R (Projection.handRelations r relations) (Projection.handRelations s relations) := by
      induction relations with
      | nil => exact h.pure
      | cons e es ihes =>
        exact h.bind (h.load _ (ih e List.mem_cons_self))
          (ihes fun e he => ih e (List.mem_cons_of_mem _ he))
    exact h.bind (h.select columns) hbelow

/-- **Receivers that do alike with the parts do alike with a plan.** -/
theorem plan [LawfulMonad m] [LawfulMonad n] (h : Alike R r s) (p : Plan) :
    R (p.handTo r) (p.handTo s) := by
  rw [Plan.handTo_eq, Plan.handTo_eq]
  refine h.bind (h.handEach fun j _ => h.join j) (h.bind (h.handEach fun f _ => h.filter f) ?_)
  refine h.bind (h.handEach fun projection _ => h.projection projection) ?_
  exact h.bind (h.handEach fun o _ => h.order o) (h.handEach fun w _ => h.window w)

end Receiver.Alike

end Alike

namespace Recorder

/-- What a recorder does with a call, without the depth. -/
def hear (refused : Option Nat) (c : Nat × Call) : Logging Unit := do
  let log ← get
  if refused = some (log.length + 1) then throw (.builder ("refused " ++ c.2.text))
  else set (log ++ [c])

/-- Work with a record ends as work with a log does, and where it started when it succeeds. -/
def Records (m : Recording Unit) (k : ReaderT Nat Logging Unit) : Prop :=
  ∀ log depth x log', (k depth).run.run log = (x, log') →
    ∃ behind, m.run.run ⟨log, depth⟩ = (x, ⟨log', behind⟩) ∧ (x = .ok () → behind = depth)

variable {refused : Option Nat} {a c : Recording Unit} {b d : ReaderT Nat Logging Unit}

theorem records_pure : Records (pure ()) (pure ()) := by
  intro log depth x log' hk
  cases hk
  exact ⟨depth, rfl, fun _ => rfl⟩

theorem Records.bind (h : Records a b) (h' : Records c d) :
    Records (a >>= fun _ => c) (b >>= fun _ => d) := by
  intro log depth x log' hk
  change (b depth >>= fun _ => d depth).run.run log = _ at hk
  rw [ExceptT.run_bind, StateT.run_bind] at hk ⊢
  rcases hb : (b depth).run.run log with ⟨y, between⟩
  obtain ⟨behind, ha, hbehind⟩ := h log depth y between hb
  rw [hb] at hk
  rw [ha]
  cases y with
  | error e =>
    cases hk
    exact ⟨behind, rfl, fun h => nomatch h⟩
  | ok u =>
    cases hbehind rfl
    exact h' between depth x log' hk

/-- Work one level below, and back. -/
theorem Records.below (h : Records a b) : Records (do
    modify fun r => { r with depth := r.depth + 1 }
    a
    modify fun r => { r with depth := r.depth - 1 }) fun depth => b (depth + 1) := by
  intro log depth x log' hk
  obtain ⟨behind, ha, hbehind⟩ := h log (depth + 1) x log' hk
  change ∃ behind, (a >>= fun _ => modify fun r => { r with depth := r.depth - 1 }).run.run
    ⟨log, depth + 1⟩ = _ ∧ _
  rw [ExceptT.run_bind, StateT.run_bind, ha]
  cases x with
  | error e => exact ⟨behind, rfl, fun h => nomatch h⟩
  | ok u =>
    cases hbehind rfl
    exact ⟨depth, rfl, fun _ => rfl⟩

theorem records_note (c : Call) :
    Records (note refused c) fun depth => hear refused (depth, c) := by
  intro log depth x log' hk
  refine ⟨depth, ?_, fun _ => rfl⟩
  change ExceptT.run (m := StateM _)
    (if refused = some (log.length + 1) then _ else _) log = _ at hk
  change ExceptT.run (m := StateM _) (if refused = some (log.length + 1) then _ else _) _ = _
  split at hk
  · rename_i hn
    rw [if_pos hn]
    cases hk
    rfl
  · rename_i hn
    rw [if_neg hn]
    cases hk
    rfl

theorem alike_receiver (refused : Option Nat) :
    (receiver refused).Alike Records (listener (hear refused)) where
  pure := records_pure
  bind := Records.bind
  join j := records_note (.join j)
  filter p := records_note (.filter p)
  select columns := records_note (.select columns)
  load link _ _ h := (records_note (.load link)).bind h.below
  order o := records_note (.order o)
  window w := records_note (.window w)

theorem refuses_hear (refused : Option Nat) :
    Refuses (hear refused) (refused.getD 0) (fun c => .builder ("refused " ++ c.2.text))
      fun _ => [] where
  written c log hn := by
    have hother : refused ≠ some (log.length + 1) := fun h => hn (by rw [h]; rfl)
    change ExceptT.run (m := StateM _) (if refused = some (log.length + 1) then _ else _) log = _
    rw [if_neg hother]
    rfl
  refused c log hn := by
    have hthis : refused = some (log.length + 1) := by
      cases refused with
      | none => exact absurd hn (Nat.succ_ne_zero _)
      | some n => exact congrArg some hn.symm
    change ExceptT.run (m := StateM _) (if refused = some (log.length + 1) then _ else _) log = _
    rw [if_pos hthis, List.append_nil]
    rfl

/-- A recorder gets what a listener hears. -/
theorem run_eq (refused : Option Nat) (p : Plan) :
    run refused p = (handEach (hear refused) p.calls).run.run [] := by
  rcases hheard : (handEach (hear refused) p.calls).run.run [] with ⟨x, log⟩
  rw [← p.run_handTo_listener] at hheard
  obtain ⟨behind, hrun, -⟩ := (alike_receiver refused).plan p [] 0 x log hheard
  unfold run
  rw [hrun]

theorem run_of_short {p : Plan} (h : refused.getD 0 = 0 ∨ p.calls.length < refused.getD 0) :
    run refused p = (.ok (), p.calls) := by
  rw [run_eq]
  exact (refuses_hear refused).run_handEach (by rw [List.length_nil]; omega)

/-- **A recorder keeps the calls before the refused one.** -/
theorem run_of_append_cons {p : Plan} {front rest : List (Nat × Call)} {c : Nat × Call}
    (h : p.calls = front ++ c :: rest) :
    run (some (front.length + 1)) p = (.error (.builder ("refused " ++ c.2.text)), front) := by
  rw [run_eq, h, (refuses_hear _).run_handEach_append_cons rfl, List.append_nil]

end Recorder
end RequestPlan
