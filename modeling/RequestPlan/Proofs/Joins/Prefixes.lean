import RequestPlan.Proofs.Joins.History
import RequestPlan.Proofs.Joins.Measured

/-!
# Prefixes of paths of joins

* `Joins.follow`: the table that names lead to, where a name that is joined already leads to what
  was joined; `Joins.Adds`: the joins that come in along names.
* `Joins.run_joinSegments`: **a walk along measured names takes their prefixes one by one**.
* `Joins.Closed`, `Joins.keeps_leftJoin_closed`: joins have the starts of their paths.
* `Joins.Slips`: a walk goes on behind an empty first name; `Joins.leftJoin_prefixes`: **a path is
  joined prefix by prefix unless its walk slips**.
-/

namespace RequestPlan.Joins

/-- The table that names lead to from a table on, which is behind the names `before`. What is joined
under the path of a name already is not joined again. -/
def follow (c : Catalog) (js : Joins) (j : Joined) (before : List String) :
    List String → Except Error (Option Joined)
  | [] => .ok (some j)
  | name :: rest =>
    match js.find? (dotted (before ++ [name])) with
    | some k => follow c js k (before ++ [name]) rest
    | .none =>
      match c.step j name with
      | .error err => .error err
      | .ok .none => .ok .none
      | .ok (some (clause, d)) => follow c js ⟨clause.aliasName, d⟩ (before ++ [name]) rest

variable {c : Catalog} {root d : Definition} {js : Joins} {j k : Joined} {clause : Join}
  {name path : String} {names before rest : List String}

/-! ## Following names -/

theorem follow_joined (h : js.find? (dotted (before ++ [name])) = some k) :
    follow c js j before (name :: rest) = follow c js k (before ++ [name]) rest := by
  rw [follow, h]

theorem follow_step (h : js.find? (dotted (before ++ [name])) = .none)
    (hstep : c.step j name = .ok (some (clause, d))) :
    follow c js j before (name :: rest) =
      follow c js ⟨clause.aliasName, d⟩ (before ++ [name]) rest := by
  rw [follow, h]
  simp only [hstep]

theorem follow_stop (h : js.find? (dotted (before ++ [name])) = .none)
    (hstop : ¬∃ clause d, c.step j name = .ok (some (clause, d))) :
    follow c js j before (name :: rest) = c.arrive j (name :: rest) := by
  rw [follow, h, Catalog.arrive]
  cases hstep : c.step j name with
  | error err => rfl
  | ok next? =>
    cases next? with
    | none => rfl
    | some next => exact absurd ⟨next.1, next.2, hstep⟩ hstop

/-- Who follows names to a table has been behind the first ones. -/
theorem exists_follow_of_append {more : List String}
    (h : follow c js j before (names ++ more) = .ok (some k)) :
    ∃ m, follow c js j before names = .ok (some m) := by
  induction names generalizing j before with
  | nil => exact ⟨j, rfl⟩
  | cons name names ih =>
    rw [List.cons_append, follow] at h
    rw [follow]
    split at h
    · rename_i hfind
      exact ih h
    · split at h
      · cases h
      · cases h
      · exact ih h

/-- What is joined under a path that is behind is not met again. -/
theorem follow_add {start : List String} (hne : start ≠ []) (hinitial : start <+: before)
    (hdots : ∀ name ∈ before ++ rest, '.' ∉ name.toList) :
    follow c (js.add (dotted start) clause d) j before rest = follow c js j before rest := by
  induction rest generalizing j before with
  | nil => rfl
  | cons name rest ih =>
    rw [List.append_cons] at hdots
    have hlater : dotted (before ++ [name]) ≠ dotted start := by
      intro heq
      have hlength : start.length ≤ before.length := hinitial.length_le
      have hsame : before ++ [name] = start := eq_of_dotted_eq (by simp) hne
        (fun n hn => hdots n (List.mem_append_left rest hn))
        (fun n hn => hdots n (List.mem_append_left rest
          (List.mem_append_left [name] (hinitial.subset hn)))) heq
      rw [← hsame, List.length_append, List.length_singleton] at hlength
      omega
    have hnext : ∀ m : Joined, follow c (js.add (dotted start) clause d) m (before ++ [name]) rest =
        follow c js m (before ++ [name]) rest :=
      fun m => ih (hinitial.trans (List.prefix_append before [name])) hdots
    rw [follow, follow, find?_add, if_neg hlater]
    simp only [hnext]

/-! ## Walking along measured names -/

/-- The joins `js'` have, besides those of `js`, the paths of the names along the way from a table
on, as far as they lead to tables. -/
def Adds (c : Catalog) (j : Joined) (before rest : List String) (js js' : Joins) : Prop :=
  ∀ key k, js'.find? key = some k ↔ js.find? key = some k ∨ js.find? key = .none ∧
    ∃ names, names ≠ [] ∧ names <+: rest ∧ key = dotted (before ++ names) ∧
      follow c js j before names = .ok (some k)

/-- Where the first name leads nowhere, nothing is added. -/
theorem adds_stop (hfind : js.find? (dotted (before ++ [name])) = .none)
    (hstop : ¬∃ clause d, c.step j name = .ok (some (clause, d))) :
    Adds c j before (name :: rest) js js := by
  intro key k
  refine (or_iff_left ?_).symm
  rintro ⟨-, names, hne, hinitial, -, hfollow⟩
  obtain ⟨first, names, rfl⟩ := List.exists_cons_of_ne_nil hne
  obtain ⟨rfl, -⟩ := List.cons_prefix_cons.1 hinitial
  rw [follow_stop hfind hstop] at hfollow
  obtain ⟨clause, d, hstep, -⟩ := Catalog.exists_step_of_arrive hfollow
  exact hstop ⟨clause, d, hstep⟩

/-- Behind a name that is joined already, what is added is added behind it. -/
theorem Adds.joined {m : Joined} {js' : Joins} (h : Adds c m (before ++ [name]) rest js js')
    (hfind : js.find? (dotted (before ++ [name])) = some m) :
    Adds c j before (name :: rest) js js' := by
  intro key k
  refine (h key k).trans (or_congr_right (and_congr_right fun hnone => ⟨?_, ?_⟩))
  · rintro ⟨names, hne, hinitial, rfl, hfollow⟩
    exact ⟨name :: names, List.cons_ne_nil _ _, List.cons_prefix_cons.2 ⟨rfl, hinitial⟩,
      congrArg dotted (List.append_cons before name names).symm,
      (follow_joined hfind).trans hfollow⟩
  · rintro ⟨names, hne, hinitial, rfl, hfollow⟩
    obtain ⟨first, names, rfl⟩ := List.exists_cons_of_ne_nil hne
    obtain ⟨rfl, hrest⟩ := List.cons_prefix_cons.1 hinitial
    rw [follow_joined hfind] at hfollow
    refine ⟨names, ?_, hrest, congrArg dotted (List.append_cons before first names), hfollow⟩
    rintro rfl
    rw [hfind] at hnone
    cases hnone

/-- Behind a name that is joined now, what is added is added behind it, and the name itself. -/
theorem Adds.step {js' : Joins} (hdots : ∀ n ∈ before ++ name :: rest, '.' ∉ n.toList)
    (h : Adds c ⟨clause.aliasName, d⟩ (before ++ [name]) rest
      (js.add (dotted (before ++ [name])) clause d) js')
    (hfind : js.find? (dotted (before ++ [name])) = .none)
    (hstep : c.step j name = .ok (some (clause, d))) :
    Adds c j before (name :: rest) js js' := by
  have hinner : ∀ names, names <+: name :: rest → ∀ n ∈ before ++ names, '.' ∉ n.toList :=
    fun names hnames n hn => hdots n (((List.prefix_append_right_inj before).2 hnames).subset hn)
  have hfollow : ∀ names, names <+: rest →
      follow c (js.add (dotted (before ++ [name])) clause d) ⟨clause.aliasName, d⟩
        (before ++ [name]) names = follow c js j before (name :: names) := by
    intro names hnames
    have hdots' := hinner (name :: names) (List.cons_prefix_cons.2 ⟨rfl, hnames⟩)
    rw [List.append_cons] at hdots'
    rw [follow_add (by simp) List.prefix_rfl hdots', follow_step hfind hstep]
  intro key k
  refine (h key k).trans ?_
  rw [find?_add]
  by_cases hkey : key = dotted (before ++ [name])
  · subst hkey
    rw [if_pos rfl, hfind]
    constructor
    · rintro (hk | ⟨hk, -⟩)
      · cases hk
        exact .inr ⟨rfl, [name], List.cons_ne_nil _ _, ⟨rest, rfl⟩, rfl, follow_step hfind hstep⟩
      · cases hk
    · rintro (hk | ⟨-, names, hne, hinitial, hpath, hk⟩)
      · cases hk
      · -- no other names have the path of the name
        have hnames : before ++ [name] = before ++ names :=
          eq_of_dotted_eq (by simp) (by simp [hne]) (hinner [name] ⟨rest, rfl⟩)
            (hinner names hinitial) hpath
        obtain rfl := List.append_cancel_left hnames
        rw [follow_step hfind hstep, follow] at hk
        exact .inl (Except.ok.inj hk)
  · rw [if_neg hkey]
    refine or_congr_right (and_congr_right fun _ => ⟨?_, ?_⟩)
    · rintro ⟨names, hne, hinitial, rfl, hk⟩
      exact ⟨name :: names, List.cons_ne_nil _ _, List.cons_prefix_cons.2 ⟨rfl, hinitial⟩,
        congrArg dotted (List.append_cons before name names).symm, hfollow names hinitial ▸ hk⟩
    · rintro ⟨names, hne, hinitial, rfl, hk⟩
      obtain ⟨first, names, rfl⟩ := List.exists_cons_of_ne_nil hne
      obtain ⟨rfl, hrest⟩ := List.cons_prefix_cons.1 hinitial
      refine ⟨names, ?_, hrest, congrArg dotted (List.append_cons before first names),
        (hfollow names hrest).trans hk⟩
      rintro rfl
      exact hkey rfl

/-- **A walk along measured names takes their prefixes one by one.** -/
theorem run_joinSegments (c : Catalog) (js : Joins) (j : Joined)
    (hdots : ∀ n ∈ before ++ rest, '.' ∉ n.toList) (hmeasured : Measured (before ++ rest)) :
    let run := (joinSegments c (dotted (before ++ rest)) j.aliasName j.definition
      (dotted before).utf8ByteSize rest).run.run js
    run.1 = (follow c js j before rest).map Option.isSome ∧ Adds c j before rest js run.2 := by
  induction rest generalizing before j js with
  | nil =>
    refine ⟨rfl, fun key k => (or_iff_left ?_).symm⟩
    rintro ⟨-, names, hne, hinitial, -⟩
    exact hne (List.prefix_nil.1 hinitial)
  | cons name rest ih =>
    have hbefore : before.head? ≠ some "" := hmeasured.head?_ne (List.cons_ne_nil name rest)
    have hdots' : ∀ n ∈ before ++ [name] ++ rest, '.' ∉ n.toList :=
      List.append_cons before name rest ▸ hdots
    have hnext := fun js m => ih js m hdots' (List.append_cons before name rest ▸ hmeasured)
    rw [← List.append_cons] at hnext
    intro run
    have hrun : run = _ := run_segment c js j (dotted (before ++ name :: rest))
      (dotted before).utf8ByteSize name rest
    rw [pathStart_dotted hbefore, segmentEnd_dotted hbefore] at hrun
    cases hfind : js.find? (dotted (before ++ [name])) with
    | some m =>
      obtain ⟨hresult, hadds⟩ := hnext js m
      rw [hfind] at hrun
      rw [hrun, follow_joined hfind]
      exact ⟨hresult, hadds.joined hfind⟩
    | none =>
      by_cases hgoes : ∃ clause d, c.step j name = .ok (some (clause, d))
      · obtain ⟨clause, d, hstep⟩ := hgoes
        obtain ⟨hresult, hadds⟩ := hnext (js.add (dotted (before ++ [name])) clause d)
          ⟨clause.aliasName, d⟩
        rw [hfind, hstep] at hrun
        rw [hrun, follow_step hfind hstep]
        rw [follow_add (by simp) List.prefix_rfl hdots'] at hresult
        exact ⟨hresult, hadds.step hdots hfind hstep⟩
      · rw [show run = _ from run_joinSegments_stop hgoes hbefore hfind rest,
          follow_stop hfind hgoes]
        exact ⟨rfl, adds_stop hfind hgoes⟩

/-! ## Joining a path -/

/-- A path that is not joined yet is looked up behind the walk along it. -/
theorem result_of_walk (c : Catalog) (root : Definition) (hfind : js.find? path = .none) :
    result c root js path = ((walk c root js path).1.map fun found =>
        if found then (walk c root js path).2.find? path else .none) ∧
      behind c root js path = (walk c root js path).2 :=
  ⟨congrArg Prod.fst (run_leftJoin_of_walk hfind), congrArg Prod.snd (run_leftJoin_of_walk hfind)⟩

theorem result_of_joined (c : Catalog) (root : Definition) (hfind : js.find? path = some j) :
    result c root js path = .ok (some j) ∧ behind c root js path = js :=
  ⟨congrArg Prod.fst (run_leftJoin_of_joined hfind),
    congrArg Prod.snd (run_leftJoin_of_joined hfind)⟩

/-- Of each path that is joined the starts are joined, the first only when it is empty. -/
def Closed (js : Joins) : Prop :=
  ∀ path names, (js.find? path).isSome → names ≠ [] → names <+: Text.splitOn '.' path →
    Measured names → (js.find? (dotted names)).isSome

theorem closed_none : Closed .none := fun _ _ h => by cases h

/-- Names whose starts are all joined lead to what they are joined to. -/
theorem follow_of_joined (hne : names ≠ [])
    (h : ∀ start, start ≠ [] → start <+: names → (js.find? (dotted (before ++ start))).isSome) :
    follow c js j before names = .ok (js.find? (dotted (before ++ names))) := by
  induction names generalizing before j with
  | nil => exact absurd rfl hne
  | cons name names ih =>
    obtain ⟨k, hk⟩ := Option.isSome_iff_exists.1 (h [name] (by simp) ⟨names, rfl⟩)
    rw [follow_joined hk]
    by_cases hnil : names = []
    · rw [hnil, follow, hk]
    · rw [List.append_cons before name names]
      refine ih hnil fun start hstart hinitial => ?_
      rw [← List.append_cons]
      exact h (name :: start) (by simp) (List.cons_prefix_cons.2 ⟨rfl, hinitial⟩)

/-- A walk goes on behind an empty first name, so that it is taken for none. -/
def Slips (c : Catalog) (root : Definition) (js : Joins) (names : List String) : Prop :=
  (∃ s rest, names = "" :: s :: rest) ∧ ∃ k, follow c js root.joined [] [""] = .ok (some k)

/-- A walk that does not slip comes to measured names only. -/
theorem measured_of_not_slips (h : ¬Slips c root js names) (hinitial : before ++ [name] <+: names)
    (hfollow : follow c js root.joined [] before = .ok (some k)) : Measured (before ++ [name]) := by
  intro hhead
  cases before with
  | nil => exact congrArg (fun n => [n]) (Option.some.inj hhead)
  | cons first before =>
    obtain rfl : first = "" := Option.some.inj hhead
    obtain ⟨rest, rfl⟩ := hinitial
    obtain ⟨s, more, hmore⟩ := List.exists_cons_of_ne_nil
      (List.append_ne_nil_of_right_ne_nil before (List.cons_ne_nil name []))
    refine absurd ⟨⟨s, more ++ rest, ?_⟩, exists_follow_of_append (show follow c js root.joined []
      ([""] ++ before) = .ok (some k) from hfollow)⟩ h
    rw [List.cons_append, hmore]
    rfl

/-- A path of measured names is joined as its names are followed. -/
theorem follow_of_measured (hclosed : Closed js) (hmeasured : Measured (Text.splitOn '.' path)) :
    result c root js path = follow c js root.joined [] (Text.splitOn '.' path) ∧
      Adds c root.joined [] (Text.splitOn '.' path) js (behind c root js path) := by
  have hne := Text.splitOn_ne_nil '.' path
  cases hfind : js.find? path with
  | some j =>
    have hstarts : ∀ start, start ≠ [] → start <+: Text.splitOn '.' path →
        (js.find? (dotted start)).isSome := fun start hstart hinitial =>
      hclosed path start (by rw [hfind]; rfl) hstart hinitial (hmeasured.of_prefix hinitial)
    have hfollow : follow c js root.joined [] (Text.splitOn '.' path) = .ok (some j) := by
      rw [follow_of_joined hne hstarts, List.nil_append, dotted_splitOn, hfind]
    obtain ⟨hresult, hbehind⟩ := result_of_joined c root hfind
    rw [hresult, hbehind, hfollow]
    refine ⟨rfl, fun key k => (or_iff_left ?_).symm⟩
    rintro ⟨hnone, names, hnames, hinitial, rfl, -⟩
    have hsome := hstarts names hnames hinitial
    rw [List.nil_append] at hnone
    rw [hnone] at hsome
    cases hsome
  | none =>
    obtain ⟨hresult, hbehind⟩ := result_of_walk c root hfind
    have hdots : ∀ name ∈ [] ++ Text.splitOn '.' path, '.' ∉ name.toList :=
      fun name hname => Text.not_mem_of_mem_splitOn hname
    obtain ⟨hwalk, hadds⟩ : (walk c root js path).1 =
          (follow c js root.joined [] (Text.splitOn '.' path)).map Option.isSome ∧
        Adds c root.joined [] (Text.splitOn '.' path) js (walk c root js path).2 := by
      have hnames := run_joinSegments c js root.joined hdots hmeasured
      rw [List.nil_append, dotted_splitOn] at hnames
      exact hnames
    rw [hresult, hbehind, hwalk]
    refine ⟨?_, hadds⟩
    cases hfollow : follow c js root.joined [] (Text.splitOn '.' path) with
    | error err => rfl
    | ok j? =>
      cases j? with
      | none => rfl
      | some j =>
        have hpath : path = dotted ([] ++ Text.splitOn '.' path) := (dotted_splitOn path).symm
        exact congrArg Except.ok
          ((hadds path j).2 (.inr ⟨hfind, _, hne, List.prefix_rfl, hpath, hfollow⟩))

/-- A path that starts with a dot is not joined where an empty name is not. -/
theorem follow_of_blank {s : String} (hclosed : Closed js)
    (hsplit : Text.splitOn '.' path = "" :: s :: rest)
    (hstop : ¬∃ k, follow c js root.joined [] [""] = .ok (some k)) :
    result c root js path = follow c js root.joined [] (Text.splitOn '.' path) ∧
      Adds c root.joined [] (Text.splitOn '.' path) js (behind c root js path) := by
  have hblank : js.find? (dotted ([] ++ [""])) = .none := by
    rw [Option.eq_none_iff_forall_ne_some]
    exact fun k hk => hstop ⟨k, follow_joined hk⟩
  have hgoes : ¬∃ clause d, c.step root.joined "" = .ok (some (clause, d)) := by
    rintro ⟨clause, d, hstep⟩
    exact hstop ⟨_, follow_step hblank hstep⟩
  have hfind : js.find? path = .none := by
    rw [← Option.not_isSome_iff_eq_none]
    intro hsome
    have hfirst := hclosed path [""] hsome (by simp) (by rw [hsplit]; exact ⟨s :: rest, rfl⟩)
      fun _ => rfl
    rw [show dotted [""] = dotted ([] ++ [""]) from rfl, hblank] at hfirst
    cases hfirst
  have hwalk : walk c root js path =
      ((follow c js root.joined [] (Text.splitOn '.' path)).map Option.isSome, js) := by
    have hnames := run_joinSegments_stop hgoes (by simp) hblank (s :: rest)
    rw [List.nil_append, ← hsplit, dotted_splitOn] at hnames
    rw [hsplit, follow_stop hblank hgoes, ← hsplit]
    exact hnames
  have hnone : ∀ k, follow c js root.joined [] (Text.splitOn '.' path) ≠ .ok (some k) := by
    intro k hk
    rw [hsplit] at hk
    exact hstop (exists_follow_of_append (show follow c js root.joined [] ([""] ++ s :: rest) = _
      from hk))
  obtain ⟨hresult, hbehind⟩ := result_of_walk c root hfind
  rw [hresult, hbehind, hwalk]
  constructor
  · cases hfollow : follow c js root.joined [] (Text.splitOn '.' path) with
    | error err => rfl
    | ok j? =>
      cases j? with
      | none => rfl
      | some j => exact absurd hfollow (hnone j)
  · rw [hsplit]
    exact adds_stop hblank hgoes

/-! ## Joins stay closed -/

theorem isSome_find?_add {start : String} (h : (js.find? path).isSome) :
    ((js.add start clause d).find? path).isSome := by
  rw [find?_add]
  split
  · rfl
  · exact h

/-- What is added along names has its starts. -/
theorem Adds.closed {js' : Joins} (h : Adds c j [] names js js') (hclosed : Closed js)
    (hdots : ∀ name ∈ names, '.' ∉ name.toList) : Closed js' := by
  intro path start hsome hne hinitial hmeasured
  obtain ⟨k, hk⟩ := Option.isSome_iff_exists.1 hsome
  obtain hold | ⟨-, taken, htaken, hnames, rfl, hfollow⟩ := (h path k).1 hk
  · have hjoined := hclosed path start (by rw [hold]; rfl) hne hinitial hmeasured
    obtain ⟨m, hm⟩ := Option.isSome_iff_exists.1 hjoined
    rw [(h _ m).2 (.inl hm)]
    rfl
  · rw [List.nil_append, dotted,
      Text.splitOn_joinWith htaken fun name hname => hdots name (hnames.subset hname)] at hinitial
    cases hfind : js.find? (dotted start) with
    | some m =>
      rw [(h _ m).2 (.inl hfind)]
      rfl
    | none =>
      -- who comes to the end has been behind the start
      obtain ⟨rest, rfl⟩ := hinitial
      obtain ⟨m, hm⟩ := exists_follow_of_append hfollow
      have hstart : start <+: names := (List.prefix_append start rest).trans hnames
      rw [(h _ m).2 (.inr ⟨hfind, start, hne, hstart, rfl, hm⟩)]
      rfl

/-- A path without a head may be joined when the empty one is. -/
theorem Closed.add {start : String} (h : Closed js) (hstart : ¬Headed (Text.splitOn '.' start))
    (hblank : ((js.add start clause d).find? "").isSome) : Closed (js.add start clause d) := by
  intro path names hsome hne hinitial hmeasured
  rw [find?_add] at hsome
  split at hsome
  · rename_i hpath
    obtain ⟨rest, hsplit⟩ := not_headed_iff.1 hstart
    obtain ⟨name, names, rfl⟩ := List.exists_cons_of_ne_nil hne
    rw [hpath, hsplit] at hinitial
    obtain ⟨rfl, -⟩ := List.cons_prefix_cons.1 hinitial
    rw [hmeasured rfl]
    exact hblank
  · exact isSome_find?_add (h path names hsome hne hinitial hmeasured)

/-- **Joins stay closed**, whatever path is joined. -/
theorem keeps_leftJoin_closed (path : String) : Work.Keeps Closed (leftJoin c root path) := by
  intro js hclosed
  show Closed (behind c root js path)
  by_cases hheaded : Headed (Text.splitOn '.' path)
  · exact (follow_of_measured hclosed (.of_headed hheaded)).2.closed hclosed
      fun name hname => Text.not_mem_of_mem_splitOn hname
  · -- behind the first name the empty path is joined
    let J : Joins → Prop := fun js => Closed js ∧ (js.find? "").isSome
    have hadd : ∀ {js : Joins} {start : String} {clause : Join} {d : Definition}, J js →
        ¬Headed (Text.splitOn '.' start) → J (js.add start clause d) :=
      fun hjs hstart => ⟨hjs.1.add hstart (isSome_find?_add hjs.2), isSome_find?_add hjs.2⟩
    have hwalks : ∀ prior d stop names, Work.Keeps J (joinSegments c path prior d stop names) :=
      keeps_joinSegments_of_not_headed hheaded hadd
    cases hfind : js.find? path with
    | some j => rwa [(result_of_joined c root hfind).2]
    | none =>
      obtain ⟨rest, hsplit⟩ := not_headed_iff.1 hheaded
      have hstart : pathStart path (segmentEnd 0 "") = "" :=
        String.utf8ByteSize_eq_zero_iff.1 (Nat.le_zero.1 (utf8ByteSize_pathStart_le path 0))
      have hwalk : walk c root js path = _ := (congrArg (fun names => (joinSegments c path root.table
        root 0 names).run.run js) hsplit).trans (run_segment c js root.joined path 0 "" rest)
      rw [hstart] at hwalk
      rw [(result_of_walk c root hfind).2, hwalk]
      cases hblank : js.find? "" with
      | some m => exact (hwalks _ _ _ _ js ⟨hclosed, by rw [hblank]; rfl⟩).1
      | none =>
        cases c.step root.joined "" with
        | error err => exact hclosed
        | ok next? =>
          cases next? with
          | none => exact hclosed
          | some next =>
            have hnew : ((js.add "" next.1 next.2).find? "").isSome := by
              rw [find?_add, if_pos rfl]
              rfl
            have hempty : ¬Headed (Text.splitOn '.' "") := not_headed_iff.2 ⟨[], rfl⟩
            exact (hwalks _ _ _ _ _ ⟨hclosed.add hempty hnew, hnew⟩).1

/-! ## Walks that slip -/

theorem le_foldl_segmentEnd (stop : Nat) (names : List String) :
    stop ≤ names.foldl segmentEnd stop := by
  induction names generalizing stop with
  | nil => exact le_rfl
  | cons name names ih =>
    refine le_trans ?_ (ih (segmentEnd stop name))
    unfold segmentEnd
    split <;> omega

/-- A walk that ends before the end of the path does not join the path. -/
theorem keeps_joinSegments_find? {stop : Nat} {prior : String}
    (hend : names.foldl segmentEnd stop < path.utf8ByteSize) :
    Work.Keeps (fun js => js.find? path = .none) (joinSegments c path prior d stop names) := by
  induction names generalizing prior d stop with
  | nil => exact Work.keeps_pure _
  | cons name names ih =>
    rw [joinSegments]
    refine Work.keeps_get.bind fun js => ?_
    split
    · exact ih hend
    · rw [Work.lift_eq_of]
      refine (Work.keeps_of _).bind fun next? => ?_
      split
      · exact Work.keeps_pure _
      · refine (Work.keeps_modify fun js hjs => ?_).bind fun _ => ih hend
        rw [find?_add, if_neg, hjs]
        intro hpath
        have hsize := utf8ByteSize_pathStart_le path (segmentEnd stop name)
        have hle := le_foldl_segmentEnd (segmentEnd stop name) names
        rw [← hpath] at hsize
        rw [List.foldl_cons] at hend
        omega

/-- A walk that slips does not find the end of its path, unless it was joined before. -/
theorem find?_of_slips (hslips : ∃ s rest, Text.splitOn '.' path = "" :: s :: rest)
    (hresult : result c root js path = .ok (some j)) : js.find? path = some j := by
  cases hfind : js.find? path with
  | some k =>
    rw [(result_of_joined c root hfind).1] at hresult
    exact Except.ok.inj hresult
  | none =>
    have hnot : ¬Measured (Text.splitOn '.' path) := by
      obtain ⟨s, rest, hsplit⟩ := hslips
      rw [hsplit]
      intro hmeasured
      cases hmeasured rfl
    have hend := foldl_segmentEnd_lt hnot
    rw [dotted_splitOn] at hend
    have hnone : (walk c root js path).2.find? path = .none :=
      keeps_joinSegments_find? hend js hfind
    rw [(result_of_walk c root hfind).1, hnone] at hresult
    cases hwalk : (walk c root js path).1 with
    | error err =>
      rw [hwalk] at hresult
      cases hresult
    | ok found =>
      rw [hwalk] at hresult
      cases found <;> cases hresult

/-! ## Paths of any kind -/

/-- The joins behind several paths, each of its own root and among the entities of its own time. -/
def behindAll (calls : List (Catalog × Definition × String)) : Joins :=
  calls.foldl (fun js call => behind call.1 call.2.1 js call.2.2) .none

theorem closed_behindAll (calls : List (Catalog × Definition × String)) :
    Closed (behindAll calls) :=
  List.foldlRecOn calls _ closed_none fun js hjs call _ =>
    keeps_leftJoin_closed (c := call.1) call.2.2 js hjs

/-- **A path is joined prefix by prefix unless its walk slips**, whatever was joined before. The walk
never counts beyond the path. It slips when the path starts with a dot and the empty name in front
of it can be joined. Otherwise it takes for each name that it comes to the path of the names so far,
of just as many bytes as it counts, the answer is the table to which the names lead one by one, and
what is joined besides are those prefixes of the path that lead to tables. A walk that slips takes
another start of the path for the second name, and does not find the end of the path unless it was
joined before. -/
theorem leftJoin_prefixes (calls : List (Catalog × Definition × String)) (c : Catalog)
    (root : Definition) (path : String) :
    let js := behindAll calls
    let names := Text.splitOn '.' path
    (∀ before, before <+: names → before.foldl segmentEnd 0 ≤ path.utf8ByteSize) ∧
    ((∀ before name k, before ++ [name] <+: names →
      follow c js root.joined [] before = .ok (some k) →
        let stop := (before ++ [name]).foldl segmentEnd 0
        pathStart path stop = dotted (before ++ [name]) ∧
          (pathStart path stop).utf8ByteSize = stop) ↔ ¬Slips c root js names) ∧
    (¬Slips c root js names → result c root js path = follow c js root.joined [] names ∧
      ∀ key k, (behind c root js path).find? key = some k ↔
        js.find? key = some k ∨ js.find? key = .none ∧ ∃ before, before ≠ [] ∧ before <+: names ∧
          key = dotted before ∧ follow c js root.joined [] before = .ok (some k)) ∧
    (Slips c root js names → ∀ j, result c root js path = .ok (some j) → js.find? path = some j) := by
  intro js names
  have hclosed : Closed js := closed_behindAll calls
  have hpath : dotted names = path := dotted_splitOn path
  refine ⟨fun before hinitial => ?_, ⟨fun hexact hslips => ?_, fun hslips before name k hinitial hk =>
    ?_⟩, fun hslips => ?_, fun hslips j => find?_of_slips hslips.1⟩
  · by_cases hne : before = []
    · rw [hne]
      exact Nat.zero_le _
    · obtain ⟨behind, hbehind⟩ := exists_dotted_append hne hinitial
      have hle := foldl_segmentEnd_le before
      rw [← hpath, hbehind, String.utf8ByteSize_append]
      omega
  · -- the empty name is not counted in front of the second one
    obtain ⟨⟨s, rest, hsplit⟩, k, hk⟩ := hslips
    have hinitial : [""] ++ [s] <+: names := ⟨rest, hsplit.symm⟩
    have hstart := (hexact [""] s k hinitial hk).1
    rw [← hpath, pathStart_foldl_iff (by simp) hinitial] at hstart
    cases hstart rfl
  · have hmeasured := measured_of_not_slips hslips hinitial hk
    have hstart := (pathStart_foldl_iff (by simp) hinitial).2 hmeasured
    rw [hpath] at hstart
    exact ⟨hstart, (congrArg String.utf8ByteSize hstart).trans hmeasured.foldl_segmentEnd_eq.symm⟩
  · by_cases hmeasured : Measured names
    · exact follow_of_measured hclosed hmeasured
    · obtain ⟨s, rest, hsplit⟩ := exists_of_not_measured hmeasured
      exact follow_of_blank hclosed hsplit fun hk => hslips ⟨⟨s, rest, hsplit⟩, hk⟩

end RequestPlan.Joins

namespace RequestPlan

/-- Messages, each with the one it answers, under no name, and the one it was written in. -/
def Entity.message : Entity where
  name := "Message"
  table := "messages"
  key := "id"
  relations := Dict.ofList [("", .plain .owning "" "Message" "answer_id" ""),
    ("thread", .plain .owning "thread" "Message" "thread_id" "")]
  queryable := none
  filterable := none
  sortable := none
  selectable := none

namespace Joins

/-- Both names of a path are joined, the second one under a start of the path that is none of its
prefixes, and the path is not found. Another start would end inside a letter. -/
theorem slips_of_messages :
    let message := Entity.message.define
    ∃ c, Catalog.register ∅ message = .ok c ∧
      follow c .none message.joined [] ["", "thread"] =
        .ok (some ⟨"messages__join_thread_join", message⟩) ∧
      (∀ j, result c message .none ".thread" ≠ .ok (some j)) ∧
      (behind c message .none ".thread").memo.keys = ["", ".threa"] ∧
      ["", "é"].foldl segmentEnd 0 = 2 ∧ (pathStart ".é" 2).utf8ByteSize = 1 := by
  intro message
  refine ⟨_, rfl, rfl, fun j hj => ?_, by decide +kernel, by decide, by decide⟩
  have hfind : Joins.none.find? ".thread" = some j := find?_of_slips ⟨"thread", [], by decide⟩ hj
  cases hfind

end Joins
end RequestPlan
