import RequestPlan.Proofs.Sql.Clause

/-!
# Places and values line up

* `placeholders`: the places `$1`, `$2`, … in a text, from left to right.
* `places_clause`: the places of a clause are numbered on from those before it, one for
  each value.
* `placeholders_statements`: **the places of a statement are `$1` to `$n`, once each and in
  order**, where `n` is the number of its values, and the values come in the order of the plan.
-/

namespace RequestPlan

/-- The table, the alias and the columns of a join. -/
def Join.identifiers (j : Join) : List String := [j.table, j.aliasName, j.left, j.right]

/-- The column or expression, and the alias. -/
def Column.texts (c : Column) : List String := c.body :: c.aliasName.toList

namespace Projection

mutual

/-- The names and expressions of a projection, those of the relations below included. -/
def texts : Projection → List String
  | ⟨columns, relations⟩ => columns.flatMap Column.texts ++ textsBelow relations

/-- The names and expressions of several relations. -/
def textsBelow : List (String × Link × Projection) → List String
  | [] => []
  | (_, l, child) :: rest => l.identifiers ++ (texts child ++ textsBelow rest)

end

end Projection

/-- The names and expressions of a plan. -/
def Plan.texts (p : Plan) : List String :=
  p.table :: p.joins.flatMap Join.identifiers ++
    Predicate.identifiersAll p.filters ++ ((p.projection.map Projection.texts).getD []) ++
    p.orders.map Order.column

/-- The values of a plan's root statement: those of the filters, then those of the window. -/
def Plan.bindings (p : Plan) : List Value :=
  Predicate.bindingsAll p.filters ++ Sql.windowBindings p.window

/-- The links of the relations that a plan loads, each before those below it. -/
def Plan.links (p : Plan) : List Link := ((p.projection.map Projection.links).getD [])

namespace Sql

/-! ## Placeholders of a text -/

/-- The placeholders of a text, from left to right: every `$` with the digits behind it. -/
def placeholders : List Char → List String
  | [] => []
  | c :: cs =>
    if c = '$' then String.ofList (c :: cs.takeWhile Char.isDigit) :: placeholders cs
    else placeholders cs

example : placeholders "a IN ($1, $2) AND b = $10".toList = ["$1", "$2", "$10"] := by decide

/-- No digit comes first, so that a number in front ends here. -/
def NoDigitFirst (cs : List Char) : Prop := ∀ c ∈ cs.head?, c.isDigit = false

instance : (cs : List Char) → Decidable (NoDigitFirst cs)
  | [] => isTrue fun _ hc => nomatch hc
  | c :: _ =>
    decidable_of_iff (c.isDigit = false)
      ⟨fun h _ hd => Option.some.inj hd ▸ h, fun h => h c rfl⟩

theorem placeholders_append_of_not_mem {cs : List Char} (h : '$' ∉ cs) (rest : List Char) :
    placeholders (cs ++ rest) = placeholders rest := by
  induction cs with
  | nil => rfl
  | cons c cs ih =>
    rw [List.mem_cons, not_or] at h
    rw [List.cons_append, placeholders, if_neg (Ne.symm h.1), ih h.2]

theorem dollar_not_mem_of_isDigit {cs : List Char} (h : ∀ c ∈ cs, c.isDigit = true) :
    '$' ∉ cs := by
  intro hc
  exact absurd (h '$' hc) (by decide)

theorem takeWhile_isDigit_append {ds rest : List Char} (hd : ∀ c ∈ ds, c.isDigit = true)
    (hr : NoDigitFirst rest) : (ds ++ rest).takeWhile Char.isDigit = ds := by
  rw [List.takeWhile_append_of_pos hd]
  cases rest with
  | nil => simp
  | cons c rest => simp [hr c rfl]

theorem slot_toList (n : Nat) : (slot n).toList = '$' :: Nat.toDigits 10 (n + 1) := by
  simp [slot, Nat.repr]

/-- A place is found, if no digit follows. -/
theorem placeholders_slot_append (n : Nat) {rest : List Char} (hr : NoDigitFirst rest) :
    placeholders ((slot n).toList ++ rest) = slot n :: placeholders rest := by
  have hd : ∀ c ∈ Nat.toDigits 10 (n + 1), c.isDigit = true := fun c hc =>
    Nat.isDigit_of_mem_toDigits (by decide) (by decide) hc
  rw [slot_toList, List.cons_append, placeholders, if_pos rfl, takeWhile_isDigit_append hd hr,
    placeholders_append_of_not_mem (dollar_not_mem_of_isDigit hd), ← slot_toList,
    String.ofList_toList]

theorem slots_append (bound m n : Nat) :
    slots bound (m + n) = slots bound m ++ slots (bound + m) n := by
  induction m generalizing bound with
  | zero => simp [slots]
  | succ m ih =>
    rw [Nat.succ_add, slots, slots, ih, List.cons_append]
    congr 3
    omega

theorem slots_zero_eq_map_range (n : Nat) : slots 0 n = (List.range n).map slot := by
  induction n with
  | zero => rfl
  | succ n ih => rw [slots_append, ih, List.range_succ, List.map_append, Nat.zero_add]; rfl

/-! ## Texts with consecutive places -/

/-- A text whose places are `n` consecutive ones, behind `bound` others, wherever it stands
before something that does not go on with a digit. -/
def Places (t : String) (bound n : Nat) : Prop :=
  ∀ rest, NoDigitFirst rest →
    placeholders (t.toList ++ rest) = slots bound n ++ placeholders rest

theorem NoDigitFirst.append {cs rest : List Char} (hc : NoDigitFirst cs) (hr : NoDigitFirst rest) :
    NoDigitFirst (cs ++ rest) := by
  cases cs with
  | nil => exact hr
  | cons c cs => exact hc

/-- A text that no number in front of it can run into: it starts, and not with a digit. -/
def Closes (t : String) : Prop := (t.toList.head?.any fun c => !c.isDigit) = true

instance (t : String) : Decidable (Closes t) :=
  inferInstanceAs (Decidable ((t.toList.head?.any fun c => !c.isDigit) = true))

theorem Closes.noDigitFirst {t : String} (h : Closes t) : NoDigitFirst t.toList := by
  intro c hc
  unfold Closes at h
  rw [Option.mem_def.1 hc] at h
  simpa using h

theorem Closes.append {s : String} (h : Closes s) (t : String) : Closes (s ++ t) := by
  unfold Closes at h ⊢
  rw [String.toList_append]
  cases hs : s.toList with
  | nil => rw [hs] at h; cases h
  | cons c cs => rwa [hs] at h

theorem closes_slot (n : Nat) : Closes (slot n) := by
  unfold Closes
  rw [slot_toList]
  rfl

namespace Places

variable {s t : String} {bound m n : Nat}

theorem plain (h : '$' ∉ t.toList) : Places t bound 0 := by
  intro rest _
  exact placeholders_append_of_not_mem h rest

theorem one : Places (slot bound) bound 1 := by
  intro rest hr
  exact placeholders_slot_append bound hr

theorem append (hs : Places s bound m) (ht : Places t (bound + m) n)
    (hd : NoDigitFirst t.toList) : Places (s ++ t) bound (m + n) := by
  intro rest hr
  rw [String.toList_append, List.append_assoc, hs _ (hd.append hr), ht rest hr, slots_append,
    List.append_assoc]

/-- What stands in front of a text and has no place may end in anything. -/
theorem after (h : '$' ∉ s.toList) (ht : Places t bound n) : Places (s ++ t) bound n := by
  intro rest hr
  rw [String.toList_append, List.append_assoc, placeholders_append_of_not_mem h, ht rest hr]

/-- What stands behind a text has no place and is no digit. -/
theorem before (hs : Places s bound n) (h : '$' ∉ t.toList) (hd : NoDigitFirst t.toList) :
    Places (s ++ t) bound n :=
  hs.append (plain h) hd

end Places

theorem places_slots (bound n : Nat) : Places (Text.joinWith ", " (slots bound n)) bound n := by
  induction n generalizing bound with
  | zero => exact Places.plain (by simp [slots, Text.joinWith])
  | succ n ih =>
    cases n with
    | zero => exact Places.one
    | succ n =>
      rw [slots, slots, Text.joinWith_cons_cons, String.append_assoc, ← slots, Nat.add_comm (n + 1)]
      -- the comma is where the first number ends
      have hcomma : Closes ", " := by decide
      exact Places.one.append ((ih (bound + 1)).after (by decide)) (hcomma.append _).noDigitFirst

/-! ## Clauses -/

/-- No place is written in any of the texts. -/
def NoPlaces (ts : List String) : Prop := ∀ t ∈ ts, '$' ∉ t.toList

theorem NoPlaces.left {s t : List String} (h : NoPlaces (s ++ t)) : NoPlaces s :=
  fun x hx => h x (List.mem_append_left t hx)

theorem NoPlaces.right {s t : List String} (h : NoPlaces (s ++ t)) : NoPlaces t :=
  fun x hx => h x (List.mem_append_right s hx)

theorem places_correlated (bound : Nat) {l : Link} (h : NoPlaces l.identifiers) :
    Places (correlated bound l).text bound l.bindings.length := by
  have htable := h l.table (by simp [Link.identifiers])
  have hrelated := h l.relatedColumn (by simp [Link.identifiers])
  have hparent := h l.parentColumn (by simp [Link.identifiers])
  have hkey : '$' ∉ ("SELECT 1 FROM " ++ l.table ++ " WHERE " ++ l.relatedColumn ++ " = " ++
      l.parentColumn).toList := by
    simp [htable, hrelated, hparent]
  unfold correlated Link.bindings
  cases hm : l.morph with
  | none => exact Places.plain hkey
  | some m =>
    have hcolumn := h m.column (by simp [Link.identifiers, hm])
    refine Places.after ?_ Places.one
    rw [String.toList_append, String.toList_append, String.toList_append]
    simp only [List.mem_append, not_or]
    exact ⟨⟨⟨hkey, by decide⟩, hcolumn⟩, by decide⟩

theorem places_clauses_of {separator : String} (hsep : '$' ∉ separator.toList)
    (hcloses : Closes separator) {ps : List Predicate}
    (h : ∀ p ∈ ps, ∀ bound, Places (clause bound p).text bound p.bindings.length) (bound : Nat) :
    Places (Text.joinWith separator ((clauses bound ps).map Clause.text)) bound
      (Predicate.bindingsAll ps).length := by
  induction ps generalizing bound with
  | nil => exact Places.plain (by simp [clauses, Text.joinWith])
  | cons p ps ih =>
    have hp := h p List.mem_cons_self bound
    have hps := ih (fun q hq => h q (List.mem_cons_of_mem p hq)) (bound + p.bindings.length)
    rw [Predicate.bindingsAll, List.length_append, clauses, clause_values]
    cases ps with
    | nil => exact hp
    | cons q ps =>
      rw [clauses, List.map_cons, List.map_cons, Text.joinWith_cons_cons, String.append_assoc,
        ← List.map_cons, ← clauses]
      -- the separator is where the last number of the first clause ends
      exact hp.append (hps.after hsep) (hcloses.append _).noDigitFirst

theorem places_group {separator none : String} (hsep : '$' ∉ separator.toList)
    (hcloses : Closes separator) (hnone : '$' ∉ none.toList) {ps : List Predicate}
    (h : ∀ p ∈ ps, ∀ bound, Places (clause bound p).text bound p.bindings.length) (bound : Nat) :
    Places (group separator none (clauses bound ps)).text bound
      (Predicate.bindingsAll ps).length := by
  have hjoined := places_clauses_of hsep hcloses h bound
  rw [group_text]
  match ps, hjoined with
  | [], _ => exact Places.plain hnone
  | [p], hjoined => exact hjoined
  | p :: q :: ps, hjoined =>
    -- neither parenthesis is a digit
    exact (hjoined.after (s := "(") (by decide)).before (by decide) (by decide)

/-- **The places of a clause** are numbered on from those before it, one for each value. -/
theorem places_clause (p : Predicate) (h : NoPlaces p.identifiers) :
    ∀ bound, Places (clause bound p).text bound p.bindings.length := by
  induction p using Predicate.induct with
  | compare c op v =>
    intro bound
    have hc := h c List.mem_cons_self
    refine Places.after ?_ Places.one
    cases op <;> simp [hc, Comparison.sql]
  | among c vs =>
    intro bound
    have hc := h c List.mem_cons_self
    by_cases hv : vs = []
    · subst hv
      exact Places.plain (show '$' ∉ "FALSE".toList by decide)
    · simp only [clause, List.isEmpty_iff, hv, if_false]
      refine ((places_slots bound vs.length).after ?_).before (by decide) (by decide)
      simp [hc]
  | isNull c | isNotNull c =>
    intro bound
    have hc := h c List.mem_cons_self
    exact Places.plain (by simp [clause, hc])
  | like c pattern negated =>
    intro bound
    have hc := h c List.mem_cons_self
    refine Places.after ?_ Places.one
    cases negated <;> simp [hc]
  | related l | unrelated l =>
    intro bound
    exact ((places_correlated bound h).after (by decide)).before (by decide) (by decide)
  | relatedWhere l p ih =>
    intro bound
    have hkey := places_correlated bound h.left
    have hinner := ih h.right (bound + l.bindings.length)
    simp only [clause, Predicate.bindings, correlated_values, List.length_append]
    -- what follows the key starts with a blank, whatever the inner text starts with
    simp only [String.append_assoc]
    have hclosed := hinner.before (t := ")") (by decide) (by decide)
    have hand : Closes " AND " := by decide
    exact (hkey.append (hclosed.after (by decide)) (hand.append _).noDigitFirst).after (by decide)
  | allOf ps ih | anyOf ps ih =>
    intro bound
    refine places_group (by decide) (by decide) (by decide) (fun p hp => ?_) bound
    refine ih p hp fun t ht => h t ?_
    rw [Predicate.identifiers, Predicate.identifiersAll_eq]
    exact List.mem_flatMap.2 ⟨p, hp, ht⟩

/-! ## Statements -/

theorem dollar_not_mem_joinWith {separator : String} (hsep : '$' ∉ separator.toList)
    {ts : List String} (h : NoPlaces ts) : '$' ∉ (Text.joinWith separator ts).toList := by
  induction ts with
  | nil => simp [Text.joinWith]
  | cons t ts ih =>
    have ht := h t List.mem_cons_self
    cases ts with
    | nil => exact ht
    | cons u us =>
      have hrest := ih fun x hx => h x (List.mem_cons_of_mem t hx)
      simp [Text.joinWith_cons_cons, ht, hsep, hrest]

theorem dollar_not_mem_selectList {columns : List Column}
    (h : NoPlaces (columns.flatMap Column.texts)) : '$' ∉ (selectList columns).toList := by
  unfold selectList
  split
  · decide
  · refine dollar_not_mem_joinWith (by decide) fun t ht => ?_
    obtain ⟨c, hc, rfl⟩ := List.mem_map.1 ht
    have hbody := h c.body (List.mem_flatMap.2 ⟨c, hc, List.mem_cons_self⟩)
    unfold Column.sql
    cases ha : c.aliasName with
    | none => exact hbody
    | some a =>
      have halias := h a (List.mem_flatMap.2 ⟨c, hc, by simp [Column.texts, ha]⟩)
      simp [hbody, halias]

theorem dollar_not_mem_ordersText {p : Plan} (h : NoPlaces (p.orders.map Order.column)) :
    '$' ∉ (ordersText p).toList := by
  unfold ordersText part
  split
  · decide
  · rw [String.toList_append, List.mem_append, not_or]
    refine ⟨by decide, dollar_not_mem_joinWith (by decide) fun t ht => ?_⟩
    obtain ⟨o, ho, rfl⟩ := List.mem_map.1 ht
    have hcolumn := h o.column (List.mem_map.2 ⟨o, ho, rfl⟩)
    unfold orderText
    cases o.direction <;> simp [hcolumn, Direction.sql]

theorem noDigitFirst_ordersText (p : Plan) : NoDigitFirst (ordersText p).toList := by
  unfold ordersText part
  split
  · decide
  · exact (Closes.append (s := " ORDER BY ") (by decide) _).noDigitFirst

theorem dollar_not_mem_fromText {p : Plan} (h : NoPlaces p.texts) :
    '$' ∉ (fromText p).toList := by
  have htable := h p.table (by simp [Plan.texts])
  have hcolumns : '$' ∉ (selectList ((p.projection.map Projection.columns).getD [])).toList := by
    refine dollar_not_mem_selectList fun t ht => h t ?_
    cases hp : p.projection with
    | none => simp [hp] at ht
    | some q =>
      obtain ⟨columns, relations⟩ := q
      simp only [hp, Option.map_some, Option.getD_some] at ht
      simp [Plan.texts, hp, Projection.texts, List.mem_flatMap.1 ht]
  have hjoins : ∀ j ∈ p.joins, '$' ∉ j.sql.toList := by
    intro j hj
    have hnames : NoPlaces j.identifiers := fun t ht => h t <| by
      simp only [Plan.texts, List.mem_append, List.mem_cons, List.mem_flatMap]
      exact .inl (.inl (.inl (.inr ⟨j, hj, ht⟩)))
    simp only [NoPlaces, Join.identifiers, List.forall_mem_cons] at hnames
    obtain ⟨hname, halias, hleft, hright, -⟩ := hnames
    unfold Join.sql
    simp only [String.toList_append, List.mem_append, not_or]
    exact ⟨⟨⟨⟨⟨⟨⟨by decide, hname⟩, by decide⟩, halias⟩, by decide⟩, hleft⟩, by decide⟩, hright⟩
  simpa [fromText, htable, hcolumns] using hjoins

/-- A text with places of its own only has no more when nothing follows. -/
theorem Places.placeholders_eq {t : String} {n : Nat} (h : Places t 0 n) :
    placeholders t.toList = (List.range n).map slot := by
  have hend := h [] (by decide)
  rwa [List.append_nil, placeholders, List.append_nil, slots_zero_eq_map_range] at hend

theorem places_windowClause (bound : Nat) (w : Window) :
    Places (windowClause bound w).text bound 2 := by
  have htake : Places (" LIMIT " ++ slot bound ++ " OFFSET ") bound 1 :=
    (Places.one.after (by decide)).before (by decide) (by decide)
  exact htake.append Places.one (closes_slot (bound + 1)).noDigitFirst

theorem noDigitFirst_windowText (p : Plan) : NoDigitFirst (windowText p).toList := by
  unfold windowText
  cases p.window with
  | none => exact (by decide : NoDigitFirst "".toList)
  | some w =>
    have hlimit : Closes " LIMIT " := by decide
    exact (((hlimit.append _).append _).append _).noDigitFirst

theorem places_whereText {p : Plan} (h : NoPlaces (Predicate.identifiersAll p.filters)) :
    Places (if p.filters = [] then "" else " WHERE " ++ whereText p) 0
      (Predicate.bindingsAll p.filters).length := by
  have hjoined : Places (whereText p) 0 (Predicate.bindingsAll p.filters).length := by
    refine places_clauses_of (by decide) (by decide) (fun q hq => ?_) 0
    refine places_clause q fun t ht => h t ?_
    rw [Predicate.identifiersAll_eq]
    exact List.mem_flatMap.2 ⟨q, hq, ht⟩
  split
  · rename_i hnil
    rw [hnil]
    exact Places.plain (by decide)
  · exact hjoined.after (by decide)

theorem places_rootStatement {p : Plan} (h : NoPlaces p.texts) :
    Places (rootStatement p).sql 0 (rootStatement p).params.length := by
  have hwhere := places_whereText (p := p) fun t ht => h t (by simp [Plan.texts, ht])
  have horders := dollar_not_mem_ordersText (p := p) fun t ht => h t (by simp [Plan.texts, ht])
  -- neither the orderings nor the window go on with a digit
  have hfiltered :=
    (hwhere.after (dollar_not_mem_fromText h)).before horders (noDigitFirst_ordersText p)
  rw [rootStatement_sql, rootStatement_params, List.length_append]
  refine hfiltered.append ?_ (noDigitFirst_windowText p)
  unfold windowText windowBindings
  rw [Nat.zero_add]
  cases p.window with
  | none => exact Places.plain (t := "") (by decide)
  | some w => exact places_windowClause _ w

theorem places_relationStatement (path : String) {l : Link} {columns : List Column}
    (hl : NoPlaces l.identifiers) (hc : NoPlaces (columns.flatMap Column.texts)) :
    Places (relationStatement path l columns).sql 0
      (relationStatement path l columns).params.length := by
  have htable := hl l.table (by simp [Link.identifiers])
  have hrelated := hl l.relatedColumn (by simp [Link.identifiers])
  have hcolumns := dollar_not_mem_selectList hc
  have hkeys : Places ("SELECT " ++ selectList columns ++ " FROM " ++ l.table ++ " WHERE " ++
      l.relatedColumn ++ " = ANY(" ++ slot 0 ++ ")") 0 1 :=
    (Places.one.after (by simp [htable, hrelated, hcolumns])).before (by decide) (by decide)
  unfold relationStatement
  cases hm : l.morph with
  | none => exact hkeys.before (by decide) (by decide)
  | some m =>
    have hcolumn := hl m.column (by simp [Link.identifiers, hm])
    have hand : Closes " AND " := by decide
    exact hkeys.append (Places.one.after (by simp [hcolumn]))
      (((hand.append _).append _).append _).noDigitFirst

theorem places_relationStatements_of {relations : List (String × Link × Projection)}
    (h : ∀ r ∈ relations, NoPlaces r.2.2.texts → ∀ path l, NoPlaces l.identifiers →
      ∀ s ∈ loadStatements path l r.2.2, Places s.sql 0 s.params.length)
    (hr : NoPlaces (Projection.textsBelow relations)) (path : String) :
    ∀ s ∈ relationStatements path relations, Places s.sql 0 s.params.length := by
  induction relations with
  | nil => simp [relationStatements]
  | cons r relations ih =>
    obtain ⟨name, l, child⟩ := r
    have hrest := ih (fun q hq => h q (List.mem_cons_of_mem _ hq)) hr.right.right
    intro s hs
    rcases List.mem_append.1 hs with hs | hs
    · exact h (name, l, child) List.mem_cons_self hr.right.left _ l hr.left s hs
    · exact hrest s hs

theorem places_loadStatements (p : Projection) (h : NoPlaces p.texts) :
    ∀ path l, NoPlaces l.identifiers →
      ∀ s ∈ loadStatements path l p, Places s.sql 0 s.params.length := by
  induction p using Projection.induct with
  | level columns relations ih =>
    intro path l hl s hs
    rcases List.mem_cons.1 hs with rfl | hs
    · exact places_relationStatement path hl h.left
    · exact places_relationStatements_of ih h.right path s hs

/-! ## Values of relation statements -/

/-- What a statement says of its parents' column, with its values. -/
def Statement.binding (s : Statement) : Option String × List Value := (s.parentColumn, s.params)

/-- What the statement of a link binds: the parents' keys, then the morph value if any. -/
def linkBinding (l : Link) : Option String × List Value :=
  (some l.parentColumn, .list [] :: l.bindings)

theorem bindings_relationStatements_of {relations : List (String × Link × Projection)}
    (h : ∀ r ∈ relations, ∀ path l, (loadStatements path l r.2.2).map Statement.binding =
      (l :: r.2.2.links).map linkBinding) (path : String) :
    (relationStatements path relations).map Statement.binding =
      (Projection.linksBelow relations).map linkBinding := by
  induction relations with
  | nil => rfl
  | cons r relations ih =>
    obtain ⟨name, l, child⟩ := r
    have hchild := h (name, l, child) List.mem_cons_self (pathBelow path l.name) l
    have hrest := ih fun q hq => h q (List.mem_cons_of_mem _ hq)
    rw [relationStatements, List.map_append, hchild, hrest, ← List.map_append]
    rfl

theorem bindings_loadStatements (p : Projection) :
    ∀ path l, (loadStatements path l p).map Statement.binding = (l :: p.links).map linkBinding := by
  induction p using Projection.induct with
  | level columns relations ih =>
    intro path l
    have hown : (relationStatement path l columns).binding = linkBinding l := by
      unfold Statement.binding linkBinding
      rw [relationStatement_params]
      rfl
    rw [loadStatements, List.map_cons, hown, bindings_relationStatements_of ih]
    rfl

/-- **Places and values line up.** When no name and no expression of a plan has a `$`, the
places of every statement are `$1` to `$n` in this order, each once, with `n` the number of
its values. The root's values are those of the filters in the order of the tree and then those
of the window; a relation's are the parents' keys and then the value of its morph column. -/
theorem placeholders_statements (p : Plan) (h : ∀ t ∈ p.texts, '$' ∉ t.toList) :
    (∀ s ∈ statements p,
      placeholders s.sql.toList = (List.range s.params.length).map slot) ∧
    (statements p).map (fun s => (s.parentColumn, s.params)) =
      (none, p.bindings) ::
        p.links.map fun l => (some l.parentColumn, Value.list [] :: l.bindings) := by
  constructor
  · intro s hs
    apply Places.placeholders_eq
    rcases List.mem_cons.1 hs with rfl | hs
    · exact places_rootStatement h
    · cases hp : p.projection with
      | none => simp [hp] at hs
      | some q =>
        obtain ⟨columns, relations⟩ := q
        have htexts : NoPlaces (Projection.textsBelow relations) := fun t ht =>
          h t (by simp [Plan.texts, hp, Projection.texts, ht])
        simp only [hp] at hs
        exact places_relationStatements_of
          (fun r _ hr => places_loadStatements r.2.2 hr) htexts "" s hs
  · -- the values of the relations follow the recursion of their statements
    have hroot : (rootStatement p).binding = (none, p.bindings) := by
      unfold Statement.binding Plan.bindings
      rw [rootStatement_params]
      rfl
    show (statements p).map Statement.binding = _
    unfold statements Plan.links
    rw [List.map_cons, hroot]
    cases p.projection with
    | none => rfl
    | some q =>
      obtain ⟨columns, relations⟩ := q
      exact congrArg _ (bindings_relationStatements_of
        (fun r _ => bindings_loadStatements r.2.2) "")

/-- Orders with rush notes: a list, a morph column and a window bind values. -/
theorem placeholders_of_notes :
    let link : Link :=
      ⟨"notes", "notes", "orders.id", "notes.note_id", some ⟨"notes.note_type", "Order"⟩⟩
    let plan : Plan :=
      { entity := "Order", table := "orders", joins := []
        filters := [.anyOf [.among "orders.status" [.string "$7", .null], .among "orders.id" []],
          .relatedWhere link (.like "notes.text" "rush" false)]
        projection := some ⟨[.computed "1 + 1" (some "two")], [("notes", link, ⟨[], []⟩)]⟩
        orders := [], window := some ⟨20, 10⟩ }
    (∀ t ∈ plan.texts, '$' ∉ t.toList) ∧
      (∀ s ∈ statements plan,
        placeholders s.sql.toList = (List.range s.params.length).map slot) ∧
      (statements plan).map (fun s => (s.parentColumn, s.params)) =
        (none, plan.bindings) ::
          plan.links.map fun l => (some l.parentColumn, Value.list [] :: l.bindings) := by
  intro link plan
  have h : ∀ t ∈ plan.texts, '$' ∉ t.toList := by decide
  exact ⟨h, placeholders_statements plan h⟩

end Sql
end RequestPlan
