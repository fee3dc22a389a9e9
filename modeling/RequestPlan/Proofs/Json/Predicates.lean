import RequestPlan.Json.Plan
import RequestPlan.Proofs.Json.Reordered
import RequestPlan.Proofs.Predicate

/-!
# Predicates that are read back

* `Value.isExact`: what a value is written as says what it is. Floats and points in time are left
  out.
* `Value.readsAs`, `Link.readsAs`: values and links are read back, whatever the order of members.
* `Predicate.readsAs_tagged`: **a tag is read with its arguments, in front of them or behind**, and
  so are all predicates (`Predicate.readsAs`).
-/

namespace RequestPlan

open Json (ReadsAs FieldReadsAs Reordered needed optional membersOf)

/-! ## Values -/

namespace Value

mutual

/-- Whether a value has neither floats nor points in time in it. -/
def isExact : Value → Bool
  | .float _ | .timestamp _ => false
  | .list vs => allExact vs
  | _ => true

/-- Whether no value has floats or points in time in it. -/
def allExact : List Value → Bool
  | [] => true
  | v :: vs => isExact v && allExact vs

end

theorem allExact_eq (vs : List Value) : allExact vs = vs.all isExact := by
  induction vs with
  | nil => rfl
  | cons v vs ih => rw [allExact, List.all_cons, ih]

theorem toJsons_eq (vs : List Value) : toJsons vs = vs.map toJson := by
  induction vs with
  | nil => rfl
  | cons v vs ih => rw [toJsons, List.map_cons, ih]

theorem ofJsons?_eq (js : List Json) : ofJsons? js = js.mapM ofJson? := by
  induction js with
  | nil => rfl
  | cons j js ih =>
    rw [ofJsons?, List.mapM_cons, ih]
    cases ofJson? j with
    | none => rfl
    | some v =>
      cases js.mapM ofJson? with
      | none => rfl
      | some vs => rfl

theorem ofJson?_array (items : List Json) :
    ofJson? (.array items) = (Json.list? ofJson? (.array items)).map .list := by
  rw [ofJson?, ofJsons?_eq, Json.list?]

/-- **A value without floats and points in time is read back.** -/
theorem readsAs {v : Value} (h : v.isExact = true) : ReadsAs ofJson? v.toJson v := by
  induction v using Value.induct with
  | null =>
    rintro j rfl
    rfl
  | bool b =>
    rintro j rfl
    rfl
  | int n =>
    rintro j rfl
    show ofJson? (.number (.int n.toInt)) = some (.int n)
    rw [ofJson?, Decimal.int64?_toInt]
  | float x => cases h
  | string s =>
    rintro j rfl
    rfl
  | list vs ih =>
    rw [isExact, allExact_eq, List.all_eq_true] at h
    have hlist : ReadsAs (Json.list? ofJson?) (.array (vs.map toJson)) vs :=
      Json.readsAs_list fun v hv => ih v hv (h v hv)
    rw [toJson, toJsons_eq]
    intro j hj
    have hread := hlist j hj
    obtain ⟨items, rfl, -⟩ := Json.reordered_array.1 hj
    rw [ofJson?_array, hread]
    rfl
  | timestamp t => cases h

/-- What a value is written as can be read. -/
theorem isReadable_toJson (v : Value) : v.toJson.isReadable = true := by
  induction v using Value.induct with
  | float x =>
    rw [toJson]
    split <;> rfl
  | list vs ih =>
    rw [toJson, toJsons_eq, Json.isReadable, Json.allReadable_eq, List.all_map, List.all_eq_true]
    exact ih
  | _ => rfl

end Value

/-! ## Links -/

theorem Morph.readsAs (m : Morph) : ReadsAs Morph.ofJson? m.toJson m := by
  intro j hj
  obtain ⟨named, os, rfl, hos, hrel⟩ := hj.ofMembers? [needed "column", needed "value"] rfl
  obtain _ | ⟨hcolumn, _ | ⟨hvalue, ⟨⟩⟩⟩ := hrel
  have hcolumn := FieldReadsAs.given (Json.readsAs_text m.column) _ hcolumn
  have hvalue := FieldReadsAs.given (Json.readsAs_text m.value) _ hvalue
  simp only [Morph.ofJson?, Json.record?, hos, Option.bind_eq_bind, Option.bind_some, hcolumn,
    hvalue]
  rfl

theorem Link.readsAs (l : Link) : ReadsAs Link.ofJson? l.toJson l := by
  intro j hj
  obtain ⟨named, os, rfl, hos, hrel⟩ := Json.exists_fields
    [needed "name", needed "table", needed "parent_column", needed "related_column",
      Json.optional "morph"]
    [some (.string l.name), some (.string l.table), some (.string l.parentColumn),
      some (.string l.relatedColumn), l.morph.map Morph.toJson]
    hj (by decide) (by simp [Json.needed, Json.optional])
  obtain _ | ⟨hname, _ | ⟨htable, _ | ⟨hparent, _ | ⟨hrelated, _ | ⟨hmorph, ⟨⟩⟩⟩⟩⟩⟩ := hrel
  have hname := FieldReadsAs.given (Json.readsAs_text l.name) _ hname
  have htable := FieldReadsAs.given (Json.readsAs_text l.table) _ htable
  have hparent := FieldReadsAs.given (Json.readsAs_text l.parentColumn) _ hparent
  have hrelated := FieldReadsAs.given (Json.readsAs_text l.relatedColumn) _ hrelated
  have hmorph := FieldReadsAs.option (fun m _ => Morph.readsAs m) (fun _ => rfl) _ hmorph
  simp only [Link.ofJson?, Json.record?, hos, Option.bind_eq_bind, Option.bind_some, hname, htable,
    hparent, hrelated, hmorph]
  rfl

theorem Link.isReadable_toJson (l : Link) : l.toJson.isReadable = true := by
  obtain ⟨name, table, parent, related, morph⟩ := l
  cases morph <;> rfl

/-! ## Predicates -/

theorem Comparison.lookup_names (op : Comparison) :
    Comparison.names.lookup op.name = some op := by
  cases op <;> rfl

namespace Predicate

theorem toJsons_eq (ps : List Predicate) : toJsons ps = ps.map toJson := by
  induction ps with
  | nil => rfl
  | cons p ps ih => rw [toJsons, List.map_cons, ih]

theorem readAll?_eq (kept : Bool) (js : List Json) : readAll? kept js = js.mapM (read? kept) := by
  induction js with
  | nil => rfl
  | cons j js ih =>
    rw [readAll?, List.mapM_cons, ih]
    cases read? kept j with
    | none => rfl
    | some p =>
      cases js.mapM (read? kept) with
      | none => rfl
      | some ps => rfl

/-- The arguments are the first that are written under their name. -/
theorem ofArgs?_eq (kept : Bool) (tag : Tag) (members : List (String × Json)) :
    ofArgs? kept tag members = (Json.valuesOf "args" members).head?.bind (ofTag? kept tag) :=
  Json.search_eq (·.bind (ofTag? kept tag)) rfl (fun _ _ => rfl) members

/-- So is the condition on related rows, which may be null. -/
theorem readInner?_eq (kept : Bool) (members : List (String × Json)) :
    readInner? kept members =
      Json.option? (read? kept) (Json.valuesOf "predicate" members).head? := by
  refine Json.search_eq (Json.option? (read? kept)) rfl (fun m _ => ?_) members
  obtain ⟨name, j⟩ := m
  rw [readInner?]
  cases j <;> rfl

theorem isReadable_tagged (name : String) (args : Json) :
    (tagged name args).isReadable = args.isReadable := by
  simp [tagged, Json.isReadable, Json.allMembersReadable]

/-- **A tag in front of its arguments, or behind them, is read with them.** -/
theorem readsAs_tagged {name : String} {tag : Tag} {args : Json} {p : Predicate}
    (hname : Tag.names.lookup name = some tag) (hreadable : (tagged name args).isReadable = true)
    (hargs : ∀ kept, ReadsAs (ofTag? kept tag) args p) (kept : Bool) :
    ReadsAs (read? kept) (tagged name args) p := by
  intro j hj
  obtain ⟨named, os, rfl, hos, hrel⟩ := Json.exists_fields [needed "op", needed "args"]
    [some (.string name), some args] hj (by decide) (by simp)
  obtain _ | ⟨hop, _ | ⟨hbehind, ⟨⟩⟩⟩ := hrel
  cases hop with
  | some hop =>
    cases hbehind with
    | @some _ args' hbehind =>
      have htag : Json.choice? kept Tag.names _ = some tag := Json.readsAs_choice hname _ hop
      have hvalue : (Json.valuesOf "args" named).head? = some args' := Json.head?_second hos
      have hargs' : args'.isReadable = true := by
        rw [hbehind.isReadable, ← isReadable_tagged name]
        exact hreadable
      have hread : ∀ kept, ofArgs? kept tag named = some p := by
        intro kept
        rw [ofArgs?_eq, hvalue]
        exact hargs kept args' hbehind
      rw [read?, hos]
      dsimp only
      rw [htag, Option.bind_some, hargs', hread, hread]
      simp only [if_true, ite_self]

/-- The values of a condition in a group are values of the group. -/
theorem mem_valuesAll {p : Predicate} {ps : List Predicate} {v : Value} (hp : p ∈ ps)
    (hv : v ∈ p.values) : v ∈ valuesAll ps := by
  induction ps with
  | nil => cases hp
  | cons q ps ih =>
    rw [valuesAll, List.mem_append]
    rcases List.mem_cons.1 hp with rfl | hp
    · exact .inl hv
    · exact .inr (ih hp)

theorem readsAs_compare (kept : Bool) (c : String) (op : Comparison) {v : Value}
    (hv : v.isExact = true) :
    ReadsAs (ofTag? kept .compare)
      (.object [("column", .string c), ("cmp", .string op.name), ("value", v.toJson)])
      (.compare c op v) := by
  intro j hj
  obtain ⟨named, os, rfl, hos, hrel⟩ := hj.ofMembers? (["column", "cmp", "value"].map needed) rfl
  obtain _ | ⟨hcolumn, _ | ⟨hop, _ | ⟨hvalue, ⟨⟩⟩⟩⟩ := hrel
  have hcolumn := FieldReadsAs.given (Json.readsAs_text c) _ hcolumn
  have hop : Json.given? (Json.choice? kept Comparison.names) _ = some op :=
    FieldReadsAs.given (Json.readsAs_choice op.lookup_names) _ hop
  have hvalue := FieldReadsAs.given (Value.readsAs hv) _ hvalue
  show leafOf? kept .compare named = _
  simp only [leafOf?, hos, hcolumn, hop, hvalue, Option.bind_eq_bind, Option.bind_some]
  rfl

theorem readsAs_among (kept : Bool) (c : String) {vs : List Value}
    (hvs : ∀ v ∈ vs, v.isExact = true) :
    ReadsAs (ofTag? kept .among)
      (.object [("column", .string c), ("values", .array (Value.toJsons vs))]) (.among c vs) := by
  intro j hj
  rw [Value.toJsons_eq] at hj
  obtain ⟨named, os, rfl, hos, hrel⟩ := hj.ofMembers? (["column", "values"].map needed) rfl
  obtain _ | ⟨hcolumn, _ | ⟨hvalues, ⟨⟩⟩⟩ := hrel
  have hcolumn := FieldReadsAs.given (Json.readsAs_text c) _ hcolumn
  have hlist := Json.readsAs_list fun v hv => Value.readsAs (hvs v hv)
  have hvalues := FieldReadsAs.given hlist _ hvalues
  show leafOf? kept .among named = _
  simp only [leafOf?, hos, hcolumn, hvalues, Option.bind_eq_bind, Option.bind_some]
  rfl

/-- A test for null has the column as its only argument, whether it is negated or not. -/
theorem readsAs_nullTest (kept : Bool) (c : String) :
    ReadsAs (ofTag? kept .isNull) (.object [("column", .string c)]) (.isNull c) ∧
      ReadsAs (ofTag? kept .isNotNull) (.object [("column", .string c)]) (.isNotNull c) := by
  have hread : ∀ j, Reordered (.object [("column", .string c)]) j → ∃ named o, j = .object named ∧
      Json.ofMembers? (["column"].map needed) named = some [o] ∧
      Json.given? Json.text? o = some c := by
    intro j hj
    obtain ⟨named, os, rfl, hos, hrel⟩ := hj.ofMembers? (["column"].map needed) rfl
    obtain _ | ⟨hcolumn, ⟨⟩⟩ := hrel
    exact ⟨named, _, rfl, hos, FieldReadsAs.given (Json.readsAs_text c) _ hcolumn⟩
  constructor
  · intro j hj
    obtain ⟨named, o, rfl, hos, hcolumn⟩ := hread j hj
    show leafOf? kept .isNull named = _
    simp only [leafOf?, hos, hcolumn, Option.bind_eq_bind, Option.bind_some]
    rfl
  · intro j hj
    obtain ⟨named, o, rfl, hos, hcolumn⟩ := hread j hj
    show leafOf? kept .isNotNull named = _
    simp only [leafOf?, hos, hcolumn, Option.bind_eq_bind, Option.bind_some]
    rfl

theorem readsAs_like (kept : Bool) (c pattern : String) (negated : Bool) :
    ReadsAs (ofTag? kept .like)
      (.object [("column", .string c), ("pattern", .string pattern), ("negated", .bool negated)])
      (.like c pattern negated) := by
  intro j hj
  obtain ⟨named, os, rfl, hos, hrel⟩ :=
    hj.ofMembers? (["column", "pattern", "negated"].map needed) rfl
  obtain _ | ⟨hcolumn, _ | ⟨hpattern, _ | ⟨hnegated, ⟨⟩⟩⟩⟩ := hrel
  have hcolumn := FieldReadsAs.given (Json.readsAs_text c) _ hcolumn
  have hpattern := FieldReadsAs.given (Json.readsAs_text pattern) _ hpattern
  have hnegated := FieldReadsAs.given (Json.readsAs_flag negated) _ hnegated
  show leafOf? kept .like named = _
  simp only [leafOf?, hos, hcolumn, hpattern, hnegated, Option.bind_eq_bind, Option.bind_some]
  rfl

theorem readsAs_unrelated (kept : Bool) (l : Link) :
    ReadsAs (ofTag? kept .unrelated) (.object [("relation", l.toJson)]) (.unrelated l) := by
  intro j hj
  obtain ⟨named, os, rfl, hos, hrel⟩ := hj.ofMembers? (["relation"].map needed) rfl
  obtain _ | ⟨hlink, ⟨⟩⟩ := hrel
  have hlink := FieldReadsAs.given l.readsAs _ hlink
  show leafOf? kept .unrelated named = _
  simp only [leafOf?, hos, hlink, Option.bind_eq_bind, Option.bind_some]
  rfl

/-- The arguments of an existence predicate are its link, and its condition if it has one. -/
theorem readsAs_exists? (kept : Bool) (l : Link) {inner : Option Predicate}
    (hinner : ∀ p, inner = some p → ReadsAs (read? kept) p.toJson p) :
    ReadsAs (ofTag? kept .related)
      (.object (membersOf [needed "relation", Json.optional "predicate"]
        [some l.toJson, inner.map toJson])) (exists? l inner) := by
  intro j hj
  obtain ⟨named, os, rfl, hos, hrel⟩ := Json.exists_fields _ _ hj (by decide)
    (by simp [Json.needed, Json.optional])
  obtain _ | ⟨hlink, _ | ⟨hcondition, ⟨⟩⟩⟩ := hrel
  have hlink := FieldReadsAs.given l.readsAs _ hlink
  have hcondition := FieldReadsAs.option hinner (fun p => by cases p <;> rfl) _ hcondition
  have hread : readInner? kept named = some inner := by
    rw [readInner?_eq,
      show (Json.valuesOf "predicate" named).head? = _ from Json.head?_second hos]
    exact hcondition
  show ((linkOf? named).bind fun link => (readInner? kept named).map (exists? link)) = _
  simp only [linkOf?, hos, hlink, hread, Option.bind_eq_bind, Option.bind_some, Option.map_some]

/-- The arguments of a group are its conditions. -/
theorem readAll?_of_reordered {kept : Bool} {ps : List Predicate} {j : Json}
    (hps : ∀ p ∈ ps, ReadsAs (read? kept) p.toJson p) (hj : Reordered (.array (toJsons ps)) j) :
    ∃ items, j = .array items ∧ readAll? kept items = some ps := by
  rw [toJsons_eq] at hj
  have hlist := Json.readsAs_list hps j hj
  obtain ⟨items, rfl, -⟩ := Json.reordered_array.1 hj
  exact ⟨items, rfl, (readAll?_eq kept items).trans hlist⟩

/-- What a predicate is written as can be read. -/
theorem isReadable_toJson (p : Predicate) : p.toJson.isReadable = true := by
  induction p using Predicate.induct with
  | compare c op v =>
    rw [toJson, isReadable_tagged]
    simp [Json.isReadable, Json.allMembersReadable, Value.isReadable_toJson]
  | among c vs =>
    rw [toJson, isReadable_tagged, Value.toJsons_eq]
    simp [Json.isReadable, Json.allMembersReadable, Json.allReadable_eq, Value.isReadable_toJson]
  | isNull c => rfl
  | isNotNull c => rfl
  | like c pattern negated => rfl
  | related l | unrelated l =>
    rw [toJson, isReadable_tagged]
    simp [Json.isReadable, Json.allMembersReadable, Link.isReadable_toJson]
  | relatedWhere l p ih =>
    rw [toJson, isReadable_tagged]
    simp [Json.isReadable, Json.allMembersReadable, Link.isReadable_toJson, ih]
  | allOf ps ih | anyOf ps ih =>
    rw [toJson, isReadable_tagged, toJsons_eq, Json.isReadable, Json.allReadable_eq, List.all_map,
      List.all_eq_true]
    exact ih

/-- **A predicate whose values have no floats and no points in time is read back**, at once or out
of what is kept. -/
theorem readsAs {p : Predicate} (h : ∀ v ∈ p.values, v.isExact = true) (kept : Bool) :
    ReadsAs (read? kept) p.toJson p := by
  induction p using Predicate.induct generalizing kept with
  | compare c op v =>
    have hv : v.isExact = true := h v List.mem_cons_self
    have hargs := fun kept => readsAs_compare kept c op hv
    exact readsAs_tagged rfl (isReadable_toJson (.compare c op v)) hargs kept
  | among c vs =>
    have hargs := fun kept => readsAs_among kept c h
    exact readsAs_tagged rfl (isReadable_toJson (.among c vs)) hargs kept
  | isNull c => exact readsAs_tagged rfl rfl (fun kept => (readsAs_nullTest kept c).1) kept
  | isNotNull c => exact readsAs_tagged rfl rfl (fun kept => (readsAs_nullTest kept c).2) kept
  | like c pattern negated =>
    exact readsAs_tagged rfl rfl (fun kept => readsAs_like kept c pattern negated) kept
  | related l =>
    have hinner : ∀ kept, ∀ p, none = some p → ReadsAs (read? kept) p.toJson p :=
      fun _ _ hnone => by cases hnone
    have hargs := fun kept => readsAs_exists? kept l (hinner kept)
    exact readsAs_tagged rfl (isReadable_toJson (.related l)) hargs kept
  | relatedWhere l p ih =>
    have hinner : ∀ kept, ∀ q, some p = some q → ReadsAs (read? kept) q.toJson q := by
      rintro kept q ⟨⟩
      exact ih h kept
    have hargs := fun kept => readsAs_exists? kept l (hinner kept)
    exact readsAs_tagged rfl (isReadable_toJson (.relatedWhere l p)) hargs kept
  | unrelated l =>
    have hargs := fun kept => readsAs_unrelated kept l
    exact readsAs_tagged rfl (isReadable_toJson (.unrelated l)) hargs kept
  | allOf ps ih =>
    refine readsAs_tagged rfl (isReadable_toJson (.allOf ps)) (fun kept j hj => ?_) kept
    obtain ⟨items, rfl, hread⟩ := readAll?_of_reordered
      (fun p hp => ih p hp (fun v hv => h v (mem_valuesAll hp hv)) kept) hj
    rw [ofTag?, hread]
    rfl
  | anyOf ps ih =>
    refine readsAs_tagged rfl (isReadable_toJson (.anyOf ps)) (fun kept j hj => ?_) kept
    obtain ⟨items, rfl, hread⟩ := readAll?_of_reordered
      (fun p hp => ih p hp (fun v hv => h v (mem_valuesAll hp hv)) kept) hj
    rw [ofTag?, hread]
    rfl

end Predicate

end RequestPlan
