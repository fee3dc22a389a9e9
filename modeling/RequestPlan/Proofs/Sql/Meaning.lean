import Mathlib.Data.List.Forall2
import RequestPlan.Proofs.Sql.Words

/-!
# What a rendered condition means

* `Predicate.holds`: whether a predicate holds of a row, said on the tree. No value is among
  none, all of none hold, and one of none does not.
* `Predicate.condition`: a predicate as a condition of SQL.
* `reads_clause`: a clause is read as the condition of its predicate, as one operand of the
  `AND` or `OR` around it.
* `holds_whereText`: **what stands behind `WHERE` is true of a row exactly when all filters
  hold of it**, the subqueries included.
-/

namespace RequestPlan

open Sql (Condition Interpretation Term)

/-! ## Meaning of predicates -/

section Holds

variable {ρ : Type} (I : Interpretation ρ) (term : String → Term)

/-- Whether a row is the one that a link asks for: the key is that of the parent, and the type
is the one of the link, if it has one. -/
def Link.holds (r : ρ) (l : Link) : Prop :=
  I.atom r (.compare (term l.relatedColumn) .eq (term l.parentColumn)) ∧
    ∀ m ∈ l.morph, I.atom r (.compare (term m.column) .eq (.value (.string m.value)))

namespace Predicate

mutual

/-- Whether a predicate holds of a row. -/
def holds (r : ρ) : Predicate → Prop
  | .compare c op v => I.atom r (.compare (term c) op (.value v))
  | .among c vs => vs ≠ [] ∧ I.atom r (.among (term c) vs)
  | .isNull c => I.atom r (.isNull (term c))
  | .isNotNull c => I.atom r (.isNotNull (term c))
  | .like c pattern negated => I.atom r (.like (term c) (.value (.string pattern)) negated)
  | .related l => I.anyRow r l.table fun s => l.holds I term s
  | .relatedWhere l p => I.anyRow r l.table fun s => l.holds I term s ∧ holds s p
  | .unrelated l => ¬I.anyRow r l.table fun s => l.holds I term s
  | .allOf ps => allHold r ps
  | .anyOf ps => anyHolds r ps

/-- Whether all of several predicates hold. -/
def allHold (r : ρ) : List Predicate → Prop
  | [] => True
  | p :: ps => holds r p ∧ allHold r ps

/-- Whether one of several predicates holds. -/
def anyHolds (r : ρ) : List Predicate → Prop
  | [] => False
  | p :: ps => holds r p ∨ anyHolds r ps

end

theorem allHold_iff (r : ρ) (ps : List Predicate) :
    allHold I term r ps ↔ ∀ p ∈ ps, p.holds I term r := by
  induction ps with
  | nil => simp [allHold]
  | cons p ps ih => rw [allHold, ih, List.forall_mem_cons]

theorem anyHolds_iff (r : ρ) (ps : List Predicate) :
    anyHolds I term r ps ↔ ∃ p ∈ ps, p.holds I term r := by
  induction ps with
  | nil => simp [anyHolds]
  | cons p ps ih => rw [anyHolds, ih, List.exists_mem_cons_iff]

end Predicate

end Holds

/-! ## Predicates as conditions -/

namespace Sql.Condition

/-- All of several conditions; a constant for none. -/
def every : List Condition → Condition
  | [] => .const true
  | c :: cs => cs.foldl .and c

/-- One of several conditions; a constant for none. -/
def either : List Condition → Condition
  | [] => .const false
  | c :: cs => cs.foldl .or c

end Sql.Condition

/-- The equations of a link. -/
def Link.conditions (params : List Value) (l : Link) : List Condition :=
  .atom (.compare (.ofWord params l.relatedColumn) .eq (.ofWord params l.parentColumn)) ::
    (l.morph.map fun m =>
      .atom (.compare (.ofWord params m.column) .eq (.value (.string m.value)))).toList

namespace Predicate

mutual

/-- A predicate as a condition of SQL. -/
def condition (params : List Value) : Predicate → Condition
  | .compare c op v => .atom (.compare (.ofWord params c) op (.value v))
  | .among c vs => if vs.isEmpty then .const false else .atom (.among (.ofWord params c) vs)
  | .isNull c => .atom (.isNull (.ofWord params c))
  | .isNotNull c => .atom (.isNotNull (.ofWord params c))
  | .like c pattern negated =>
    .atom (.like (.ofWord params c) (.value (.string pattern)) negated)
  | .related l => .anyRow l.table (.every (l.conditions params))
  | .relatedWhere l p => .anyRow l.table (.every (l.conditions params ++ [condition params p]))
  | .unrelated l => .not (.anyRow l.table (.every (l.conditions params)))
  | .allOf ps => .every (conditions params ps)
  | .anyOf ps => .either (conditions params ps)

/-- Several predicates as conditions of SQL. -/
def conditions (params : List Value) : List Predicate → List Condition
  | [] => []
  | p :: ps => condition params p :: conditions params ps

end

end Predicate

namespace Sql

section Truth

variable {ρ : Type} (I : Interpretation ρ) (r : ρ)

theorem holds_foldl_and (c : Condition) (cs : List Condition) :
    (cs.foldl Condition.and c).holds I r ↔ c.holds I r ∧ ∀ d ∈ cs, d.holds I r := by
  induction cs generalizing c with
  | nil => simp
  | cons d cs ih => rw [List.foldl_cons, ih, Condition.holds, List.forall_mem_cons, and_assoc]

theorem holds_foldl_or (c : Condition) (cs : List Condition) :
    (cs.foldl Condition.or c).holds I r ↔ c.holds I r ∨ ∃ d ∈ cs, d.holds I r := by
  induction cs generalizing c with
  | nil => simp
  | cons d cs ih => rw [List.foldl_cons, ih, Condition.holds, List.exists_mem_cons_iff, or_assoc]

@[simp] theorem holds_every (cs : List Condition) :
    (Condition.every cs).holds I r ↔ ∀ c ∈ cs, c.holds I r := by
  cases cs with
  | nil => simp [Condition.every, Condition.holds]
  | cons c cs => rw [Condition.every, holds_foldl_and, List.forall_mem_cons]

@[simp] theorem holds_either (cs : List Condition) :
    (Condition.either cs).holds I r ↔ ∃ c ∈ cs, c.holds I r := by
  cases cs with
  | nil => simp [Condition.either, Condition.holds]
  | cons c cs => rw [Condition.either, holds_foldl_or, List.exists_mem_cons_iff]

variable (params : List Value)

theorem conditions_eq_map (ps : List Predicate) :
    Predicate.conditions params ps = ps.map (Predicate.condition params) := by
  induction ps with
  | nil => rfl
  | cons p ps ih => rw [Predicate.conditions, ih, List.map_cons]

theorem holds_link (l : Link) :
    (∀ c ∈ l.conditions params, c.holds I r) ↔ l.holds I (.ofWord params) r := by
  unfold Link.conditions Link.holds
  cases l.morph <;> simp [Condition.holds]

/-- **The condition of a predicate holds where the predicate does.** -/
theorem holds_condition (p : Predicate) :
    ∀ r, (p.condition params).holds I r ↔ p.holds I (.ofWord params) r := by
  induction p using Predicate.induct with
  | compare c op v | isNull c | isNotNull c | like c pattern negated => intro r; rfl
  | among c vs =>
    intro r
    cases vs with
    | nil => simp [Predicate.condition, Predicate.holds, Condition.holds]
    | cons v vs => simp [Predicate.condition, Predicate.holds, Condition.holds]
  | related l | unrelated l =>
    intro r
    simp only [Predicate.condition, Predicate.holds, Condition.holds, holds_every, holds_link]
  | relatedWhere l p ih =>
    intro r
    -- for every row of the subquery, so the two subqueries hold of the same rows
    simp only [Predicate.condition, Predicate.holds, Condition.holds, holds_every,
      List.forall_mem_append, holds_link, List.forall_mem_singleton, ih]
  | allOf ps ih =>
    intro r
    simp only [Predicate.condition, Predicate.holds, holds_every, conditions_eq_map,
      Predicate.allHold_iff, List.forall_mem_map]
    exact forall₂_congr fun p hp => ih p hp r
  | anyOf ps ih =>
    intro r
    simp only [Predicate.condition, Predicate.holds, holds_either, conditions_eq_map,
      Predicate.anyHolds_iff, List.mem_map, exists_exists_and_eq_and]
    exact exists_congr fun p => and_congr_right fun hp => ih p hp r

end Truth

/-! ## Operands -/

/-- Items that are read as one operand of `AND`, whatever was read before and whatever
follows. -/
def Operand (params : List Value) (is : List Item) (c : Condition) : Prop :=
  ∀ ors ands rest,
    operand? params ors ands (is ++ rest) = operator? params ors (.meet ands c) rest

/-- A text that is read as one operand. -/
def Reads (params : List Value) (t : String) (c : Condition) : Prop :=
  ∃ is, Scans t.toList is ∧ Operand params is c

section Operands

variable {params : List Value}

theorem reads_true : Reads params "TRUE" (.const true) := by
  refine ⟨[.key .true], scans_keyword .true, ?_⟩
  intro ors ands rest
  simp [operand?]

theorem reads_false : Reads params "FALSE" (.const false) := by
  refine ⟨[.key .false], scans_keyword .false, ?_⟩
  intro ors ands rest
  simp [operand?]

/-- An atomic condition is one operand. -/
theorem operand_of_atom {w : String} {is : List Item} {a : Atom}
    (h : ∀ rest, atom? params w (is ++ rest) = some (a, rest)) :
    Operand params (.word w :: is) (.atom a) := by
  intro ors ands rest
  rw [List.cons_append, operand?]
  split
  · rename_i b behind hatom
    rw [h] at hatom
    cases hatom
    rfl
  · rename_i hatom
    rw [h] at hatom
    cases hatom

theorem identifier_comparison (op : Comparison) : Identifier op.sql := by
  cases op <;> decide

theorem comparison?_sql (op : Comparison) : comparison? op.sql = some op := by
  cases op <;> rfl

theorem reads_compare {c d : String} (hc : Identifier c) (op : Comparison) (hd : Identifier d) :
    Reads params (c ++ " " ++ op.sql ++ " " ++ d)
      (.atom (.compare (.ofWord params c) op (.ofWord params d))) := by
  refine ⟨[.word c, .word op.sql, .word d], ?_, operand_of_atom ?_⟩
  · have hscan := (hc.scans.spaced (identifier_comparison op).scans).spaced hd.scans
    simpa [String.toList_append, Keyword.spelling] using hscan
  · intro rest
    simp [atom?, comparison?_sql]

theorem reads_isNull {c : String} (hc : Identifier c) :
    Reads params (c ++ " IS NULL") (.atom (.isNull (.ofWord params c))) := by
  refine ⟨[.word c, .key .is, .key .null], ?_, operand_of_atom fun _ => rfl⟩
  have hscan := (hc.scans.spaced (scans_keyword .is)).spaced
    (scans_keyword .null)
  simpa [String.toList_append, Keyword.spelling] using hscan

theorem reads_isNotNull {c : String} (hc : Identifier c) :
    Reads params (c ++ " IS NOT NULL") (.atom (.isNotNull (.ofWord params c))) := by
  refine ⟨[.word c, .key .is, .key .not, .key .null], ?_, operand_of_atom fun _ => rfl⟩
  have hscan := ((hc.scans.spaced (scans_keyword .is)).spaced
    (scans_keyword .not)).spaced (scans_keyword .null)
  simpa [String.toList_append, Keyword.spelling] using hscan

theorem reads_among {c : String} (hc : Identifier c) {vs : List Value} (hvs : vs ≠ [])
    {bound : Nat} (hb : Bound params bound vs) :
    Reads params (c ++ " IN (" ++ Text.joinWith ", " (slots bound vs.length) ++ ")")
      (.atom (.among (.ofWord params c) vs)) := by
  obtain ⟨v, ws, rfl⟩ := List.exists_cons_of_ne_nil hvs
  obtain ⟨is, hlist, hread⟩ := placedList?_slots v ws hb
  refine ⟨[.word c, .key .among, .group is], ?_, operand_of_atom ?_⟩
  · have hscan := (hc.scans.spaced (scans_keyword .among)).spaced hlist.group
    simpa [String.toList_append, Keyword.spelling] using hscan
  · intro rest
    simp [atom?, hread]

theorem reads_like {c : String} (hc : Identifier c) {pattern : Value} {bound : Nat}
    (hb : Bound params bound [pattern]) (negated : Bool) :
    Reads params
      ("LOWER(" ++ c ++ ") " ++ (if negated then "NOT " else "") ++ "LIKE " ++ slot bound)
      (.atom (.like (.ofWord params c) (.value pattern) negated)) := by
  have hlower : Scans ("LOWER".toList ++ '(' :: (c.toList ++ [')']))
      [.word "LOWER", .group [.word c]] :=
    (show Identifier "LOWER" by decide).scans.append hc.scans.group
      (by intro d hd; cases hd; decide)
  have hlike := (scans_keyword .like).spaced (identifier_slot bound).scans
  cases negated with
  | false =>
    refine ⟨[.word "LOWER", .group [.word c], .key .like, .word (slot bound)], ?_,
      operand_of_atom ?_⟩
    · simpa [String.toList_append, Keyword.spelling] using hlower.spaced hlike
    · intro rest
      simp [atom?, ofWord_slot hb]
  | true =>
    refine ⟨[.word "LOWER", .group [.word c], .key .not, .key .like, .word (slot bound)], ?_,
      operand_of_atom ?_⟩
    · have hscan := (hlower.spaced (scans_keyword .not)).spaced hlike
      simpa [String.toList_append, Keyword.spelling] using hscan
    · intro rest
      simp [atom?, ofWord_slot hb]

/-! ## Operands that are joined -/

/-- Operands with `AND` between them, wherever they stand. -/
theorem reads_conjunction {ts : List String} {cs : List Condition} {t : String} {c : Condition}
    (h : List.Forall₂ (Reads params) (t :: ts) (c :: cs)) :
    ∃ is, Scans (Text.joinWith " AND " (t :: ts)).toList is ∧ ∀ ors ands rest,
      operand? params ors ands (is ++ rest) =
        operator? params ors (cs.foldl .and (.meet ands c)) rest := by
  induction ts generalizing t c cs with
  | nil =>
    obtain ⟨⟨is, hscan, hread⟩, htail⟩ := List.forall₂_cons.1 h
    obtain rfl := List.forall₂_nil_left_iff.1 htail
    exact ⟨is, hscan, hread⟩
  | cons u ts ih =>
    obtain ⟨⟨is, hscan, hread⟩, htail⟩ := List.forall₂_cons.1 h
    obtain ⟨d, ds, -, -, rfl⟩ := List.forall₂_cons_left_iff.1 htail
    obtain ⟨js, hrest, hreads⟩ := ih htail
    -- behind `AND`, what was read since the last `OR` is one condition to go on with
    refine ⟨is ++ .key .and :: js, ?_, ?_⟩
    · have hand := (hscan.spaced (scans_keyword .and)).spaced hrest
      simpa [Text.joinWith_cons_cons, String.toList_append, Keyword.spelling] using hand
    · intro ors ands rest
      rw [List.append_assoc, hread, List.cons_append, operator?, hreads, List.foldl_cons,
        Condition.meet]

/-- Operands with `OR` between them, from the start to the end of a condition. -/
theorem reads_disjunction {ts : List String} {cs : List Condition} {t : String} {c : Condition}
    (h : List.Forall₂ (Reads params) (t :: ts) (c :: cs)) :
    ∃ is, Scans (Text.joinWith " OR " (t :: ts)).toList is ∧ ∀ ors,
      operand? params ors none is = some (cs.foldl .or (.join ors c)) := by
  induction ts generalizing t c cs with
  | nil =>
    obtain ⟨⟨is, hscan, hread⟩, htail⟩ := List.forall₂_cons.1 h
    obtain rfl := List.forall₂_nil_left_iff.1 htail
    refine ⟨is, hscan, ?_⟩
    intro ors
    rw [← List.append_nil is, hread, operator?, Condition.meet, List.foldl_nil]
  | cons u ts ih =>
    obtain ⟨⟨is, hscan, hread⟩, htail⟩ := List.forall₂_cons.1 h
    obtain ⟨d, ds, -, -, rfl⟩ := List.forall₂_cons_left_iff.1 htail
    obtain ⟨js, hrest, hreads⟩ := ih htail
    -- behind `OR`, nothing is left for the next `AND` to join
    refine ⟨is ++ .key .or :: js, ?_, ?_⟩
    · have hor := (hscan.spaced (scans_keyword .or)).spaced hrest
      simpa [Text.joinWith_cons_cons, String.toList_append, Keyword.spelling] using hor
    · intro ors
      rw [hread, operator?, hreads, List.foldl_cons, Condition.meet]
      rfl

/-- Operands with `AND` between them, from the start to the end of a condition. -/
theorem reads_every {ts : List String} {cs : List Condition}
    (h : List.Forall₂ (Reads params) ts cs) (hts : ts ≠ []) :
    ∃ is, Scans (Text.joinWith " AND " ts).toList is ∧
      operand? params none none is = some (.every cs) := by
  obtain ⟨t, ts, rfl⟩ := List.exists_cons_of_ne_nil hts
  obtain ⟨c, cs, -, -, rfl⟩ := List.forall₂_cons_left_iff.1 h
  obtain ⟨is, hscan, hread⟩ := reads_conjunction h
  refine ⟨is, hscan, ?_⟩
  rw [← List.append_nil is, hread, operator?]
  rfl

/-- Items in parentheses are one operand, whatever stands between these. -/
theorem reads_group {t : String} {is : List Item} {c : Condition} (hscan : Scans t.toList is)
    (hread : operand? params none none is = some c) : Reads params ("(" ++ t ++ ")") c := by
  refine ⟨[.group is], ?_, ?_⟩
  · simpa [String.toList_append, Keyword.spelling] using hscan.group
  · intro ors ands rest
    simp [operand?, hread]

theorem reads_allOf {ts : List String} {cs : List Condition}
    (h : List.Forall₂ (Reads params) ts cs) :
    Reads params (groupText " AND " "TRUE" ts) (.every cs) := by
  match h with
  | .nil => exact reads_true
  | .cons ht .nil => exact ht
  | .cons ht (.cons hu hts) =>
    obtain ⟨is, hscan, hread⟩ := reads_every (.cons ht (.cons hu hts)) (List.cons_ne_nil _ _)
    exact reads_group hscan hread

theorem reads_anyOf {ts : List String} {cs : List Condition}
    (h : List.Forall₂ (Reads params) ts cs) :
    Reads params (groupText " OR " "FALSE" ts) (.either cs) := by
  match h with
  | .nil => exact reads_false
  | .cons ht .nil => exact ht
  | .cons ht (.cons hu hts) =>
    obtain ⟨is, hscan, hread⟩ := reads_disjunction (.cons ht (.cons hu hts))
    exact reads_group hscan (hread none)

/-! ## Subqueries -/

/-- A subquery for a row of a table that meets several conditions. -/
def subqueryText (table : String) (ts : List String) : String :=
  "SELECT 1 FROM " ++ table ++ " WHERE " ++ Text.joinWith " AND " ts

/-- The items of a subquery whose condition has these items. -/
def subqueryItems (table : String) (is : List Item) : List Item :=
  .key .select :: .word "1" :: .key .source :: .word table :: .key .filter :: is

theorem scans_subquery {table : String} (htable : Identifier table) {ts : List String}
    {is : List Item} (h : Scans (Text.joinWith " AND " ts).toList is) :
    Scans (subqueryText table ts).toList (subqueryItems table is) := by
  have hselect := (scans_keyword .select).spaced
    (show Identifier "1" by decide).scans
  have hfrom := (hselect.spaced (scans_keyword .source)).spaced htable.scans
  have hwhere := (hfrom.spaced (scans_keyword .filter)).spaced h
  unfold subqueryText
  simpa [subqueryItems, String.toList_append, Keyword.spelling] using hwhere

theorem reads_exists {table : String} (htable : Identifier table) {ts : List String}
    {cs : List Condition} (h : List.Forall₂ (Reads params) ts cs) (hts : ts ≠ []) :
    Reads params ("EXISTS (" ++ subqueryText table ts ++ ")") (.anyRow table (.every cs)) := by
  obtain ⟨is, hscan, hread⟩ := reads_every h hts
  refine ⟨[.key .existing, .group (subqueryItems table is)], ?_, ?_⟩
  · have hgroup := (scans_keyword .existing).spaced (scans_subquery htable hscan).group
    simpa [String.toList_append, Keyword.spelling] using hgroup
  · intro ors ands rest
    simp [operand?, subqueryItems, hread]

theorem reads_not_exists {table : String} (htable : Identifier table) {ts : List String}
    {cs : List Condition} (h : List.Forall₂ (Reads params) ts cs) (hts : ts ≠ []) :
    Reads params ("NOT EXISTS (" ++ subqueryText table ts ++ ")")
      (.not (.anyRow table (.every cs))) := by
  obtain ⟨is, hscan, hread⟩ := reads_every h hts
  refine ⟨[.key .not, .key .existing, .group (subqueryItems table is)], ?_, ?_⟩
  · have hgroup := ((scans_keyword .not).spaced
      (scans_keyword .existing)).spaced (scans_subquery htable hscan).group
    simpa [String.toList_append, Keyword.spelling] using hgroup
  · intro ors ands rest
    simp [operand?, subqueryItems, hread]

/-- The equations of a link, as they are written behind so many places. -/
def linkTexts (bound : Nat) (l : Link) : List String :=
  (l.relatedColumn ++ " = " ++ l.parentColumn) ::
    (l.morph.map fun m => m.column ++ " = " ++ slot bound).toList

theorem correlated_text (bound : Nat) (l : Link) :
    (correlated bound l).text = subqueryText l.table (linkTexts bound l) := by
  unfold correlated subqueryText linkTexts
  cases l.morph with
  | none => simp only [Option.map_none, Option.toList_none, Text.joinWith, String.append_assoc]
  | some m => simp only [Option.map_some, Option.toList_some, Text.joinWith, String.append_assoc]

theorem correlated_text_and (bound : Nat) (l : Link) (t : String) :
    (correlated bound l).text ++ " AND " ++ t =
      subqueryText l.table (linkTexts bound l ++ [t]) := by
  unfold correlated subqueryText linkTexts
  cases l.morph with
  | none =>
    simp only [Option.map_none, Option.toList_none, List.cons_append, List.nil_append,
      Text.joinWith, String.append_assoc]
  | some m =>
    simp only [Option.map_some, Option.toList_some, List.cons_append, List.nil_append,
      Text.joinWith, String.append_assoc]

theorem reads_equation {c d : String} (hc : Identifier c) (hd : Identifier d) :
    Reads params (c ++ " = " ++ d)
      (.atom (.compare (.ofWord params c) .eq (.ofWord params d))) := by
  have htext : c ++ " " ++ Comparison.eq.sql ++ " " ++ d = c ++ " = " ++ d := by
    apply String.toList_injective
    simp [String.toList_append, Comparison.sql]
  rw [← htext]
  exact reads_compare hc .eq hd

theorem reads_link {l : Link} (hl : ∀ t ∈ l.identifiers, Identifier t) {bound : Nat}
    (hb : Bound params bound l.bindings) :
    List.Forall₂ (Reads params) (linkTexts bound l) (l.conditions params) := by
  have hrelated : Identifier l.relatedColumn := hl _ (by simp [Link.identifiers])
  have hparent : Identifier l.parentColumn := hl _ (by simp [Link.identifiers])
  refine .cons (reads_equation hrelated hparent) ?_
  unfold Link.bindings at hb
  cases hm : l.morph with
  | none => exact .nil
  | some m =>
    have hcolumn : Identifier m.column := hl _ (by simp [Link.identifiers, hm])
    have hmorph : Reads params _ _ := reads_equation hcolumn (identifier_slot bound)
    rw [hm] at hb
    rw [ofWord_slot hb] at hmorph
    exact .cons hmorph .nil

/-! ## Clauses -/

theorem reads_clauses_of {ps : List Predicate}
    (h : ∀ p ∈ ps, ∀ bound, (∀ t ∈ p.identifiers, Identifier t) →
      Bound params bound p.bindings → Reads params (clause bound p).text (p.condition params))
    (bound : Nat) (hid : ∀ t ∈ Predicate.identifiersAll ps, Identifier t)
    (hb : Bound params bound (Predicate.bindingsAll ps)) :
    List.Forall₂ (Reads params) ((clauses bound ps).map Clause.text)
      (Predicate.conditions params ps) := by
  induction ps generalizing bound with
  | nil => exact .nil
  | cons p ps ih =>
    rw [Predicate.identifiersAll, List.forall_mem_append] at hid
    rw [Predicate.bindingsAll] at hb
    have hfirst := h p List.mem_cons_self bound hid.1 hb.left
    -- the places of the rest start where the values of the first clause end
    have hrest := hb.right
    rw [← clause_values p bound] at hrest
    exact .cons hfirst (ih (fun q hq => h q (List.mem_cons_of_mem p hq)) _ hid.2 hrest)

/-- **A clause is read as the condition of its predicate**, as one operand of what stands
around it. -/
theorem reads_clause (p : Predicate) : ∀ bound, (∀ t ∈ p.identifiers, Identifier t) →
    Bound params bound p.bindings → Reads params (clause bound p).text (p.condition params) := by
  induction p using Predicate.induct with
  | compare c op v =>
    intro bound hid hb
    have h : Reads params _ _ := reads_compare (hid c (by simp [Predicate.identifiers])) op
      (identifier_slot bound)
    rwa [ofWord_slot hb] at h
  | among c vs =>
    intro bound hid hb
    by_cases hvs : vs = []
    · subst hvs
      exact reads_false
    · have h := reads_among (hid c (by simp [Predicate.identifiers])) hvs hb
      simpa [clause, Predicate.condition, hvs] using h
  | isNull c =>
    intro bound hid hb
    exact reads_isNull (hid c (by simp [Predicate.identifiers]))
  | isNotNull c =>
    intro bound hid hb
    exact reads_isNotNull (hid c (by simp [Predicate.identifiers]))
  | like c pattern negated =>
    intro bound hid hb
    exact reads_like (hid c (by simp [Predicate.identifiers])) hb negated
  | related l =>
    intro bound hid hb
    have htable : Identifier l.table := hid _ (by simp [Predicate.identifiers, Link.identifiers])
    have h := reads_exists htable (reads_link hid hb) (List.cons_ne_nil _ _)
    rwa [← correlated_text] at h
  | unrelated l =>
    intro bound hid hb
    have htable : Identifier l.table := hid _ (by simp [Predicate.identifiers, Link.identifiers])
    have h := reads_not_exists htable (reads_link hid hb) (List.cons_ne_nil _ _)
    rwa [← correlated_text] at h
  | relatedWhere l p ih =>
    intro bound hid hb
    rw [Predicate.identifiers, List.forall_mem_append] at hid
    have htable : Identifier l.table := hid.1 _ (by simp [Link.identifiers])
    -- the inner clause is one more operand beside the equations, its values behind theirs
    have hinner := ih (bound + l.bindings.length) hid.2 hb.right
    have hall := List.rel_append (reads_link hid.1 hb.left) (.cons hinner .nil)
    have h := reads_exists htable hall (by simp)
    rw [← correlated_text_and] at h
    simpa [clause, Predicate.condition, String.append_assoc] using h
  | allOf ps ih =>
    intro bound hid hb
    have h := reads_allOf (reads_clauses_of ih bound hid hb)
    rwa [← group_text] at h
  | anyOf ps ih =>
    intro bound hid hb
    have h := reads_anyOf (reads_clauses_of ih bound hid hb)
    rwa [← group_text] at h

end Operands

/-! ## Root statements -/

/-- **What stands behind `WHERE` means that all filters hold.** It is missing when there are
none. Otherwise it is read as a condition, `AND` before `OR`, and whatever decides the atomic
conditions and the subqueries, that is true of a row exactly when every filter holds of it. -/
theorem holds_whereText (p : Plan)
    (hid : ∀ f ∈ p.filters, ∀ t ∈ f.identifiers, Identifier t) :
    (rootStatement p).sql =
        fromText p ++ (if p.filters = [] then "" else " WHERE " ++ whereText p) ++
          ordersText p ++ windowText p ∧
      (p.filters ≠ [] → ∃ c,
        Condition.read? (rootStatement p).params (whereText p) = some c ∧
        ∀ {ρ : Type} (I : Interpretation ρ) (r : ρ),
          c.holds I r ↔ ∀ f ∈ p.filters, f.holds I (.ofWord (rootStatement p).params) r) := by
  refine ⟨rootStatement_sql p, ?_⟩
  intro hne
  have hid' : ∀ t ∈ Predicate.identifiersAll p.filters, Identifier t := by
    intro t ht
    rw [Predicate.identifiersAll_eq, List.mem_flatMap] at ht
    obtain ⟨f, hf, ht⟩ := ht
    exact hid f hf t ht
  -- the filters come before the window among the values
  have hb : Bound (rootStatement p).params 0 (Predicate.bindingsAll p.filters) := by
    rw [rootStatement_params]
    exact List.prefix_append _ _
  have htexts := reads_clauses_of (fun f _ => reads_clause f) 0 hid' hb
  have hsome : (clauses 0 p.filters).map Clause.text ≠ [] := by
    cases hp : p.filters with
    | nil => exact absurd hp hne
    | cons f fs => simp [clauses]
  obtain ⟨is, hscan, hread⟩ := reads_every htexts hsome
  refine ⟨.every (Predicate.conditions (rootStatement p).params p.filters), ?_, ?_⟩
  · rw [Condition.read?, whereText, hscan.items?_eq, Option.bind_some, hread]
  · intro ρ I r
    rw [holds_every, conditions_eq_map, List.forall_mem_map]
    exact forall₂_congr fun f _ => holds_condition I _ f r

/-- Groups of none, of one and of several, with subqueries in a subquery. -/
theorem holds_of_notes :
    let link : Link :=
      ⟨"notes", "notes", "orders.id", "notes.note_id", some ⟨"notes.note_type", "Order"⟩⟩
    let author : Link := ⟨"author", "users", "notes.author_id", "users.id", none⟩
    let filters : List Predicate :=
      [.anyOf [.among "orders.status" [.string "open", .null], .allOf [.isNull "orders.total"]],
        .relatedWhere link (.anyOf [.like "notes.text" "rush" true,
          .allOf [.related author, .anyOf [.among "notes.kind" []]], .allOf []])]
    let plan : Plan :=
      { entity := "Order", table := "orders", joins := [], filters
        projection := none, orders := [], window := some ⟨20, 10⟩ }
    (∀ f ∈ plan.filters, ∀ t ∈ f.identifiers, Identifier t) ∧ plan.filters ≠ [] ∧
      (rootStatement plan).sql =
        fromText plan ++ (if plan.filters = [] then "" else " WHERE " ++ whereText plan) ++
          ordersText plan ++ windowText plan ∧
      ∃ c, Condition.read? (rootStatement plan).params (whereText plan) = some c ∧
        ∀ {ρ : Type} (I : Interpretation ρ) (r : ρ),
          c.holds I r ↔ ∀ f ∈ plan.filters, f.holds I (.ofWord (rootStatement plan).params) r := by
  intro link author filters plan
  have hid : ∀ f ∈ plan.filters, ∀ t ∈ f.identifiers, Identifier t := by decide
  have hne : plan.filters ≠ [] := List.cons_ne_nil _ _
  obtain ⟨hsql, hread⟩ := holds_whereText plan hid
  exact ⟨hid, hne, hsql, hread hne⟩

end Sql
end RequestPlan
