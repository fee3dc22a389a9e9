import RequestPlan.Filter.Reading
import RequestPlan.Proofs.Sql.Meaning
import RequestPlan.Proofs.Text.Case

/-!
# Text filters

* `Value.asciiLower`: a value with the ASCII capitals of its texts in lower case, at any depth of
  lists; values that differ in the case of their ASCII letters only have the same one.
* `Value.leaves`: the scalars of a value, those of lists in lists included.
* `Predicate.alternatives`: the conditions of which one has to hold, out of all groups;
  `holds_iff_alternatives`: **a predicate holds exactly when one of them does**.
* `textPredicate?_leaves`: **the text test of a value does not depend on case, and asks for one of
  the tests of its scalars**.
-/

namespace RequestPlan

/-! ## Values -/

namespace Value

mutual

/-- The value with the ASCII capitals of its texts in lower case. -/
def asciiLower : Value → Value
  | .string s => .string (Text.asciiLower s)
  | .list vs => .list (asciiLowers vs)
  | v => v

/-- Several values with the ASCII capitals of their texts in lower case. -/
def asciiLowers : List Value → List Value
  | [] => []
  | v :: vs => asciiLower v :: asciiLowers vs

end

mutual

/-- The scalars of a value, from the first to the last. -/
def leaves : Value → List Value
  | .list vs => leavesAll vs
  | v => [v]

/-- The scalars of several values. -/
def leavesAll : List Value → List Value
  | [] => []
  | v :: vs => leaves v ++ leavesAll vs

end

variable {v : Value} {vs : List Value}

theorem asciiLowers_eq (vs : List Value) : asciiLowers vs = vs.map asciiLower := by
  induction vs with
  | nil => rfl
  | cons v vs ih => rw [asciiLowers, ih, List.map_cons]

theorem leavesAll_eq (vs : List Value) : leavesAll vs = vs.flatMap leaves := by
  induction vs with
  | nil => rfl
  | cons v vs ih => rw [leavesAll, ih, List.flatMap_cons]

theorem isList_of_mem_leaves (v : Value) : ∀ leaf ∈ v.leaves, leaf.isList = false := by
  induction v using Value.induct with
  | list vs ih =>
    intro leaf hleaf
    rw [leaves, leavesAll_eq] at hleaf
    obtain ⟨v, hv, hleaf⟩ := List.mem_flatMap.1 hleaf
    exact ih v hv leaf hleaf
  | _ => exact List.forall_mem_singleton.2 rfl

end Value

/-! ## Predicates -/

namespace Predicate

mutual

/-- The conditions of which one has to hold. -/
def alternatives : Predicate → List Predicate
  | .anyOf ps => alternativesAll ps
  | p => [p]

/-- The alternatives of several predicates. -/
def alternativesAll : List Predicate → List Predicate
  | [] => []
  | p :: ps => alternatives p ++ alternativesAll ps

end

variable {p : Predicate} {ps : List Predicate}

theorem alternativesAll_eq (ps : List Predicate) :
    alternativesAll ps = ps.flatMap alternatives := by
  induction ps with
  | nil => rfl
  | cons p ps ih => rw [alternativesAll, ih, List.flatMap_cons]

/-- Joined conditions have the alternatives of all of them. -/
theorem alternatives_any? (ps : List Predicate) :
    (any? ps).toList.flatMap alternatives = ps.flatMap alternatives := by
  match ps with
  | [] => rfl
  | [p] => rfl
  | p :: q :: ps =>
    show alternativesAll (p :: q :: ps) ++ [] = _
    rw [List.append_nil, alternativesAll_eq]

theorem alternatives_ne_nil_of_any? (h : any? ps = some p)
    (hall : ∀ q ∈ ps, q.alternatives ≠ []) : p.alternatives ≠ [] := by
  have hflat := alternatives_any? ps
  rw [h, Option.toList_some, List.flatMap_singleton] at hflat
  rw [hflat, Ne, List.flatMap_eq_nil_iff]
  intro hnil
  cases ps with
  | nil => cases h
  | cons q qs => exact hall q List.mem_cons_self (hnil q List.mem_cons_self)

/-- **A predicate holds exactly when one of its alternatives does.** -/
theorem holds_iff_alternatives {ρ : Type} (I : Sql.Interpretation ρ) (term : String → Sql.Term)
    (r : ρ) (p : Predicate) : p.holds I term r ↔ ∃ q ∈ p.alternatives, q.holds I term r := by
  induction p using Predicate.induct with
  | anyOf ps ih =>
    rw [holds, anyHolds_iff, alternatives, alternativesAll_eq]
    simp only [List.mem_flatMap]
    constructor
    · rintro ⟨p, hp, hholds⟩
      obtain ⟨q, hq, hq'⟩ := (ih p hp).1 hholds
      exact ⟨q, ⟨p, hp, hq⟩, hq'⟩
    · rintro ⟨q, ⟨p, hp, hq⟩, hholds⟩
      exact ⟨p, hp, (ih p hp).2 ⟨q, hq, hholds⟩⟩
  | _ => simp [alternatives]

end Predicate

/-! ## Texts in any case -/

namespace Mode

variable {column : String} {v w : Value} {p : Predicate}

theorem textPredicates_eq (column : String) (vs : List Value) :
    textPredicates column vs = vs.filterMap (textPredicate? column) := by
  induction vs with
  | nil => rfl
  | cons v vs ih =>
    rw [textPredicates, List.filterMap_cons, ih]
    cases textPredicate? column v <;> rfl

theorem sentinel_asciiLower (s : String) :
    Sentinel.of? (.string (Text.asciiLower s)) = Sentinel.of? (.string s) := by
  rw [Sentinel.of?, Sentinel.of?, Text.trim_asciiLower, Text.asciiLower_asciiLower]

theorem scalarTextPredicate?_asciiLower (column s : String) :
    scalarTextPredicate? column (.string (Text.asciiLower s)) =
      scalarTextPredicate? column (.string s) := by
  rw [scalarTextPredicate?, scalarTextPredicate?, sentinel_asciiLower]
  simp only [Value.text?, Option.map_some, Text.lower_asciiLower]

/-- **The text test of a value is the one of the value in lower case**, whatever prefix or sentinel
its texts are. -/
theorem textPredicate?_asciiLower (column : String) (v : Value) :
    textPredicate? column v.asciiLower = textPredicate? column v := by
  induction v using Value.induct with
  | string s =>
    rw [Value.asciiLower, textPredicate?, textPredicate?, Text.isEmpty_asciiLower,
      scalarTextPredicate?_asciiLower]
  | list vs ih =>
    rw [Value.asciiLower, textPredicate?, textPredicate?, textPredicates_eq, textPredicates_eq,
      Value.asciiLowers_eq, List.filterMap_map]
    exact congrArg Predicate.any? (List.filterMap_congr ih)
  | _ => rfl

/-! ## Lists of texts -/

theorem alternatives_of_scalarTextPredicate? (h : scalarTextPredicate? column v = some p) :
    p.alternatives = [p] := by
  unfold scalarTextPredicate? at h
  split at h
  · cases h
    rfl
  · rename_i s _ _
    cases s <;> cases h <;> rfl
  · obtain ⟨t, -, rfl⟩ := Option.map_eq_some_iff.1 h
    dsimp only
    split
    · rfl
    · split <;> rfl

/-- The text test of a scalar is no group. -/
theorem alternatives_of_scalar (hv : v.isList = false) (h : textPredicate? column v = some p) :
    p.alternatives = [p] := by
  cases v with
  | null => cases h
  | list vs => cases hv
  | string s =>
    rw [textPredicate?] at h
    split at h
    · cases h
    · exact alternatives_of_scalarTextPredicate? h
  | _ =>
    rw [textPredicate?] at h
    exact alternatives_of_scalarTextPredicate? h

theorem flatMap_alternatives_of_scalar (column : String) (hv : v.isList = false) :
    (textPredicate? column v).toList.flatMap Predicate.alternatives =
      [v].filterMap (textPredicate? column) := by
  cases h : textPredicate? column v with
  | none => simp [h]
  | some p => simp [h, alternatives_of_scalar hv h]

/-- **The alternatives of a text test are the tests of the scalars**, in their order, of those that
have one. -/
theorem flatMap_alternatives_textPredicate? (column : String) (v : Value) :
    (textPredicate? column v).toList.flatMap Predicate.alternatives =
      v.leaves.filterMap (textPredicate? column) := by
  induction v using Value.induct with
  | list vs ih =>
    rw [textPredicate?, Predicate.alternatives_any?, textPredicates_eq, Value.leaves,
      Value.leavesAll_eq]
    induction vs with
    | nil => rfl
    | cons v vs ihvs =>
      rw [List.forall_mem_cons] at ih
      rw [List.flatMap_cons, List.filterMap_append, ← ih.1, ← ihvs ih.2, List.filterMap_cons]
      cases textPredicate? column v <;> simp
  | _ => exact flatMap_alternatives_of_scalar column rfl

theorem alternatives_of_textPredicate? (h : textPredicate? column v = some p) :
    p.alternatives = v.leaves.filterMap (textPredicate? column) := by
  rw [← flatMap_alternatives_textPredicate?, h, Option.toList_some, List.flatMap_singleton]

/-- A text test asks for something, also when it is the one of a list of lists. -/
theorem alternatives_ne_nil (h : textPredicate? column v = some p) : p.alternatives ≠ [] := by
  induction v using Value.induct generalizing p with
  | list vs ih =>
    rw [textPredicate?, textPredicates_eq] at h
    have hall : ∀ q ∈ vs.filterMap (textPredicate? column), q.alternatives ≠ [] := by
      intro q hq
      obtain ⟨v, hv, hq⟩ := List.mem_filterMap.1 hq
      exact ih v hv hq
    exact Predicate.alternatives_ne_nil_of_any? h hall
  | _ => simp [alternatives_of_scalar rfl h]

/-- **A value has no text test exactly when none of its scalars has one.** -/
theorem textPredicate?_eq_none_iff (column : String) (v : Value) :
    textPredicate? column v = none ↔ ∀ leaf ∈ v.leaves, textPredicate? column leaf = none := by
  rw [← List.filterMap_eq_nil_iff, ← flatMap_alternatives_textPredicate?]
  cases h : textPredicate? column v with
  | none => simp
  | some p => simp [alternatives_ne_nil h]

/-- **Texts are tested whatever their case, and lists scalar by scalar**: a value in another case
has the same test, and the test of a value is one of the tests of its scalars, in their order, of
those that have one. There is none when no scalar has one. -/
theorem textPredicate?_leaves (column : String) (v : Value) :
    (∀ w : Value, w.asciiLower = v.asciiLower →
        textPredicate? column w = textPredicate? column v) ∧
      (∀ leaf ∈ v.leaves, leaf.isList = false) ∧
      (textPredicate? column v = none ↔ ∀ leaf ∈ v.leaves, textPredicate? column leaf = none) ∧
      ∀ p, textPredicate? column v = some p →
        p.alternatives = v.leaves.filterMap (textPredicate? column) ∧
        ∀ {ρ : Type} (I : Sql.Interpretation ρ) (term : String → Sql.Term) (r : ρ),
          p.holds I term r ↔
            (Predicate.anyOf (v.leaves.filterMap (textPredicate? column))).holds I term r := by
  refine ⟨fun w hw => ?_, v.isList_of_mem_leaves, textPredicate?_eq_none_iff column v,
    fun p hp => ⟨alternatives_of_textPredicate? hp, fun I term r => ?_⟩⟩
  · rw [← textPredicate?_asciiLower column w, hw, textPredicate?_asciiLower]
  · rw [Predicate.holds_iff_alternatives, alternatives_of_textPredicate? hp, Predicate.holds,
      Predicate.anyHolds_iff]

/-- A list in a list, with a prefix and a sentinel in capitals and an empty text between them. -/
theorem textPredicate?_of_names :
    let names := Value.list [.string "NOT:Bob", .list [.string "", .string "Null:"]]
    textPredicate? "name" (.list [.string "not:bob", .list [.string "", .string "null:"]]) =
        textPredicate? "name" names ∧
      textPredicate? "name" (.list [.string "", .list []]) = none ∧
      names.leaves.filterMap (textPredicate? "name") =
        [.like "name" "bob" true, .isNull "name"] ∧
      ∀ {ρ : Type} (I : Sql.Interpretation ρ) (term : String → Sql.Term) (r : ρ),
        (Predicate.anyOf [.like "name" "bob" true, .isNull "name"]).holds I term r ↔
          (Predicate.anyOf (names.leaves.filterMap (textPredicate? "name"))).holds I term r := by
  intro names
  have hp : textPredicate? "name" names =
      some (.anyOf [.like "name" "bob" true, .isNull "name"]) := by rfl
  obtain ⟨hcase, -, -, htests⟩ := textPredicate?_leaves "name" names
  have hnone := (textPredicate?_leaves "name" (.list [.string "", .list []])).2.2.1
  refine ⟨hcase _ (by rfl), hnone.2 ?_, (htests _ hp).1.symm, (htests _ hp).2⟩
  exact List.forall_mem_singleton.2 rfl

end Mode
end RequestPlan
