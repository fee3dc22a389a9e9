import RequestPlan.Registry

/-!
# Filters under another key

* `CompiledFilter.withKey`: a filter with another request key. The keys below a relation stay.
* `run_apply_withKey`: **such a filter makes the same predicates and the same joins**; only the
  error for a value that is refused names the other key.
-/

namespace RequestPlan

namespace CompiledFilter

/-- The filter with another request key. What is below a relation stays. -/
def withKey (key : String) : CompiledFilter → CompiledFilter
  | .column e _ mode col => .column e key mode col
  | .hook e _ name scope run => .hook e key name scope run
  | .related e _ link => .related e key link
  | .relatedWhere e _ link child => .relatedWhere e key link child

@[simp] theorem key_withKey (key : String) (f : CompiledFilter) : (f.withKey key).key = key := by
  cases f <;> rfl

@[simp] theorem withKey_key (f : CompiledFilter) : f.withKey f.key = f := by
  cases f <;> rfl

/-- The same result, except that a refused value may be reported for different keys. -/
def AgreeUpTo (key key' : String) (x y : Except Error (Option Predicate)) : Prop :=
  x = y ∨ ∃ fault, x = .error (.invalidFilterValue key fault) ∧
    y = .error (.invalidFilterValue key' fault)

end CompiledFilter

open CompiledFilter (AgreeUpTo)

theorem Registry.withKey_columnFilter (d : Definition) (k key : FilterKey) (aliasName : String)
    (entry : Entry) :
    (columnFilter d k aliasName entry).withKey (FilterKey.text key) =
      columnFilter d key aliasName entry := by
  unfold columnFilter
  dsimp only
  split <;> rfl

theorem Registry.key_columnFilter (d : Definition) (key : FilterKey) (aliasName : String)
    (entry : Entry) : (columnFilter d key aliasName entry).key = FilterKey.text key := by
  rw [← withKey_columnFilter d key, CompiledFilter.key_withKey]

namespace Mode

variable (column key key' : String) (settings : Settings) (v : Value)

theorem flagPredicate?_agree (strict : Bool) :
    AgreeUpTo key key' (flagPredicate? column key strict v)
      (flagPredicate? column key' strict v) := by
  unfold flagPredicate?
  split
  · exact .inl rfl
  · split
    · exact .inl rfl
    · split
      · exact .inl rfl
      · split
        · exact .inr ⟨.notFlag v, rfl, rfl⟩
        · exact .inl rfl

theorem datePredicate?_agree (op : Comparison) :
    AgreeUpTo key key' (datePredicate? column key op v) (datePredicate? column key' op v) := by
  unfold datePredicate?
  split
  · exact .inl rfl
  · split
    · exact .inl rfl
    · split
      · exact .inl rfl
      · exact .inr ⟨.notTimestamp v, rfl, rfl⟩

/-- The key is used for nothing but the error. -/
theorem predicate_agree (mode : Mode) :
    AgreeUpTo key key' (mode.predicate column key settings v)
      (mode.predicate column key' settings v) := by
  cases mode with
  | flag => exact flagPredicate?_agree column key key' v settings.strictFlags
  | date op => exact datePredicate?_agree column key key' v op
  | _ => exact .inl rfl

end Mode

namespace CompiledFilter

theorem applyAlone_withKey (key : String) (settings : Settings) (v : Value) (f : CompiledFilter) :
    AgreeUpTo f.key key (f.applyAlone settings v) ((f.withKey key).applyAlone settings v) := by
  cases f with
  | column e k mode col => exact Mode.predicate_agree col k key settings v mode
  | hook e k name scope run => exact .inl rfl
  | related e k link => exact .inl rfl
  | relatedWhere e k link child => exact .inl rfl

/-- **A filter under another key makes the same predicates and the same joins.** -/
theorem run_apply_withKey (key : String) (c : Catalog) (root : Definition) (settings : Settings)
    (v : Value) (f : CompiledFilter) (js : Joins) :
    ((f.apply c root settings v).run.run js).2 =
        (((f.withKey key).apply c root settings v).run.run js).2 ∧
      AgreeUpTo f.key key ((f.apply c root settings v).run.run js).1
        (((f.withKey key).apply c root settings v).run.run js).1 := by
  have halone := applyAlone_withKey key settings v f
  cases f with
  | hook e k name scope run => exact ⟨rfl, .inl rfl⟩
  | column e k mode col | related e k link | relatedWhere e k link child =>
    simp only [apply, withKey, Work.run_of]
    exact ⟨trivial, halone⟩

end CompiledFilter
end RequestPlan
