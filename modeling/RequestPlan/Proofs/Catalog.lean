import RequestPlan.Proofs.Catalog.Declarations

/-!
# Names in catalogs and tables

* `Table.exists_declaration`: what is in a table comes from a declaration that was checked, so
  that no alias is empty or divides keys and paths (`Table.aliasName_of_find?`).
* `Catalog.Named`: entities are found under their own names.
* `Catalog.Extends`: a catalog knows all that another one knows. Registration extends.
-/

namespace RequestPlan

/-! ## Tables -/

/-- An alias that passed its check has none of the characters that divide keys and paths, and
does not stand for all columns. -/
theorem Declaration.aliasName_of_fault? {d : Declaration} (h : d.fault? = none) :
    d.aliasName ≠ "" ∧ d.aliasName ≠ "*" ∧ ∀ c ∈ d.aliasName.toList, isReserved c = false := by
  rw [Declaration.fault?] at h
  split at h
  · cases h
  · rename_i hblank
    split at h
    · cases h
    · rename_i hreserved
      rw [Bool.or_eq_true, not_or, List.any_eq_true, decide_eq_true_eq] at hreserved
      refine ⟨?_, hreserved.2, ?_⟩
      · intro hempty
        rw [hempty] at hblank
        exact hblank rfl
      · intro c hc
        exact Bool.eq_false_iff.2 fun hr => hreserved.1 ⟨c, hc, hr⟩

/-- **Every entry of a table is the one of a declaration that passed its check.** -/
theorem Table.exists_declaration {e : Entity} {k : Kind} {t : Table} {a : String} {entry : Entry}
    (h : Table.of e k = .ok t) (hfind : t.find? a = some entry) :
    ∃ d ∈ e.declared k, e.check d = .ok () ∧ d.aliasName = a ∧ entry = e.entry d := by
  obtain ⟨d, hlast, hname, hentry⟩ := (Table.find?_iff_of_eq_ok h).1 hfind
  have hsound : d.fault? = none := (Table.of_eq_ok_iff.1 h).2.1 d hlast.mem
  exact ⟨d, hlast.mem, Entity.check_eq_ok_iff.2 hsound, hname, hentry⟩

/-- **No alias of a table is empty, stands for all columns or divides keys and paths.** -/
theorem Table.aliasName_of_find? {e : Entity} {k : Kind} {t : Table} {a : String} {entry : Entry}
    (h : Table.of e k = .ok t) (hfind : t.find? a = some entry) :
    a ≠ "" ∧ a ≠ "*" ∧ ∀ c ∈ a.toList, isReserved c = false := by
  obtain ⟨d, -, hcheck, rfl, -⟩ := Table.exists_declaration h hfind
  exact Declaration.aliasName_of_fault? (Entity.check_eq_ok_iff.1 hcheck)

theorem Table.find?_empty {e : Entity} {k : Kind} {t : Table} (h : Table.of e k = .ok t) :
    t.find? "" = none := by
  cases hfind : t.find? "" with
  | none => rfl
  | some entry => exact absurd rfl (Table.aliasName_of_find? h hfind).1

/-! ## Catalogs -/

namespace Catalog

variable {c c' : Catalog} {d : Definition} {name : String}

/-- Entities are found under their own names. -/
def Named (c : Catalog) : Prop := ∀ name d, c.find? name = some d → d.name = name

/-- Every entity of a catalog is found in another one, too. -/
def Extends (c c' : Catalog) : Prop := ∀ name d, c.find? name = some d → c'.find? name = some d

theorem get_eq_ok_iff : c.get name = .ok d ↔ c.find? name = some d := by
  unfold get
  cases c.find? name <;> simp

theorem get_eq_error_iff {err : Error} :
    c.get name = .error err ↔ c.find? name = none ∧ err = .unknownEntity name := by
  unfold get
  cases c.find? name <;> simp [eq_comm]

theorem named_empty : Named ∅ := by
  intro name d h
  cases h

/-- What a registration does when it is not refused. -/
theorem register_eq_ok (h : c.register d = .ok c') :
    c.find? d.name = none ∧ c' = c.put d.name d := by
  unfold register at h
  cases hvalid : d.validate with
  | error err =>
    rw [hvalid] at h
    cases h
  | ok u =>
    rw [hvalid] at h
    cases hfind : c.find? d.name with
    | some d' =>
      simp [bind, Except.bind, Dict.contains, hfind] at h
    | none =>
      simp [bind, Except.bind, Dict.contains, hfind] at h
      exact ⟨rfl, h.symm⟩

theorem Named.register (hc : c.Named) (h : c.register d = .ok c') : c'.Named := by
  obtain ⟨-, rfl⟩ := register_eq_ok h
  intro name e he
  rw [Dict.find?_put] at he
  split at he
  · rename_i hname
    cases he
    exact hname.symm
  · exact hc name e he

theorem extends_register (h : c.register d = .ok c') : c.Extends c' := by
  obtain ⟨hnew, rfl⟩ := register_eq_ok h
  intro name e he
  have hname : name ≠ d.name := by
    rintro rfl
    rw [hnew] at he
    cases he
  rw [Dict.find?_put, if_neg hname, he]

end Catalog
end RequestPlan
