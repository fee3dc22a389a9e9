import RequestPlan.Catalog.Basic
import RequestPlan.Proofs.Outcome

/-!
# Tables and their declarations

* `Entity.IsLast`: the last declaration of its alias, and `Entity.find?_write_iff`: what an alias
  stands for is what was written last.
* `Table.of_eq`: a table has the declarations that count, unless one of them has a fault, and then
  the first fault is reported.
* `Entity.validate_eq_ok_iff`: an entity is accepted when none of its declarations has a fault.
* `Table.last_of_declarations`: **an alias stands for its last declaration**, the shared ones that
  are meant for the kind before its own, and an entity that was accepted has no table with a fault.
-/

namespace RequestPlan

/-- An error that says of an entity that it does not declare a kind. -/
def Error.Undeclared : Error → Prop
  | .notFilterable _ | .notSortable _ | .notSelectable _ => True
  | _ => False

theorem Error.Undeclared.error_ne {α : Type} {err e : Error} (h : err.Undeclared)
    (he : ¬e.Undeclared) : (.error e : Except Error α) ≠ .error err :=
  fun heq => he (Except.error.inj heq ▸ h)

/-! ## Declarations that are written one after the other -/

namespace Entity

variable {e : Entity} {ds : List Declaration} {es : Dict Entry} {d : Declaration} {a : String}
  {entry : Entry}

/-- Entries with those of declarations written after them. -/
def write (e : Entity) (es : Dict Entry) (ds : List Declaration) : Dict Entry :=
  ds.foldl (fun es d => es.put d.aliasName (e.entry d)) es

theorem write_cons : e.write es (d :: ds) = e.write (es.put d.aliasName (e.entry d)) ds := rfl

/-- A declaration is the last one of its alias. -/
def IsLast (ds : List Declaration) (d : Declaration) : Prop :=
  ∃ before behind, ds = before ++ d :: behind ∧ ∀ later ∈ behind, later.aliasName ≠ d.aliasName

theorem IsLast.mem (h : IsLast ds d) : d ∈ ds := by
  obtain ⟨before, behind, rfl, -⟩ := h
  exact List.mem_append_right before List.mem_cons_self

theorem isLast_cons {first : Declaration} : IsLast (first :: ds) d ↔
    IsLast ds d ∨ first = d ∧ ∀ later ∈ ds, later.aliasName ≠ d.aliasName := by
  constructor
  · rintro ⟨before, behind, heq, hlast⟩
    cases before with
    | nil =>
      obtain ⟨rfl, rfl⟩ := List.cons.inj heq
      exact .inr ⟨rfl, hlast⟩
    | cons first before =>
      obtain ⟨rfl, rfl⟩ := List.cons.inj heq
      exact .inl ⟨before, behind, rfl, hlast⟩
  · rintro (⟨before, behind, rfl, hlast⟩ | ⟨rfl, hlast⟩)
    · exact ⟨first :: before, behind, rfl, hlast⟩
    · exact ⟨[], ds, rfl, hlast⟩

theorem find?_write_eq_none_iff : (e.write es ds).find? a = none ↔
    es.find? a = none ∧ ∀ d ∈ ds, d.aliasName ≠ a := by
  induction ds generalizing es with
  | nil => simp [write]
  | cons d ds ih =>
    rw [write_cons, ih, Dict.find?_put, List.forall_mem_cons]
    by_cases ha : a = d.aliasName
    · simp [ha]
    · simp [ha, Ne.symm ha]

/-- **What an alias stands for is what was written last.** -/
theorem find?_write_iff : (e.write es ds).find? a = some entry ↔
    (∃ d, IsLast ds d ∧ d.aliasName = a ∧ entry = e.entry d) ∨
      es.find? a = some entry ∧ ∀ d ∈ ds, d.aliasName ≠ a := by
  induction ds generalizing es with
  | nil => simp [write, IsLast]
  | cons first ds ih =>
    rw [write_cons, ih, Dict.find?_put, List.forall_mem_cons]
    simp only [isLast_cons]
    by_cases ha : a = first.aliasName
    · subst ha
      simp only [if_true, Option.some.injEq]
      constructor
      · rintro (⟨d, hlast, h⟩ | ⟨rfl, hlater⟩)
        · exact .inl ⟨d, .inl hlast, h⟩
        · exact .inl ⟨first, .inr ⟨rfl, hlater⟩, rfl, rfl⟩
      · rintro (⟨d, hlast | ⟨rfl, hlater⟩, hname, hentry⟩ | ⟨-, hne, -⟩)
        · exact .inl ⟨d, hlast, hname, hentry⟩
        · exact .inr ⟨hentry.symm, hlater⟩
        · exact absurd rfl hne
    · -- the first declaration is of another alias
      rw [if_neg ha, and_iff_right (Ne.symm ha)]
      refine or_congr_left (exists_congr fun d => and_congr_left fun h => ?_)
      refine ⟨.inl, fun hlast => hlast.resolve_right ?_⟩
      rintro ⟨rfl, -⟩
      exact ha h.1.symm

/-! ## Declarations with faults -/

theorem check_eq_ok_iff : e.check d = .ok () ↔ d.fault? = none := by
  unfold check
  cases d.fault? <;> simp

/-- **An entity is accepted when none of its declarations has a fault.** -/
theorem validate_eq_ok_iff : e.validate = .ok () ↔
    ∀ k ds, e.declarations k = some ds → ∀ d ∈ ds, d.fault? = none := by
  unfold validate
  simp only [Outcome.forM_eq_ok_iff, check_eq_ok_iff]
  constructor
  · intro h k ds hds
    have hkind := h k (by cases k <;> simp)
    rwa [hds] at hkind
  · intro h k _
    cases hds : e.declarations k with
    | none => exact fun d hd => absurd hd List.not_mem_nil
    | some ds => exact h k ds hds

/-- What counts for a kind is declared for it or shared. -/
theorem mem_declared {k : Kind} (h : d ∈ e.declared k) :
    ∃ k' ds, e.declarations k' = some ds ∧ d ∈ ds := by
  have hget : ∀ k', d ∈ (e.declarations k').getD [] →
      ∃ ds, e.declarations k' = some ds ∧ d ∈ ds := by
    intro k' hmem
    cases hds : e.declarations k' with
    | none =>
      rw [hds] at hmem
      cases hmem
    | some ds =>
      rw [hds] at hmem
      exact ⟨ds, rfl, hmem⟩
  rw [declared, List.mem_append] at h
  rcases h with h | h
  · split at h
    · cases h
    · exact ⟨.queryable, hget .queryable (List.mem_filter.1 h).1⟩
  · exact ⟨k, hget k h⟩

theorem declares_eq_false_iff {k : Kind} : e.declares k = false ↔
    e.declarations k = none ∧ (k = .queryable ∨ e.queryable = none) := by
  unfold declares
  cases e.declarations k <;> cases e.queryable <;> simp

/-- A kind that is not declared has an error that tells the entity and the kind. -/
theorem undeclared_inj {e' : Entity} {k k' : Kind} {err : Error} (h : e.undeclared k = some err)
    (h' : e'.undeclared k' = some err) : e.name = e'.name ∧ k = k' := by
  cases k <;> cases h <;> cases k' <;> simp_all [undeclared]

theorem undeclared_of_eq_some {k : Kind} {err : Error} (h : e.undeclared k = some err) :
    err.Undeclared := by
  cases k <;> cases h <;> trivial

theorem declared_eq_nil {k : Kind} (h : e.declares k = false) : e.declared k = [] := by
  obtain ⟨hown, hshared⟩ := declares_eq_false_iff.1 h
  unfold declared
  rcases hshared with rfl | hshared
  · rw [hown]
    rfl
  · rw [hown, hshared]
    simp

end Entity

namespace Table

variable {e : Entity} {k : Kind} {t : Table} {ds : List Declaration} {a : String} {entry : Entry}

/-- Declarations come in one after the other, up to the first that has a fault. -/
theorem foldlM_eq (t : Table) :
    ds.foldlM (fun t d =>
      (e.check d).map fun () => { t with entries := t.entries.put d.aliasName (e.entry d) }) t =
      match ds.findSome? Declaration.fault? with
      | some fault => .error (.invalidDeclaration e.name fault)
      | none => .ok { t with entries := e.write t.entries ds } := by
  induction ds generalizing t with
  | nil => rfl
  | cons d ds ih =>
    rw [List.foldlM_cons, List.findSome?_cons, Entity.check]
    cases d.fault? with
    | some fault => rfl
    | none => exact ih _

/-- **A table has the declarations that count**, unless one of them has a fault, and then the first
fault is reported. A kind without declarations has an error of its own. -/
theorem of_eq (e : Entity) (k : Kind) : Table.of e k =
    if e.declares k then
      match (e.declared k).findSome? Declaration.fault? with
      | some fault => .error (.invalidDeclaration e.name fault)
      | none => .ok ⟨e.name, k, e.write ∅ (e.declared k)⟩
    else
      match e.undeclared k with
      | some err => .error err
      | none => .ok ⟨e.name, k, ∅⟩ := by
  unfold Table.of
  cases e.declares k with
  | true => exact foldlM_eq _
  | false => rfl

/-- There is a table when the kind is declared and nothing that counts for it has a fault. -/
theorem of_eq_ok_iff : Table.of e k = .ok t ↔
    (e.declares k = true ∨ k = .queryable) ∧ (∀ d ∈ e.declared k, d.fault? = none) ∧
      t = ⟨e.name, k, e.write ∅ (e.declared k)⟩ := by
  rw [of_eq, ← List.findSome?_eq_none_iff]
  cases hdeclares : e.declares k with
  | true =>
    rw [if_pos rfl]
    cases (e.declared k).findSome? Declaration.fault? with
    | some fault => simp
    | none => simp [eq_comm]
  | false =>
    rw [if_neg Bool.false_ne_true, Entity.declared_eq_nil hdeclares]
    cases k with
    | queryable => simp [Entity.undeclared, Entity.write, eq_comm]
    | filterable | sortable | selectable => simp [Entity.undeclared]

/-- **A kind is refused when neither it nor anything shared is declared**, not even an empty
list. -/
theorem of_eq_error_iff {err : Error} (h : e.undeclared k = some err) :
    Table.of e k = .error err ↔ e.declarations k = none ∧ e.queryable = none := by
  have hkind : k ≠ .queryable := by
    rintro rfl
    cases h
  have hiff : e.declares k = false ↔ e.declarations k = none ∧ e.queryable = none := by
    rw [Entity.declares_eq_false_iff, or_iff_right hkind]
  rw [of_eq, h, ← hiff]
  cases e.declares k with
  | true =>
    rw [if_pos rfl]
    refine iff_of_false ?_ (by decide)
    split
    · exact (Entity.undeclared_of_eq_some h).error_ne id
    · nofun
  | false => exact iff_of_true rfl rfl

/-- Lists with nothing that counts make an empty table. -/
theorem of_eq_empty (h : e.declared k = []) (hdeclares : e.declares k = true) :
    Table.of e k = .ok ⟨e.name, k, ∅⟩ := by
  refine of_eq_ok_iff.2 ⟨.inl hdeclares, ?_, ?_⟩
  · simp [h]
  · rw [h]
    rfl

/-- **What an alias stands for is its last declaration.** -/
theorem find?_iff_of_eq_ok (h : Table.of e k = .ok t) : t.find? a = some entry ↔
    ∃ d, Entity.IsLast (e.declared k) d ∧ d.aliasName = a ∧ entry = e.entry d := by
  obtain ⟨-, -, rfl⟩ := of_eq_ok_iff.1 h
  exact Entity.find?_write_iff.trans (or_iff_left fun hnone => by cases hnone.1)

theorem find?_eq_none_iff_of_eq_ok (h : Table.of e k = .ok t) : t.find? a = none ↔
    ∀ d ∈ e.declared k, d.aliasName ≠ a := by
  obtain ⟨-, -, rfl⟩ := of_eq_ok_iff.1 h
  exact Entity.find?_write_eq_none_iff.trans (and_iff_right rfl)

/-- Entries are kept under their own aliases. -/
theorem keys_of_eq_ok (h : Table.of e k = .ok t) :
    t.entries.values.map Entry.aliasName = t.entries.keys := by
  unfold Dict.values Dict.keys
  rw [List.map_map]
  refine List.map_congr_left fun p hp => ?_
  obtain ⟨d, -, hname, hentry⟩ := (find?_iff_of_eq_ok h).1 (Dict.find?_eq_some_iff.2 hp)
  show p.2.aliasName = p.1
  rw [hentry, ← hname]
  rfl

/-- What is listed in a table is what its alias stands for. -/
theorem find?_of_mem_values (h : Table.of e k = .ok t) (hentry : entry ∈ t.entries.values) :
    t.find? entry.aliasName = some entry := by
  obtain ⟨⟨a, entry⟩, hmem, rfl⟩ := List.mem_map.1 hentry
  have hfind : t.find? a = some entry := Dict.find?_eq_some_iff.2 hmem
  obtain ⟨d, -, rfl, rfl⟩ := (find?_iff_of_eq_ok h).1 hfind
  exact hfind

/-- An entity that was accepted has no table with a fault. -/
theorem fault?_of_register {c c' : Catalog} {d : Definition} (h : c.register d = .ok c') :
    ∀ decl ∈ d.declared k, decl.fault? = none := by
  obtain ⟨_, hvalid, -⟩ := Outcome.bind_eq_ok.1 h
  intro decl hdecl
  obtain ⟨k', ds, hds, hmem⟩ := Entity.mem_declared hdecl
  exact Entity.validate_eq_ok_iff.1 hvalid k' ds hds decl hmem

/-- **An alias stands for its last declaration.** Those that count for a kind are the shared ones
that are meant for it, none for the shared kind itself, and behind them its own, whatever uses these
name. Without a declaration an alias stands for nothing. An entry is a relation exactly when its key
is one, and the entries are listed in strict order of their aliases. An entity that was registered
has a table of every kind that it declares, and no table of it is refused for a fault. -/
theorem last_of_declarations (d : Definition) (k : Kind) :
    let shared := if k = .queryable then [] else (d.queryable.getD []).filter (·.uses.allows k)
    let declared := shared ++ (d.declarations k).getD []
    (∀ t, Table.of d.toEntity k = .ok t →
      (∀ a entry, t.find? a = some entry ↔
        ∃ before decl behind, declared = before ++ decl :: behind ∧ decl.aliasName = a ∧
          (∀ later ∈ behind, later.aliasName ≠ a) ∧
          entry = ⟨a, decl.mode, decl.key, (d.relation? decl.key).map Relation.related⟩) ∧
      (∀ a, t.find? a = none ↔ ∀ decl ∈ declared, decl.aliasName ≠ a) ∧
      (∀ entry ∈ t.entries.values, t.find? entry.aliasName = some entry ∧
        (entry.isRelation = true ↔ ∃ r, d.relation? entry.key = some r)) ∧
      (t.entries.values.map Entry.aliasName).Pairwise (· < ·)) ∧
    ∀ c c', Catalog.register c d = .ok c' →
      (d.declares k = true → ∃ t, Table.of d.toEntity k = .ok t) ∧
      ∀ name fault, Table.of d.toEntity k ≠ .error (.invalidDeclaration name fault) := by
  intro shared declared
  refine ⟨fun t ht => ⟨fun a entry => ?_, fun a => find?_eq_none_iff_of_eq_ok ht,
    fun entry hentry => ⟨find?_of_mem_values ht hentry, ?_⟩, ?_⟩, fun c c' hregister => ⟨?_, ?_⟩⟩
  · rw [find?_iff_of_eq_ok ht]
    constructor
    · rintro ⟨decl, ⟨before, behind, heq, hlast⟩, rfl, rfl⟩
      exact ⟨before, decl, behind, heq, rfl, hlast, rfl⟩
    · rintro ⟨before, decl, behind, heq, rfl, hlast, rfl⟩
      exact ⟨decl, ⟨before, behind, heq, hlast⟩, rfl, rfl⟩
  · obtain ⟨decl, -, -, rfl⟩ := (find?_iff_of_eq_ok ht).1 (find?_of_mem_values ht hentry)
    rw [Entry.isRelation, Entity.entry, Option.isSome_map, Option.isSome_iff_exists]
  · rw [keys_of_eq_ok ht]
    exact t.entries.keys_ordered
  · exact fun hdeclares => ⟨_, of_eq_ok_iff.2 ⟨.inl hdeclares, fault?_of_register hregister, rfl⟩⟩
  · intro name fault hfault
    rw [of_eq, List.findSome?_eq_none_iff.2 (fault?_of_register hregister)] at hfault
    split at hfault
    · cases hfault
    · cases k <;> cases hfault

end Table

/-! ## Events -/

/-- Events, with some aliases declared again. -/
def Entity.event : Entity where
  name := "Event"
  table := "events"
  key := "id"
  relations := Dict.ofList [("owner", .plain .owning "owner" "User" "owner_id" "")]
  queryable := some [.bare "id", .typed "note" (some "string") "memo",
    .full "title" (some "string") "title" ⟨true, true, false⟩, .typed "id" none "number"]
  filterable := some [.full "host" (some "relation") "owner" .none,
    .typed "note" (some "text") "note_body"]
  sortable := none
  selectable := none

namespace Table

/-- The own declaration of a note comes last for filters, and the title cannot be selected. -/
theorem last_of_events :
    ∃ t t' c', Table.of Entity.event .filterable = .ok t ∧
      Table.of Entity.event .selectable = .ok t' ∧
      Catalog.register ∅ Entity.event.define = .ok c' ∧
      t.find? "note" = some ⟨"note", some "text", "note_body", none⟩ ∧
      t.find? "host" = some ⟨"host", some "relation", "owner", some "User"⟩ ∧
      t.find? "id" = some ⟨"id", none, "number", none⟩ ∧ t'.find? "title" = none ∧
      ∀ name fault, Table.of Entity.event .sortable ≠ .error (.invalidDeclaration name fault) := by
  have hfilters := (last_of_declarations Entity.event.define .filterable).1 _ rfl
  have hselects := (last_of_declarations Entity.event.define .selectable).1 _ rfl
  have hsorts := (last_of_declarations Entity.event.define .sortable).2 ∅ _ rfl
  let queried : List Declaration := [.bare "id", .typed "note" (some "string") "memo",
    .full "title" (some "string") "title" ⟨true, true, false⟩]
  let again : Declaration := .typed "id" none "number"
  let host : Declaration := .full "host" (some "relation") "owner" .none
  let note : Declaration := .typed "note" (some "text") "note_body"
  refine ⟨_, _, _, rfl, rfl, rfl, (hfilters.1 _ _).2 ⟨queried ++ [again, host], note, [], ?_⟩,
    (hfilters.1 _ _).2 ⟨queried ++ [again], host, [note], ?_⟩,
    (hfilters.1 _ _).2 ⟨queried, again, [host, note], ?_⟩, (hselects.2.1 _).2 ?_, hsorts.2⟩
  · exact ⟨rfl, rfl, by simp, rfl⟩
  · exact ⟨rfl, rfl, by decide, rfl⟩
  · exact ⟨rfl, rfl, by decide, rfl⟩
  · decide

end Table
end RequestPlan
