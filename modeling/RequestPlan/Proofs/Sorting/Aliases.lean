import RequestPlan.Proofs.Planner.Uses
import RequestPlan.Proofs.Text.Marks
import RequestPlan.Sorting

/-!
# Sorting by the aliases of an entity

* `Direction.read`: the path and the direction of a sort token. `read_append_asc`,
  `read_append_desc`: behind a text, `_asc` and `_desc` say the direction;
  `read_eq_iff`: alone, a text is its own path exactly when nothing of it is taken for a direction
  or for blanks around the token.
* `Registry.run_sort`: a token without dots orders by the alias that is its path.
* `sort_of_alias`: **what the tokens of an alias order by**.
-/

namespace RequestPlan

/-! ## Blanks -/

namespace Text

variable {cs : List Char} {s : String}

/-- The text without the white space in front. -/
def trimStart (s : String) : String := String.ofList (s.toList.dropWhile isBlank)

theorem trimStart_eq_self_iff :
    trimStart s = s ↔ ∀ c, s.toList.head? = some c → isBlank c = false := by
  rw [trimStart, ← String.toList_inj, String.toList_ofList]
  constructor
  · intro h c hc
    have hfirst := List.head?_dropWhile_not isBlank s.toList
    rwa [h, hc] at hfirst
  · exact dropWhile_eq_self

/-- Behind a text, one that neither starts nor ends with white space is kept. -/
theorem trim_append {t : String} {c : Char} (ht : t.toList = c :: cs) (hc : isBlank c = false)
    (hlast : ∀ c, t.toList.getLast? = some c → isBlank c = false) :
    trim (s ++ t) = trimStart s ++ t := by
  have hfront : (s.toList ++ t.toList).dropWhile isBlank =
      s.toList.dropWhile isBlank ++ t.toList := by
    rw [List.dropWhile_append]
    split
    · rename_i hempty
      rw [List.isEmpty_iff.1 hempty, List.nil_append, ht, List.dropWhile_cons_of_neg (by simp [hc])]
    · rfl
  have hback : ((s.toList.dropWhile isBlank ++ t.toList).reverse).dropWhile isBlank =
      (s.toList.dropWhile isBlank ++ t.toList).reverse := by
    refine dropWhile_eq_self fun d hd => hlast d ?_
    rw [List.head?_reverse, List.getLast?_append_of_ne_nil _ (by simp [ht])] at hd
    exact hd
  rw [trim, trimChars, String.toList_append, hfront, hback, List.reverse_reverse, trimStart,
    String.ofList_append, String.ofList_toList]

/-- White space is taken off at the ends only. -/
theorem trim_infix (s : String) : (trim s).toList <:+: s.toList := by
  have hfront : s.toList.dropWhile isBlank <:+ s.toList := List.dropWhile_suffix isBlank
  have hback : trimChars s.toList <+: s.toList.dropWhile isBlank := by
    have hreverse := List.reverse_prefix.2
      (List.dropWhile_suffix isBlank (l := (s.toList.dropWhile isBlank).reverse))
    rwa [List.reverse_reverse] at hreverse
  rw [trim, String.toList_ofList]
  exact hback.isInfix.trans hfront.isInfix

end Text

/-! ## Tokens -/

namespace Direction

variable {a : String}

/-- The path and the direction of a sort token, which may have blanks around it. -/
def read (token : String) : String × Direction := splitToken (Text.trim token)

theorem splitToken_subset (token : String) : (splitToken token).1.toList ⊆ token.toList := by
  have hsuffix (stop path : String) (h : Text.dropSuffix? stop token = some path) :
      path.toList ⊆ token.toList := by
    rw [← Text.dropSuffix?_eq_some_iff.1 h, String.toList_append]
    exact List.subset_append_left _ _
  rw [splitToken]
  split
  · rename_i path hdesc
    exact hsuffix _ _ hdesc
  · split
    · rename_i path hasc
      exact hsuffix _ _ hasc
    · exact List.Subset.refl _

theorem dropSuffix?_desc_append_asc (s : String) :
    Text.dropSuffix? "_desc" (s ++ "_asc") = none := by
  cases h : Text.dropSuffix? "_desc" (s ++ "_asc") with
  | none => rfl
  | some t =>
    have heq := congrArg (fun s => s.toList.reverse) (Text.dropSuffix?_eq_some_iff.1 h)
    simp at heq

theorem read_append_asc (a : String) : read (a ++ "_asc") = (Text.trimStart a, .ascending) := by
  have htrim : Text.trim (a ++ "_asc") = Text.trimStart a ++ "_asc" :=
    Text.trim_append rfl rfl (by rintro c ⟨⟩; rfl)
  rw [read, htrim, splitToken, dropSuffix?_desc_append_asc, Text.dropSuffix?_append]

theorem read_append_desc (a : String) : read (a ++ "_desc") = (Text.trimStart a, .descending) := by
  have htrim : Text.trim (a ++ "_desc") = Text.trimStart a ++ "_desc" :=
    Text.trim_append rfl rfl (by rintro c ⟨⟩; rfl)
  rw [read, htrim, splitToken, Text.dropSuffix?_append]

/-- **A text is its own path** exactly when nothing of it is taken for a direction or for blanks
around the token. -/
theorem read_eq_iff : read a = (a, .ascending) ↔
    Text.trim a = a ∧ ¬ "_asc".toList <:+ a.toList ∧ ¬ "_desc".toList <:+ a.toList := by
  rw [← Text.dropSuffix?_eq_none_iff, ← Text.dropSuffix?_eq_none_iff, read, splitToken]
  split
  · rename_i p hdesc
    constructor
    · intro h
      cases congrArg Prod.snd h
    · rintro ⟨htrim, -, hnone⟩
      rw [htrim, hnone] at hdesc
      cases hdesc
  · rename_i hdesc
    split
    · rename_i p hasc
      constructor
      · -- the path is shorter than the token
        intro h
        have hpath : p = a := congrArg Prod.fst h
        have hlength := (Text.trim_infix a).length_le
        rw [← Text.dropSuffix?_eq_some_iff.1 hasc, hpath, String.toList_append,
          List.length_append] at hlength
        exact absurd hlength (by simp)
      · rintro ⟨htrim, hnone, -⟩
        rw [htrim, hnone] at hasc
        cases hasc
    · rename_i hasc
      constructor
      · intro h
        have htrim : Text.trim a = a := congrArg Prod.fst h
        rw [htrim] at hasc hdesc
        exact ⟨htrim, hasc, hdesc⟩
      · rintro ⟨htrim, -, -⟩
        rw [htrim]

end Direction

/-! ## Orderings -/

namespace Registry

variable {r : Registry} {d : Definition} {t : Table} {scope : Scope} {js : Joins} {a : String}
  {entry : Entry}

/-- The orderings by an alias that is in a table, and in scope. -/
def ordersBy (d : Definition) (t : Table) (scope : Scope) (read : String × Direction) :
    List Order :=
  if scope.allows read.1 then
    ((t.find? read.1).map fun entry => ⟨d.column entry.key, read.2⟩).toList
  else []

theorem ordersBy_of_find? (ha : t.find? a = some entry) (hscope : scope.allows a = true)
    (direction : Direction) :
    ordersBy d t scope (a, direction) = [⟨d.column entry.key, direction⟩] := by
  rw [ordersBy, if_pos hscope, ha]
  rfl

theorem sortAlias_eq (hhooks : d.hooks.sorts = ∅) (entry : Entry) (direction : Direction) :
    sortAlias d entry direction = pure [⟨d.column entry.key, direction⟩] := by
  have hhook : d.hooks.sorts.find? entry.key = none := by rw [hhooks, Dict.find?_empty]
  unfold sortAlias
  dsimp only
  rw [hhook]

/-- A path without dots is no path to a joined table. -/
theorem sortJoined_eq {path : String} (hdot : '.' ∉ path.toList) (direction : Direction) :
    sortJoined d path direction = pure [] := by
  rw [sortJoined, Text.cutLast?_of_not_mem hdot]

theorem run_sortToken (hhooks : d.hooks.sorts = ∅) {token : String} (hdot : '.' ∉ token.toList)
    (s : Registry × Joins) : (sortToken d t scope token).run.run s =
      (.ok (ordersBy d t scope (Direction.splitToken token)), s) := by
  have hpath : '.' ∉ (Direction.splitToken token).1.toList :=
    fun hmem => hdot (Direction.splitToken_subset token hmem)
  unfold sortToken ordersBy
  generalize Direction.splitToken token = read at hpath
  obtain ⟨path, direction⟩ := read
  dsimp only at hpath ⊢
  rw [Text.splitOn_of_not_mem hpath, Scope.allowsPath_singleton]
  split
  · cases t.find? path with
    | some entry =>
      dsimp only
      rw [sortAlias_eq hhooks]
      rfl
    | none =>
      dsimp only
      rw [sortJoined_eq hpath]
      rfl
  · rfl

/-- **A token without dots orders by the alias that is its path**, if there is one in scope. -/
theorem run_sort (hs : r.Sound) (hd : r.catalog.find? d.name = some d)
    (hhooks : d.hooks.sorts = ∅) (ht : Table.of d.toEntity .sortable = .ok t) {token : String}
    (hdot : '.' ∉ token.toList) :
    (sort d [token] scope).run.run (r, js) =
      (.ok (ordersBy d t scope (Direction.read token)),
        (r.behind (table d.name .sortable), js)) := by
  have htable : r.catalog.table d.name .sortable = .ok t :=
    (Catalog.table_of_get (Catalog.get_eq_ok_iff.2 hd)).trans ht
  have hrun : (SortM.ofRegistry (table d.name .sortable)).run.run (r, js) =
      (.ok t, (r.behind (table d.name .sortable), js)) :=
    Prod.ext (answers_table htable r rfl hs).1 rfl
  unfold sort
  rw [Work.run_bind_of_ok hrun, Direction.read]
  by_cases hblank : Text.trim token = ""
  · -- no table has an empty alias
    have hnone : [token].filterMap Text.nonBlank? = [] := by
      rw [List.filterMap_cons_none (by rw [Text.nonBlank?, hblank]; rfl), List.filterMap_nil]
    have hread : Direction.splitToken "" = ("", .ascending) := by decide
    rw [hnone, hblank, hread, ordersBy, Table.find?_empty ht, Option.map_none, Option.toList_none,
      ite_self]
    rfl
  · have hsome : [token].filterMap Text.nonBlank? = [Text.trim token] := by
      rw [List.filterMap_cons_some (by rw [Text.nonBlank?, if_neg (by rwa [String.isEmpty_iff])]),
        List.filterMap_nil]
    have htrim : '.' ∉ (Text.trim token).toList :=
      fun hmem => hdot ((Text.trim_infix token).subset hmem)
    rw [hsome, sortTokens, Work.run_bind_of_ok (run_sortToken hhooks htrim _)]
    exact congrArg (fun os => (Except.ok os, _)) (List.append_nil _)

/-- **What the tokens of an alias order by**, where no hook sorts. With `_asc` or `_desc` behind it,
an alias without blanks in front orders by its own column in this direction. Alone it does so, too,
unless it ends like a direction or has blanks around it. In each case a token orders by the alias
that is read from it, if there is one in scope, and no table is joined. -/
theorem sort_of_alias (uses : List Use)
    (hd : (empty.usedBy uses).catalog.find? d.name = some d) (hhooks : d.hooks.sorts = ∅)
    (ht : Table.of d.toEntity .sortable = .ok t) (ha : t.find? a = some entry)
    (hscope : scope.allows a = true) (js : Joins) :
    let r := empty.usedBy uses
    let answers := fun token orders => (sort d [token] scope).run.run (r, js) =
      (.ok orders, (r.behind (table d.name .sortable), js))
    ((∀ c, a.toList.head? = some c → Text.isBlank c = false) →
      answers (a ++ "_asc") [⟨d.column entry.key, .ascending⟩] ∧
      answers (a ++ "_desc") [⟨d.column entry.key, .descending⟩]) ∧
    (Text.trim a = a → ¬ "_asc".toList <:+ a.toList → ¬ "_desc".toList <:+ a.toList →
      answers a [⟨d.column entry.key, .ascending⟩]) ∧
    (∀ token ∈ [a, a ++ "_asc", a ++ "_desc"],
      answers token (ordersBy d t scope (Direction.read token))) ∧
    Direction.read (a ++ "_asc") = (Text.trimStart a, .ascending) ∧
    Direction.read (a ++ "_desc") = (Text.trimStart a, .descending) ∧
    (Direction.read a = (a, .ascending) ↔
      Text.trim a = a ∧ ¬ "_asc".toList <:+ a.toList ∧ ¬ "_desc".toList <:+ a.toList) := by
  intro r answers
  have hs : r.Sound := sound_usedBy sound_empty uses
  have hreserved := (Table.aliasName_of_find? ht ha).2.2
  have hdot : '.' ∉ a.toList := fun hmem => Bool.noConfusion (hreserved '.' hmem)
  have hanswers : ∀ token, '.' ∉ token.toList →
      answers token (ordersBy d t scope (Direction.read token)) :=
    fun token htoken => run_sort hs hd hhooks ht htoken
  have hasc := hanswers (a ++ "_asc") (by simp [hdot])
  have hdesc := hanswers (a ++ "_desc") (by simp [hdot])
  have hown (direction : Direction) :
      ordersBy d t scope (a, direction) = [⟨d.column entry.key, direction⟩] :=
    ordersBy_of_find? ha hscope direction
  refine ⟨fun hblank => ?_, fun htrim hnasc hndesc => ?_, ?_, Direction.read_append_asc a,
    Direction.read_append_desc a, Direction.read_eq_iff⟩
  · have hstart : Text.trimStart a = a := Text.trimStart_eq_self_iff.2 hblank
    rw [Direction.read_append_asc, hstart, hown] at hasc
    rw [Direction.read_append_desc, hstart, hown] at hdesc
    exact ⟨hasc, hdesc⟩
  · have hread : Direction.read a = (a, .ascending) :=
      Direction.read_eq_iff.2 ⟨htrim, hnasc, hndesc⟩
    have halone := hanswers a hdot
    rwa [hread, hown] at halone
  · rw [List.forall_mem_cons, List.forall_mem_cons, List.forall_mem_singleton]
    exact ⟨hanswers a hdot, hasc, hdesc⟩

end Registry

/-! ## Invoices -/

/-- Invoices with a total and a description of the tax, whose alias ends like a direction. -/
def Entity.invoice : Entity where
  name := "Invoice"
  table := "invoices"
  key := "id"
  relations := ∅
  queryable := none
  filterable := none
  sortable := some [.typed "total" none "amount", .bare "tax_desc"]
  selectable := some [.bare "total"]

namespace Registry

/-- A registry that knows invoices. -/
def knowingInvoices : List Use := [.operation (.register Entity.invoice.define)]

theorem find?_knowingInvoices : (empty.usedBy knowingInvoices).catalog.find? "Invoice" =
    some Entity.invoice.define := by rfl

theorem exists_table_invoice : ∃ t, Table.of Entity.invoice .sortable = .ok t ∧
    t.find? "total" = some ⟨"total", none, "amount", none⟩ ∧
    t.find? "tax_desc" = some ⟨"tax_desc", none, "tax_desc", none⟩ :=
  ⟨_, rfl, by decide +kernel, by decide +kernel⟩

/-- Invoices are ordered by their totals in both directions. -/
theorem sort_of_invoices :
    let r := empty.usedBy knowingInvoices
    let answers := fun token orders =>
      (sort Entity.invoice.define [token] .all).run.run (r, .none) =
        (.ok orders, (r.behind (table "Invoice" .sortable), .none))
    answers "total" [⟨"invoices.amount", .ascending⟩] ∧
      answers "total_asc" [⟨"invoices.amount", .ascending⟩] ∧
      answers "total_desc" [⟨"invoices.amount", .descending⟩] := by
  intro r answers
  obtain ⟨t, ht, htotal, -⟩ := exists_table_invoice
  have hscope : Scope.all.allows "total" = true := rfl
  obtain ⟨hsuffixed, halone, -⟩ := sort_of_alias (d := Entity.invoice.define) (a := "total")
    knowingInvoices find?_knowingInvoices rfl ht htotal hscope .none
  obtain ⟨hasc, hdesc⟩ := hsuffixed (by rintro c ⟨⟩; rfl)
  exact ⟨halone (by decide) (by decide) (by decide), hasc, hdesc⟩

/-- The alias for the tax is in scope, but alone it orders by nothing. -/
theorem sort_dropped_of_invoices :
    let r := empty.usedBy knowingInvoices
    r.catalog.find? "Invoice" = some Entity.invoice.define ∧ Entity.invoice.define.hooks.sorts = ∅ ∧
      (∃ t entry, Table.of Entity.invoice .sortable = .ok t ∧
        t.find? "tax_desc" = some entry ∧ entry.key = "tax_desc") ∧
      Scope.all.allows "tax_desc" = true ∧
      ((sort Entity.invoice.define ["tax_desc"] .all).run.run (r, .none)).1.toOption = some [] := by
  obtain ⟨t, ht, -, htax⟩ := exists_table_invoice
  exact ⟨find?_knowingInvoices, rfl, ⟨t, _, ht, htax, rfl⟩, rfl, by decide +kernel⟩

end Registry
end RequestPlan
