import RequestPlan.Proofs.Projection

/-!
# Addresses of levels

* `Projection.Keyed`: relations come in the order of their keys, which are their links' names.
* `Projection.addresses`: the names that lead to the levels of a projection, in pre-order.
  These are all names with a level behind them (`mem_addresses`), and they increase:
  a level comes before those below it, and relations come in the order of their names
  (`pairwise_addresses`).
-/

namespace RequestPlan

namespace Projection

/-- Relations come in the order of their keys, which are the names of their links, at every
level. -/
inductive Keyed : Projection → Prop
  | level {columns : List Column} {relations : List (String × Link × Projection)}
      (ordered : Entries.Ordered relations) (names : ∀ e ∈ relations, e.2.1.name = e.1)
      (below : ∀ e ∈ relations, Keyed e.2.2) : Keyed ⟨columns, relations⟩

theorem Tidy.keyed {p : Projection} (h : p.Tidy) : p.Keyed := by
  induction p using Projection.induct with
  | level columns relations ih =>
    exact .level h.ordered (fun _ => h.name_eq) fun e he => ih e he (h.of_mem he)

mutual

/-- The names that lead to the levels of a projection, every level before those below it. -/
def addresses : Projection → List (List String)
  | ⟨_, relations⟩ => [] :: addressesBelow relations

/-- The names that lead to the levels of relations. -/
def addressesBelow : List (String × Link × Projection) → List (List String)
  | [] => []
  | (name, _, child) :: rest => (addresses child).map (name :: ·) ++ addressesBelow rest

end

variable {p q : Projection} {relations : List (String × Link × Projection)} {name : String}
  {names : List String}

theorem addresses_eq (p : Projection) : p.addresses = [] :: addressesBelow p.relations := by
  obtain ⟨columns, relations⟩ := p
  rfl

/-- The addresses of relations behind some names: the first relation, what is below it, and the
other relations. -/
theorem map_addressesBelow_cons (names : List String) (name : String) (l : Link)
    (child : Projection) (rest : List (String × Link × Projection)) :
    (addressesBelow ((name, l, child) :: rest)).map (names ++ ·) =
      (names ++ [name]) :: ((addressesBelow child.relations).map (names ++ [name] ++ ·) ++
        (addressesBelow rest).map (names ++ ·)) := by
  rw [addressesBelow, addresses_eq]
  simp [Function.comp_def]

theorem mem_addressesBelow : names ∈ addressesBelow relations ↔
    ∃ e ∈ relations, ∃ below ∈ e.2.2.addresses, names = e.1 :: below := by
  induction relations with
  | nil => simp [addressesBelow]
  | cons e rest ih =>
    obtain ⟨name, link, child⟩ := e
    rw [addressesBelow, List.mem_append, ih]
    simp only [List.mem_map, List.mem_cons, exists_eq_or_imp, eq_comm]

/-- **The addresses are all names with a level behind them.** -/
theorem mem_addresses (h : p.Keyed) : names ∈ p.addresses ↔ ∃ q, p.node? names = some q := by
  induction p using Projection.induct generalizing names with
  | level columns relations ih =>
    obtain ⟨hordered, -, hbelow⟩ := h
    rw [addresses, List.mem_cons, mem_addressesBelow]
    cases names with
    | nil => simp [node?]
    | cons name names =>
      rw [or_iff_right (List.cons_ne_nil name names)]
      constructor
      · rintro ⟨e, he, below, hmem, heq⟩
        obtain ⟨rfl, rfl⟩ := List.cons.inj heq
        obtain ⟨q, hq⟩ := (ih e he (hbelow e he)).1 hmem
        refine ⟨q, ?_⟩
        rw [node?, Entries.find?_of_mem hordered he]
        exact hq
      · rintro ⟨q, hq⟩
        obtain ⟨e, hfind, hq⟩ := Option.bind_eq_some_iff.1 hq
        have he : (name, e) ∈ relations := Entries.mem_of_find? hfind
        exact ⟨_, he, names, (ih _ he (hbelow _ he)).2 ⟨q, hq⟩, rfl⟩

/-- **The addresses increase**, name by name, and an address comes before those that extend it. -/
theorem pairwise_addresses (h : p.Keyed) : p.addresses.Pairwise (List.Lex fun a b => a < b) := by
  induction p using Projection.induct with
  | level columns relations ih =>
    obtain ⟨hordered, -, hbelow⟩ := h
    have hfirst : ∀ names ∈ addressesBelow relations, List.Lex (fun a b => a < b) [] names := by
      intro names hmem
      obtain ⟨e, -, below, -, rfl⟩ := mem_addressesBelow.1 hmem
      exact .nil
    refine List.pairwise_cons.2 ⟨hfirst, ?_⟩
    clear hfirst
    induction relations with
    | nil => exact .nil
    | cons e rest ihrest =>
      obtain ⟨hlt, hrest⟩ := List.pairwise_cons.1 hordered
      refine List.pairwise_append.2 ⟨?_, ?_, ?_⟩
      · refine List.pairwise_map.2 ((ih e List.mem_cons_self (hbelow e List.mem_cons_self)).imp ?_)
        exact fun hlex => .cons hlex
      · exact ihrest (fun e he => ih e (List.mem_cons_of_mem _ he)) hrest
          fun e he => hbelow e (List.mem_cons_of_mem _ he)
      -- whatever is below one relation comes before what is below a later one
      · intro names hmem names' hmem'
        obtain ⟨below, -, rfl⟩ := List.mem_map.1 hmem
        obtain ⟨e', he', below', -, rfl⟩ := mem_addressesBelow.1 hmem'
        exact .rel (hlt e' he')

end Projection
end RequestPlan
