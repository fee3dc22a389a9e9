import RequestPlan.Selection.Expand

/-!
# Requested paths

* `Selection.Asks`: a requested path asks for a path of aliases.
* `Selection.restsOf`: what goes on behind an alias in requested paths. By `find?_requests` it
  is what the requests of a level have for the alias.
* `exists_asks_singleton`, `exists_asks_cons`: **what paths ask for**, at a level and below it.
-/

namespace RequestPlan

namespace Selection

/-- A requested path asks for a path of aliases: `*` for every column of a level, and an alias
for itself, or for what the rest of the requested path asks for below it. -/
def Asks : String → List String → Prop
  | _, [] => False
  | requested, [a] =>
    ∃ first rest, request? requested = some (first, rest) ∧ (first = "*" ∨ first = a)
  | requested, a :: b :: path =>
    ∃ rest, request? requested = some (a, rest) ∧ Asks (rest.getD "*") (b :: path)

/-- What goes on behind an alias in the paths that start with it. -/
def restsOf (a : String) (paths : List String) : List (Option String) :=
  ((paths.filterMap request?).filter fun q => q.1 = a).map Prod.snd

variable {a : String} {paths : List String}

theorem mem_restsOf {rest : Option String} :
    rest ∈ restsOf a paths ↔ ∃ p ∈ paths, request? p = some (a, rest) := by
  simp only [restsOf, List.mem_map, List.mem_filter, List.mem_filterMap, decide_eq_true_eq]
  constructor
  · rintro ⟨⟨first, rest⟩, ⟨⟨p, hp, hrequest⟩, rfl⟩, rfl⟩
    exact ⟨p, hp, hrequest⟩
  · rintro ⟨p, hp, hrequest⟩
    exact ⟨(a, rest), ⟨⟨p, hp, hrequest⟩, rfl⟩, rfl⟩

theorem restsOf_ne_nil :
    restsOf a paths ≠ [] ↔ ∃ p ∈ paths, ∃ rest, request? p = some (a, rest) := by
  constructor
  · intro h
    obtain ⟨rest, hrest⟩ := List.exists_mem_of_ne_nil _ h
    obtain ⟨p, hp, hrequest⟩ := mem_restsOf.1 hrest
    exact ⟨p, hp, rest, hrequest⟩
  · rintro ⟨p, hp, rest, hrequest⟩
    exact List.ne_nil_of_mem (mem_restsOf.2 ⟨p, hp, hrequest⟩)

/-- A column is asked for with all columns, or by its own alias. -/
theorem exists_asks_singleton :
    (∃ p ∈ paths, Asks p [a]) ↔ restsOf "*" paths ≠ [] ∨ restsOf a paths ≠ [] := by
  rw [restsOf_ne_nil, restsOf_ne_nil]
  constructor
  · rintro ⟨p, hp, first, rest, hrequest, rfl | rfl⟩
    · exact .inl ⟨p, hp, rest, hrequest⟩
    · exact .inr ⟨p, hp, rest, hrequest⟩
  · rintro (⟨p, hp, rest, hrequest⟩ | ⟨p, hp, rest, hrequest⟩)
    · exact ⟨p, hp, "*", rest, hrequest, .inl rfl⟩
    · exact ⟨p, hp, a, rest, hrequest, .inr rfl⟩

/-- A path is asked for below an alias by what goes on behind that alias. -/
theorem exists_asks_cons {b : String} {path : List String} :
    (∃ p ∈ paths, Asks p (a :: b :: path)) ↔
      ∃ p ∈ (restsOf a paths).map fun rest => rest.getD "*", Asks p (b :: path) := by
  constructor
  · rintro ⟨p, hp, rest, hrequest, hasks⟩
    exact ⟨rest.getD "*", List.mem_map.2 ⟨rest, mem_restsOf.2 ⟨p, hp, hrequest⟩, rfl⟩, hasks⟩
  · rintro ⟨p, hmem, hasks⟩
    obtain ⟨rest, hrest, rfl⟩ := List.mem_map.1 hmem
    obtain ⟨p, hp, hrequest⟩ := mem_restsOf.1 hrest
    exact ⟨p, hp, rest, hrequest, hasks⟩

theorem find?_foldl_requests (qs : List (String × Option String))
    (d : Dict (List (Option String))) :
    (qs.foldl (fun d q => d.put q.1 ((d.find? q.1).getD [] ++ [q.2])) d).find? a =
      let rests := (qs.filter fun q => q.1 = a).map Prod.snd
      if rests = [] then d.find? a else some ((d.find? a).getD [] ++ rests) := by
  induction qs generalizing d with
  | nil => rfl
  | cons q qs ih =>
    rw [List.foldl_cons, ih, Dict.find?_put]
    by_cases hq : q.1 = a
    · subst hq
      rw [if_pos rfl, List.filter_cons_of_pos (by simp)]
      by_cases hrests : (qs.filter fun q' => q'.1 = q.1).map Prod.snd = []
      · simp only [hrests, List.map_cons, if_true, if_neg (List.cons_ne_nil _ _)]
      · simp only [List.map_cons, if_neg hrests, if_neg (List.cons_ne_nil _ _), Option.getD_some,
          List.append_assoc, List.singleton_append]
    · rw [if_neg (Ne.symm hq), List.filter_cons_of_neg (by simpa using hq)]

/-- The requests have what goes on behind each alias that is asked for. -/
theorem find?_requests :
    (requests paths).find? a = if restsOf a paths = [] then none else some (restsOf a paths) :=
  find?_foldl_requests (paths.filterMap request?) ∅

end Selection

end RequestPlan
