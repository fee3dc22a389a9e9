import Mathlib.Data.List.Sort
import RequestPlan.Dict

/-!
# Entries in key order

* `Ordered.eq_of_mem_iff`: entries in order are known from their members.
* `perm_put`: a value at a new key is one entry more.
* `foldl_put_of_perm`: **entries that are written one after the other come in order**, whatever the
  order they are written in.
* `Dict.ext_find?`: a map is known from what is found in it; `Dict.find?_map`, `Dict.map_put`: what
  is found and written when values are changed.
-/

namespace RequestPlan

namespace Entries

variable {α : Type} {key : String} {x : α} {es fs : List (String × α)}

/-- Entries in order with the same members are the same. -/
theorem Ordered.eq_of_mem_iff (hes : Ordered es) (hfs : Ordered fs) (h : ∀ e, e ∈ es ↔ e ∈ fs) :
    es = fs := by
  have hasymm : Std.Asymm fun a b : String × α => a.1 < b.1 :=
    ⟨fun _ _ hab => String.lt_asymm hab⟩
  exact List.Pairwise.eq_of_mem_iff hes hfs h

theorem Ordered.nodup_keys (h : Ordered es) : (es.map Prod.fst).Nodup := by
  refine List.pairwise_map.2 (h.imp fun hlt heq => ?_)
  rw [heq] at hlt
  exact String.lt_irrefl _ hlt

/-- A value at a new key is one entry more. -/
theorem perm_put (h : find? key es = none) : (put key x es).Perm ((key, x) :: es) := by
  induction es with
  | nil => exact .refl _
  | cons e es ih =>
    obtain ⟨key', x'⟩ := e
    rw [find?] at h
    split at h
    · cases h
    · rename_i hne
      rw [put, if_neg hne]
      split
      · exact .refl _
      · exact ((ih h).cons _).trans (.swap _ _ _)

/-- Values at new keys, each another one, are so many entries more. -/
theorem perm_foldl_put (hnodup : (fs.map Prod.fst).Nodup) (hnew : ∀ f ∈ fs, find? f.1 es = none) :
    (fs.foldl (fun es f => put f.1 f.2 es) es).Perm (fs ++ es) := by
  induction fs generalizing es with
  | nil => exact .refl _
  | cons f fs ih =>
    obtain ⟨hf, hfs⟩ := List.forall_mem_cons.1 hnew
    obtain ⟨hother, hnodup⟩ := List.nodup_cons.1 hnodup
    have hnew' : ∀ f' ∈ fs, find? f'.1 (put f.1 f.2 es) = none := by
      intro f' hf'
      have hne : f'.1 ≠ f.1 := fun heq => hother (heq ▸ List.mem_map_of_mem hf')
      rw [find?_put_ne hne]
      exact hfs f' hf'
    have hrest := ih hnodup hnew'
    have hfirst : (fs ++ put f.1 f.2 es).Perm (fs ++ f :: es) := (perm_put hf).append_left fs
    exact hrest.trans (hfirst.trans List.perm_middle)

theorem ordered_foldl_put (h : Ordered es) :
    Ordered (fs.foldl (fun es f => put f.1 f.2 es) es) := by
  induction fs generalizing es with
  | nil => exact h
  | cons f fs ih => exact ih (h.put f.1 f.2)

/-- **Entries that are written one after the other come in order**, whatever the order they are
written in. -/
theorem foldl_put_of_perm (hes : Ordered es) (h : fs.Perm es) :
    fs.foldl (fun es f => put f.1 f.2 es) [] = es := by
  have hnodup : (fs.map Prod.fst).Nodup := (h.map Prod.fst).nodup_iff.2 hes.nodup_keys
  have hperm : (fs.foldl (fun es f => put f.1 f.2 es) []).Perm (fs ++ []) :=
    perm_foldl_put hnodup fun _ _ => rfl
  rw [List.append_nil] at hperm
  exact (ordered_foldl_put ordered_nil).eq_of_mem_iff hes fun e => (hperm.trans h).mem_iff

end Entries

namespace Dict

variable {α β : Type} {d e : Dict α} {key : String}

/-- **A map is known from what is found in it.** -/
theorem ext_find? (h : ∀ key, d.find? key = e.find? key) : d = e := by
  refine Dict.ext (d.ordered.eq_of_mem_iff e.ordered fun p => ?_)
  obtain ⟨key, x⟩ := p
  rw [← find?_eq_some_iff, ← find?_eq_some_iff, h]

@[simp] theorem find?_map (f : α → β) (d : Dict α) (key : String) :
    (d.map f).find? key = (d.find? key).map f := by
  have hentries : ∀ es : List (String × α),
      Entries.find? key (es.map fun p => (p.1, f p.2)) = (Entries.find? key es).map f := by
    intro es
    induction es with
    | nil => rfl
    | cons p es ih =>
      rw [List.map_cons, Entries.find?, Entries.find?, ih]
      split <;> rfl
  exact hentries d.entries

theorem map_put (f : α → β) (d : Dict α) (key : String) (x : α) :
    (d.put key x).map f = (d.map f).put key (f x) := by
  refine ext_find? fun key' => ?_
  rw [find?_map, find?_put, find?_put, find?_map]
  split <;> rfl

end Dict
end RequestPlan
