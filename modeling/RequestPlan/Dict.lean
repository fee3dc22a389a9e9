/-!
# Maps in key order

* `Entries.put`, `Entries.find?`, `Entries.drop`: a list of pairs with texts as keys, read
  and written as a map; `find?_put` says what is found after a write, and `Ordered.put`,
  `Ordered.drop` that key order is kept.
* `Dict`: such a list together with its order; `Dict.keys_ordered` says that the keys
  come strictly increasing, so that each has one entry.
-/

namespace RequestPlan

universe u v
variable {α : Type u} {β : Type v}

namespace Entries

/-- The value at a key. -/
def find? (k : String) : List (String × α) → Option α
  | [] => none
  | (k', x) :: es => if k = k' then some x else find? k es

/-- The entries with a value written at a key, in place of the one there was. -/
def put (k : String) (x : α) : List (String × α) → List (String × α)
  | [] => [(k, x)]
  | (k', x') :: es =>
    if k < k' then (k, x) :: (k', x') :: es
    else if k = k' then (k, x) :: es
    else (k', x') :: put k x es

/-- The entries without the one at a key. -/
def drop (k : String) : List (String × α) → List (String × α)
  | [] => []
  | (k', x') :: es => if k = k' then drop k es else (k', x') :: drop k es

/-- The keys come strictly increasing. -/
def Ordered (es : List (String × α)) : Prop := es.Pairwise fun a b => a.1 < b.1

@[simp] theorem ordered_nil : Ordered ([] : List (String × α)) := List.Pairwise.nil

theorem mem_put {k : String} {x : α} {e : String × α} {es : List (String × α)}
    (h : e ∈ put k x es) : e = (k, x) ∨ e ∈ es := by
  induction es with
  | nil => simpa [put] using h
  | cons a es ih =>
    obtain ⟨k', x'⟩ := a
    simp only [put] at h
    split at h
    · simpa using h
    · split at h
      · rcases List.mem_cons.1 h with h | h
        · exact .inl h
        · exact .inr (List.mem_cons_of_mem _ h)
      · rcases List.mem_cons.1 h with h | h
        · exact .inr (h ▸ List.mem_cons_self)
        · exact (ih h).imp id (List.mem_cons_of_mem _)

theorem lt_of_not_lt_of_ne {a b : String} (h : ¬a < b) (hne : a ≠ b) : b < a :=
  Classical.byContradiction fun hba =>
    hne (String.le_antisymm (String.not_lt.1 hba) (String.not_lt.1 h))

theorem Ordered.put {es : List (String × α)} (h : Ordered es) (k : String) (x : α) :
    Ordered (Entries.put k x es) := by
  induction es with
  | nil => simp [Entries.put, Ordered]
  | cons a es ih =>
    obtain ⟨k', x'⟩ := a
    obtain ⟨hlt, ht⟩ := List.pairwise_cons.1 h
    simp only [Entries.put]
    split
    · rename_i hk
      refine List.pairwise_cons.2 ⟨fun b hb => ?_, h⟩
      rcases List.mem_cons.1 hb with rfl | hb
      · exact hk
      · exact String.lt_trans hk (hlt b hb)
    · rename_i hk
      split
      · rename_i he
        subst he
        exact List.pairwise_cons.2 ⟨hlt, ht⟩
      · rename_i hne
        refine List.pairwise_cons.2 ⟨fun b hb => ?_, ih ht⟩
        rcases mem_put hb with rfl | hb
        · exact lt_of_not_lt_of_ne hk hne
        · exact hlt b hb

theorem drop_sublist (k : String) (es : List (String × α)) : (drop k es).Sublist es := by
  induction es with
  | nil => exact List.Sublist.refl _
  | cons a es ih =>
    simp only [drop]
    split
    · exact ih.cons _
    · exact ih.cons_cons _

theorem Ordered.drop {es : List (String × α)} (h : Ordered es) (k : String) :
    Ordered (Entries.drop k es) := h.sublist (drop_sublist k es)

@[simp] theorem find?_put_self (k : String) (x : α) (es : List (String × α)) :
    find? k (put k x es) = some x := by
  induction es with
  | nil => simp [put, find?]
  | cons a es ih =>
    simp only [put]
    split
    · simp [find?]
    · split
      · simp [find?]
      · rename_i hne
        simp [find?, hne, ih]

theorem find?_put_ne {k k' : String} (h : k' ≠ k) (x : α) (es : List (String × α)) :
    find? k' (put k x es) = find? k' es := by
  induction es with
  | nil => simp [put, find?, h]
  | cons a es ih =>
    simp only [put]
    split
    · simp [find?, h]
    · split
      · rename_i he
        subst he
        simp [find?, h]
      · simp [find?, ih]

/-- **A write is seen at its own key only.** -/
theorem find?_put (k k' : String) (x : α) (es : List (String × α)) :
    find? k' (put k x es) = if k' = k then some x else find? k' es := by
  split
  · rename_i h
    subst h
    exact find?_put_self _ _ _
  · rename_i h
    exact find?_put_ne h _ _

theorem find?_drop (k k' : String) (es : List (String × α)) :
    find? k' (drop k es) = if k' = k then none else find? k' es := by
  induction es with
  | nil => simp [drop, find?]
  | cons a es ih =>
    simp only [drop]
    split
    · rename_i he
      subst he
      rw [ih]
      split
      · rfl
      · rename_i h
        simp [find?, h]
    · rename_i hne
      simp only [find?, ih]
      split
      · rename_i h
        subst h
        simp [Ne.symm hne]
      · rfl

theorem mem_of_find? {k : String} {x : α} {es : List (String × α)} (h : find? k es = some x) :
    (k, x) ∈ es := by
  induction es with
  | nil => simp [find?] at h
  | cons a es ih =>
    obtain ⟨k', x'⟩ := a
    simp only [find?] at h
    split at h
    · rename_i he
      subst he
      cases h
      exact List.mem_cons_self
    · exact List.mem_cons_of_mem _ (ih h)

theorem find?_of_mem {k : String} {x : α} {es : List (String × α)} (ho : Ordered es)
    (h : (k, x) ∈ es) : find? k es = some x := by
  induction es with
  | nil => simp at h
  | cons a es ih =>
    obtain ⟨k', x'⟩ := a
    obtain ⟨hlt, ht⟩ := List.pairwise_cons.1 ho
    simp only [find?]
    rcases List.mem_cons.1 h with h | h
    · cases h
      simp
    · have : k' < k := hlt _ h
      rw [if_neg, ih ht h]
      intro he
      subst he
      exact String.lt_irrefl _ this

end Entries

/-- A map from texts, listed in key order. -/
structure Dict (α : Type u) where
  entries : List (String × α)
  ordered : Entries.Ordered entries

namespace Dict

/-- The map without entries. -/
def empty : Dict α := ⟨[], Entries.ordered_nil⟩

instance : EmptyCollection (Dict α) := ⟨empty⟩
instance : Inhabited (Dict α) := ⟨∅⟩

/-- The value at a key. -/
def find? (d : Dict α) (k : String) : Option α := Entries.find? k d.entries

/-- Whether there is a value at a key. -/
def contains (d : Dict α) (k : String) : Bool := (d.find? k).isSome

/-- A value written at a key, in place of the one there was. -/
def put (d : Dict α) (k : String) (x : α) : Dict α :=
  ⟨Entries.put k x d.entries, d.ordered.put k x⟩

/-- The map without a key. -/
def drop (d : Dict α) (k : String) : Dict α := ⟨Entries.drop k d.entries, d.ordered.drop k⟩

/-- The keys, increasing. -/
def keys (d : Dict α) : List String := d.entries.map Prod.fst

/-- The values, in the order of their keys. -/
def values (d : Dict α) : List α := d.entries.map Prod.snd

/-- The number of keys. -/
def size (d : Dict α) : Nat := d.entries.length

/-- Whether there is no key. -/
def isEmpty (d : Dict α) : Bool := d.entries.isEmpty

/-- The pairs written one after the other, so that the last of equal keys stays. -/
def ofList (ps : List (String × α)) : Dict α := ps.foldl (fun d p => d.put p.1 p.2) ∅

/-- The map with its values changed. -/
def map (f : α → β) (d : Dict α) : Dict β :=
  ⟨d.entries.map fun p => (p.1, f p.2), by
    have h := d.ordered
    unfold Entries.Ordered at h ⊢
    rwa [List.pairwise_map]⟩

@[ext] theorem ext {a b : Dict α} (h : a.entries = b.entries) : a = b := by
  cases a; cases b; simp_all

@[simp] theorem find?_empty (k : String) : (∅ : Dict α).find? k = none := rfl

theorem find?_put (d : Dict α) (k k' : String) (x : α) :
    (d.put k x).find? k' = if k' = k then some x else d.find? k' :=
  Entries.find?_put k k' x d.entries

/-- **The keys come strictly increasing.** -/
theorem keys_ordered (d : Dict α) : d.keys.Pairwise (· < ·) :=
  List.pairwise_map.2 d.ordered

theorem find?_eq_some_iff {d : Dict α} {k : String} {x : α} :
    d.find? k = some x ↔ (k, x) ∈ d.entries :=
  ⟨Entries.mem_of_find?, Entries.find?_of_mem d.ordered⟩

end Dict
end RequestPlan
