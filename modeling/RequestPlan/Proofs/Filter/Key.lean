import RequestPlan.Filter.Key
import RequestPlan.Proofs.Text

/-!
# Keys and their texts

* `Divided`: a key whose parts could have been read from a text.
* `divided_parse`, `parse_text`: **a key from a text is divided, and a divided key is read back
  from its text**, so that no two of them have the same text.
-/

namespace RequestPlan

namespace FilterKey

/-- A key whose parts have no `$`. -/
def Divided (k : FilterKey) : Prop := ∀ part ∈ k, '$' ∉ part.toList

theorem Divided.tail {a : String} {k : FilterKey} (h : Divided (a :: k)) : Divided k :=
  fun part hpart => h part (List.mem_cons_of_mem a hpart)

theorem divided_parse (s : String) : Divided (parse s) :=
  fun _ hpart => Text.not_mem_of_mem_splitOn hpart

theorem text_cons (a : String) {k : FilterKey} (hk : k ≠ []) :
    text (a :: k) = a ++ "$" ++ text k := by
  obtain ⟨b, k, rfl⟩ := List.exists_cons_of_ne_nil hk
  exact Text.joinWith_cons_cons "$" a b k

/-- **A divided key is read back from its text.** -/
theorem parse_text {k : FilterKey} (hk : k ≠ []) (h : Divided k) : parse (text k) = k :=
  Text.splitOn_joinWith hk h

end FilterKey
end RequestPlan
