import RequestPlan.Error

/-!
# Results that are no errors

What is known of the parts when a result composed of them is no error, or not a given one.
-/

namespace RequestPlan.Outcome

variable {α β : Type}

theorem bind_eq_ok {x : Except Error α} {f : α → Except Error β} {b : β} :
    x.bind f = .ok b ↔ ∃ a, x = .ok a ∧ f a = .ok b := by
  cases x with
  | error err => simp [Except.bind]
  | ok a => simp [Except.bind]

theorem map_eq_ok {x : Except Error α} {f : α → β} {b : β} :
    x.map f = .ok b ↔ ∃ a, x = .ok a ∧ f a = b := by
  cases x with
  | error err => simp [Except.map]
  | ok a => simp [Except.map]

theorem map_eq_error {x : Except Error α} {f : α → β} {err : Error} :
    x.map f = .error err ↔ x = .error err := by
  cases x with
  | error err' => simp [Except.map]
  | ok a => simp [Except.map]

/-- Two results with one image are both errors, or both are none. -/
theorem map_eq_map {γ : Type} {x : Except Error α} {y : Except Error β} {f : α → γ} {g : β → γ}
    (h : x.map f = y.map g) :
    (∃ err, x = .error err ∧ y = .error err) ∨ ∃ a b, x = .ok a ∧ y = .ok b ∧ f a = g b := by
  cases x with
  | error err =>
    cases y with
    | error err' =>
      cases h
      exact .inl ⟨err, rfl, rfl⟩
    | ok b => cases h
  | ok a =>
    cases y with
    | error err' => cases h
    | ok b => exact .inr ⟨a, b, rfl, rfl, Except.ok.inj h⟩

/-- Two results with one image are both errors, both nothing, or both something. -/
theorem map?_eq_map? {γ : Type} {x : Except Error (Option α)} {y : Except Error (Option β)}
    {f : α → γ} {g : β → γ} (h : x.map (Option.map f) = y.map (Option.map g)) :
    (∃ err, x = .error err ∧ y = .error err) ∨ (x = .ok none ∧ y = .ok none) ∨
      ∃ a b, x = .ok (some a) ∧ y = .ok (some b) ∧ f a = g b := by
  rcases map_eq_map h with herr | ⟨a?, b?, hx, hy, hab⟩
  · exact .inl herr
  · cases a? with
    | none =>
      have hb : b? = none := Option.map_eq_none_iff.1 hab.symm
      exact .inr (.inl ⟨hx, hb ▸ hy⟩)
    | some a =>
      obtain ⟨b, rfl, hb⟩ := Option.map_eq_some_iff.1 hab.symm
      exact .inr (.inr ⟨a, b, hx, hy, hb.symm⟩)

theorem exists_of_toOption {x : Except Error α} {f : α → β} {b : β}
    (h : x.toOption.map f = some b) : ∃ a, x = .ok a ∧ f a = b := by
  cases x with
  | error err => cases h
  | ok a => exact ⟨a, rfl, Option.some.inj h⟩

theorem eq_ok_of_isOk {x : Except Error Unit} (h : x.isOk = true) : x = .ok () := by
  cases x with
  | error err => cases h
  | ok _ => rfl

/-- A step more in front of a fold. -/
theorem foldlM_cons_eq_ok {f : β → α → Except Error β} {a : α} {as : List α} {b b' : β} :
    (a :: as).foldlM f b = .ok b' ↔ ∃ c, f b a = .ok c ∧ as.foldlM f c = .ok b' := by
  rw [List.foldlM_cons]
  exact bind_eq_ok

/-- A fold fails at one of its steps, after those before it. -/
theorem foldlM_eq_error_iff {f : β → α → Except Error β} {as : List α} {b : β} {err : Error} :
    as.foldlM f b = .error err ↔
      ∃ before a after c, as = before ++ a :: after ∧ before.foldlM f b = .ok c ∧
        f c a = .error err := by
  constructor
  · induction as generalizing b with
    | nil => nofun
    | cons a as ih =>
      intro h
      rw [List.foldlM_cons] at h
      cases hstep : f b a with
      | error err' =>
        rw [hstep] at h
        cases h
        exact ⟨[], a, as, b, rfl, rfl, hstep⟩
      | ok c =>
        rw [hstep] at h
        obtain ⟨before, a', after, d, rfl, hbefore, hlast⟩ := ih h
        exact ⟨a :: before, a', after, d, rfl, foldlM_cons_eq_ok.2 ⟨c, hstep, hbefore⟩, hlast⟩
  · rintro ⟨before, a, after, c, rfl, hbefore, hlast⟩
    rw [List.foldlM_append, hbefore]
    show (a :: after).foldlM f c = .error err
    rw [List.foldlM_cons, hlast]
    rfl

theorem ok_ne_error {a : α} {err : Error} : (.ok a : Except Error α) ≠ .error err := nofun

/-- An error that is handed on stays apart from another one. -/
theorem error_ne_error {x : Except Error α} {err err' : Error} (hx : x = .error err')
    (h : x ≠ .error err) : (.error err' : Except Error β) ≠ .error err :=
  fun heq => h (hx.trans (congrArg Except.error (Except.error.inj heq)))

theorem map_ne_error {x : Except Error α} {f : α → β} {err : Error} (h : x ≠ .error err) :
    x.map f ≠ .error err := by
  cases x with
  | error err' => exact error_ne_error rfl h
  | ok a => nofun

theorem bind_ne_error {x : Except Error α} {f : α → Except Error β} {err : Error}
    (h : x ≠ .error err) (hf : ∀ a, x = .ok a → f a ≠ .error err) : x.bind f ≠ .error err := by
  cases x with
  | error err' => exact error_ne_error rfl h
  | ok a => exact hf a rfl

theorem foldlM_ne_error {f : β → α → Except Error β} {as : List α} {b : β} {err : Error}
    (h : ∀ b a, f b a ≠ .error err) : as.foldlM f b ≠ .error err := by
  induction as generalizing b with
  | nil => nofun
  | cons a as ih => exact bind_ne_error (h b a) fun _ _ => ih

theorem forM_nil {f : α → Except Error Unit} : ([] : List α).forM f = .ok () := rfl

/-- A check more in front of others. -/
theorem forM_cons {f : α → Except Error Unit} {a : α} {as : List α} :
    (a :: as).forM f = (f a).bind fun _ => as.forM f := rfl

/-- Checks succeed one after the other when each of them does. -/
theorem forM_eq_ok_iff {f : α → Except Error Unit} {as : List α} :
    as.forM f = .ok () ↔ ∀ a ∈ as, f a = .ok () := by
  induction as with
  | nil => exact iff_of_true rfl fun _ h => absurd h List.not_mem_nil
  | cons a as ih =>
    rw [forM_cons, bind_eq_ok, List.forall_mem_cons, ← ih]
    exact ⟨fun ⟨_, ha, has⟩ => ⟨ha, has⟩, fun ⟨ha, has⟩ => ⟨(), ha, has⟩⟩

end RequestPlan.Outcome
