import RequestPlan.Work

/-!
# Properties of work

* `run_bind_of_ok`, `run_bind_of_error`: work behind other work runs when that succeeds;
  `run_tryCatch_of_ok`, `run_tryCatch_of_error`: work that takes over runs when the other fails.
* `Work.Keeps`: a property of the state still holds behind some work, even when it fails.
* `Work.Triple`: what holds behind some work, of its result and the state when it succeeds, and of
  the state when it fails; `Triple.bind` chains them, and `Triple.on` lifts them from a part of the
  state.
* `Work.KeepsUnless`: work from states of a kind need not keep a property; `KeepsUnless.bind` puts
  these kinds together, with what comes to pass on the way (`Work.Then`).
* `Work.Spares`: work does not fail with a given error.
* `Work.Local`: what work does depends on a view of the state only, and changes no more than it.
* `Work.Mirrors`: work does on images of states what other work does on the states.
-/

namespace RequestPlan.Work

variable {σ τ α β : Type} {m : Work σ α} {f : α → Work σ β}

theorem run_bind_of_ok {s t : σ} {a : α} (h : m.run.run s = (.ok a, t)) :
    (m >>= f).run.run s = (f a).run.run t := by
  rw [ExceptT.run_bind, StateT.run_bind, h]
  rfl

theorem run_bind_of_error {s t : σ} {err : Error} (h : m.run.run s = (.error err, t)) :
    (m >>= f).run.run s = (.error err, t) := by
  rw [ExceptT.run_bind, StateT.run_bind, h]
  rfl

/-- What fails in front fails as a whole. -/
theorem result_bind_of_error {s : σ} {err : Error} (h : (m.run.run s).1 = .error err) :
    ((m >>= f).run.run s).1 = .error err :=
  congrArg Prod.fst (run_bind_of_error (Prod.ext h rfl))

theorem run_tryCatch_of_ok {g : Error → Work σ α} {s t : σ} {a : α}
    (h : m.run.run s = (.ok a, t)) : (tryCatch m g).run.run s = (.ok a, t) := by
  rw [ExceptT.run_tryCatch, StateT.run_bind, h]
  rfl

theorem run_tryCatch_of_error {g : Error → Work σ α} {s t : σ} {err : Error}
    (h : m.run.run s = (.error err, t)) : (tryCatch m g).run.run s = (g err).run.run t := by
  rw [ExceptT.run_tryCatch, StateT.run_bind, h]
  rfl

theorem lift_eq_of (x : Except Error α) : (liftM x : Work σ α) = of x := by
  cases x <;> rfl

/-! ## Properties that work keeps -/

/-- A property of the state holds behind some work if it held before, whether the work succeeds
or not. -/
def Keeps (I : σ → Prop) (m : Work σ α) : Prop := ∀ s, I s → I (m.run.run s).2

section Keeps

variable {I : σ → Prop} {J : τ → Prop}

theorem keeps_pure (a : α) : Keeps I (pure a : Work σ α) := fun _ hs => hs

theorem keeps_of (x : Except Error α) : Keeps I (of x) := by
  intro s hs
  rw [run_of]
  exact hs

theorem keeps_get : Keeps I (get : Work σ σ) := fun _ hs => hs

theorem keeps_modify {g : σ → σ} (h : ∀ s, I s → I (g s)) : Keeps I (modify g : Work σ Unit) :=
  fun s hs => h s hs

/-- Work after other work has the results of the other work at hand. -/
theorem keeps_bind (hm : Keeps I m)
    (hf : ∀ s a, I s → (m.run.run s).1 = .ok a → I ((f a).run.run (m.run.run s).2).2) :
    Keeps I (m >>= f) := by
  intro s hs
  cases hresult : (m.run.run s).1 with
  | error err =>
    rw [run_bind_of_error (Prod.ext hresult rfl)]
    exact hm s hs
  | ok a =>
    rw [run_bind_of_ok (Prod.ext hresult rfl)]
    exact hf s a hs hresult

theorem Keeps.bind (hm : Keeps I m) (hf : ∀ a, Keeps I (f a)) : Keeps I (m >>= f) :=
  keeps_bind hm fun s a hs _ => hf a _ (hm s hs)

theorem keeps_tryCatch {g : Error → Work σ α} (hm : Keeps I m) (hg : ∀ err, Keeps I (g err)) :
    Keeps I (tryCatch m g) := by
  intro s hs
  cases hresult : (m.run.run s).1 with
  | ok a =>
    rw [run_tryCatch_of_ok (Prod.ext hresult rfl)]
    exact hm s hs
  | error err =>
    rw [run_tryCatch_of_error (Prod.ext hresult rfl)]
    exact hg err _ (hm s hs)

/-- Work on a part of the state keeps what the part has to do with. -/
theorem Keeps.on {part : σ → τ} {write : σ → τ → σ} {n : Work τ α} (hn : Keeps J n)
    (hpart : ∀ s, I s → J (part s)) (hwrite : ∀ s t, I s → J t → I (write s t)) :
    Keeps I (on part write n) :=
  fun s hs => hwrite s _ hs (hn _ (hpart s hs))

end Keeps

/-! ## Properties of results -/

/-- Work from states with `P` ends with a result and a state for which `Q` holds, or fails in a
state with `E`. -/
def Triple (P : σ → Prop) (m : Work σ α) (Q : α → σ → Prop) (E : σ → Prop) : Prop :=
  ∀ s, P s → (∀ a, (m.run.run s).1 = .ok a → Q a (m.run.run s).2) ∧
    ∀ err, (m.run.run s).1 = .error err → E (m.run.run s).2

section Triple

variable {P P' E E' : σ → Prop} {Q Q' : α → σ → Prop} {R : β → σ → Prop}

theorem triple_pure {a : α} (h : ∀ s, P s → Q a s) : Triple P (pure a) Q E := by
  intro s hs
  refine ⟨fun b hb => ?_, fun err herr => by cases herr⟩
  cases hb
  exact h s hs

theorem triple_of {x : Except Error α} (hok : ∀ a s, x = .ok a → P s → Q a s)
    (herr : ∀ s, P s → E s) : Triple P (of x) Q E := by
  intro s hs
  rw [run_of]
  exact ⟨fun a ha => hok a s ha hs, fun _ _ => herr s hs⟩

theorem triple_modify {g : σ → σ} {Q : Unit → σ → Prop} (h : ∀ s, P s → Q () (g s)) :
    Triple P (modify g) Q E :=
  fun s hs => ⟨fun _ _ => h s hs, fun _ herr => by cases herr⟩

/-- Work that looks at the state starts in the state that it sees. -/
theorem triple_get_bind {g : σ → Work σ β} (h : ∀ s, P s → Triple (fun t => t = s) (g s) R E) :
    Triple P (get >>= g) R E :=
  fun s hs => h s hs s rfl

/-- A triple may be shown for each state by itself. -/
theorem triple_of_forall (h : ∀ s, P s → Triple (fun t => t = s) m Q E) : Triple P m Q E :=
  fun s hs => h s hs s rfl

/-- What does not depend on the state may be taken out of it. -/
theorem triple_and {φ : Prop} (h : φ → Triple P m Q E) : Triple (fun s => P s ∧ φ) m Q E :=
  fun s hs => h hs.2 s hs.1

theorem Triple.bind (hm : Triple P m Q E) (hf : ∀ a, Triple (Q a) (f a) R E) :
    Triple P (m >>= f) R E := by
  intro s hs
  obtain ⟨hok, herr⟩ := hm s hs
  cases hresult : (m.run.run s).1 with
  | error err =>
    rw [run_bind_of_error (Prod.ext hresult rfl)]
    exact ⟨fun a ha => (by cases ha), fun _ _ => herr err hresult⟩
  | ok a =>
    rw [run_bind_of_ok (Prod.ext hresult rfl)]
    exact hf a _ (hok a hresult)

theorem Triple.start (h : Triple P m Q E) (hP : ∀ s, P' s → P s) : Triple P' m Q E :=
  fun s hs => h s (hP s hs)

theorem Triple.imp (h : Triple P m Q E) (hQ : ∀ a s, Q a s → Q' a s) : Triple P m Q' E :=
  fun s hs => ⟨fun a ha => hQ a _ ((h s hs).1 a ha), (h s hs).2⟩

theorem Triple.fail (h : Triple P m Q E) (hE : ∀ s, E s → E' s) : Triple P m Q E' :=
  fun s hs => ⟨(h s hs).1, fun err herr => hE _ ((h s hs).2 err herr)⟩

/-- Nothing is asked of the result, nor of the state. -/
theorem triple_true : Triple P m (fun _ _ => True) fun _ => True :=
  fun _ _ => ⟨fun _ _ => trivial, fun _ _ => trivial⟩

theorem Keeps.triple (h : Keeps P m) : Triple P m (fun _ => P) P :=
  fun s hs => ⟨fun _ _ => h s hs, fun _ _ => h s hs⟩

theorem Triple.keeps (h : Triple P m (fun _ => P) P) : Keeps P m := by
  intro s hs
  cases hresult : (m.run.run s).1 with
  | error err => exact (h s hs).2 err hresult
  | ok a => exact (h s hs).1 a hresult

/-- What is kept in any case holds besides. -/
theorem Triple.and {I : σ → Prop} (h : Triple P m Q E) (hI : Keeps I m) :
    Triple (fun s => P s ∧ I s) m (fun a s => Q a s ∧ I s) fun s => E s ∧ I s :=
  fun s hs => ⟨fun a ha => ⟨(h s hs.1).1 a ha, hI s hs.2⟩,
    fun err he => ⟨(h s hs.1).2 err he, hI s hs.2⟩⟩

/-- What holds behind work on a part of the state. -/
theorem Triple.on {part : σ → τ} {write : σ → τ → σ} {n : Work τ α} {J F : τ → Prop}
    {K : α → τ → Prop} (hn : Triple J n K F) (hpart : ∀ s, P s → J (part s))
    (hok : ∀ s a t, P s → K a t → Q a (write s t)) (herr : ∀ s t, P s → F t → E (write s t)) :
    Triple P (on part write n) Q E :=
  fun s hs => ⟨fun a ha => hok s a _ hs ((hn _ (hpart s hs)).1 a ha),
    fun err he => herr s _ hs ((hn _ (hpart s hs)).2 err he)⟩

end Triple

/-! ## Properties that work keeps unless something comes to pass -/

/-- Work succeeds, and something holds of its result and the state behind it. -/
def Then (m : Work σ α) (Q : α → σ → Prop) (s : σ) : Prop := ∃ a t, m.run.run s = (.ok a, t) ∧ Q a t

/-- A property of the state still holds behind some work, whether it succeeds or not, when the work
started in a state that is not bad. -/
def KeepsUnless (bad I : σ → Prop) (m : Work σ α) : Prop := ∀ s, I s → ¬bad s → I (m.run.run s).2

section KeepsUnless

variable {bad bad' I : σ → Prop} {worse : α → σ → Prop}

theorem Keeps.unless (h : Keeps I m) (bad : σ → Prop) : KeepsUnless bad I m := fun s hs _ => h s hs

theorem KeepsUnless.imp (h : KeepsUnless bad I m) (hbad : ∀ s, bad s → bad' s) :
    KeepsUnless bad' I m := fun s hs hnot => h s hs fun h => hnot (hbad s h)

theorem KeepsUnless.bind (hm : KeepsUnless bad I m) (hf : ∀ a, KeepsUnless (worse a) I (f a)) :
    KeepsUnless (fun s => bad s ∨ Then m worse s) I (m >>= f) := by
  intro s hs hnot
  obtain ⟨hbad, hworse⟩ := not_or.1 hnot
  cases hresult : (m.run.run s).1 with
  | error err =>
    rw [run_bind_of_error (Prod.ext hresult rfl)]
    exact hm s hs hbad
  | ok a =>
    have hrun : m.run.run s = (.ok a, (m.run.run s).2) := Prod.ext hresult rfl
    rw [run_bind_of_ok hrun]
    exact hf a _ (hm s hs hbad) fun h => hworse ⟨a, _, hrun, h⟩

/-- Work behind other work that is not bad for itself. -/
theorem Keeps.bind_unless (hm : Keeps I m) (hf : ∀ a, KeepsUnless (worse a) I (f a)) :
    KeepsUnless (Then m worse) I (m >>= f) :=
  ((hm.unless fun _ => False).bind hf).imp fun _ h => h.resolve_left id

/-- Other work behind work, which keeps the property in any case. -/
theorem KeepsUnless.bind_keeps (hm : KeepsUnless bad I m) (hf : ∀ a, Keeps I (f a)) :
    KeepsUnless bad I (m >>= f) :=
  (hm.bind fun a => (hf a).unless fun _ => False).imp fun _ h =>
    h.resolve_right fun ⟨_, _, _, h⟩ => h

end KeepsUnless

/-! ## Errors that work does not have -/

/-- Work keeps a property of the state, and from states with it never fails with an error. -/
structure Spares (I : σ → Prop) (err : Error) (m : Work σ α) : Prop where
  keeps : Keeps I m
  result : ∀ s, I s → (m.run.run s).1 ≠ .error err

section Spares

variable {I : σ → Prop} {err : Error}

theorem spares_of {x : Except Error α} (h : x ≠ .error err) : Spares I err (of x) where
  keeps := keeps_of x
  result s _ := by
    rw [run_of]
    exact h

theorem spares_pure (a : α) : Spares I err (pure a : Work σ α) where
  keeps := keeps_pure a
  result _ _ := nofun

theorem spares_get : Spares I err (get : Work σ σ) where
  keeps := keeps_get
  result _ _ := nofun

theorem spares_modify {g : σ → σ} (h : ∀ s, I s → I (g s)) :
    Spares I err (modify g : Work σ Unit) where
  keeps := keeps_modify h
  result _ _ := nofun

/-- Work after other work has the results of the other work at hand. -/
theorem spares_bind (hm : Spares I err m)
    (hf : ∀ s a, I s → (m.run.run s).1 = .ok a → Spares I err (f a)) : Spares I err (m >>= f) where
  keeps := keeps_bind hm.keeps fun s a hs ha => (hf s a hs ha).keeps _ (hm.keeps s hs)
  result s hs := by
    cases hresult : (m.run.run s).1 with
    | error err' =>
      have hne : err' ≠ err := fun heq => hm.result s hs (heq ▸ hresult)
      rw [run_bind_of_error (Prod.ext hresult rfl)]
      exact fun heq => hne (Except.error.inj heq)
    | ok a =>
      rw [run_bind_of_ok (Prod.ext hresult rfl)]
      exact (hf s a hs hresult).result _ (hm.keeps s hs)

theorem Spares.bind (hm : Spares I err m) (hf : ∀ a, Spares I err (f a)) :
    Spares I err (m >>= f) := spares_bind hm fun _ a _ _ => hf a

theorem spares_tryCatch {g : Error → Work σ α} (hm : Spares I err m)
    (hg : ∀ err', err' ≠ err → Spares I err (g err')) : Spares I err (tryCatch m g) := by
  have hboth : ∀ s, I s → I ((tryCatch m g).run.run s).2 ∧
      ((tryCatch m g).run.run s).1 ≠ .error err := by
    intro s hs
    have hbehind : I (m.run.run s).2 := hm.keeps s hs
    cases hresult : (m.run.run s).1 with
    | ok a =>
      rw [run_tryCatch_of_ok (Prod.ext hresult rfl)]
      exact ⟨hbehind, nofun⟩
    | error err' =>
      have hne : err' ≠ err := fun heq => hm.result s hs (heq ▸ hresult)
      rw [run_tryCatch_of_error (Prod.ext hresult rfl)]
      exact ⟨(hg err' hne).keeps _ hbehind, (hg err' hne).result _ hbehind⟩
  exact ⟨fun s hs => (hboth s hs).1, fun s hs => (hboth s hs).2⟩

/-- Work on a part of the state fails as the work on the part does. -/
theorem Spares.on {J : τ → Prop} {part : σ → τ} {write : σ → τ → σ} {n : Work τ α}
    (hn : Spares J err n) (hpart : ∀ s, I s → J (part s))
    (hwrite : ∀ s t, I s → J t → I (write s t)) : Spares I err (on part write n) where
  keeps := hn.keeps.on hpart hwrite
  result s hs := hn.result _ (hpart s hs)

end Spares

/-! ## Work on a view of the state -/

/-- Work looks at a view of the state only, and leaves the rest alone: from states with one view it
has one result, and one view behind it. -/
structure Local {ν ρ : Type} (I : σ → Prop) (view : σ → ν) (rest : σ → ρ) (m : Work σ α) :
    Prop where
  keeps : Keeps I m
  frame : ∀ s, I s → rest (m.run.run s).2 = rest s
  agree : ∀ s t, I s → I t → view s = view t →
    (m.run.run s).1 = (m.run.run t).1 ∧ view (m.run.run s).2 = view (m.run.run t).2

section Local

variable {ν ρ : Type} {I : σ → Prop} {view : σ → ν} {rest : σ → ρ}

theorem local_of (x : Except Error α) : Local I view rest (of x) where
  keeps := keeps_of x
  frame s _ := by rw [run_of]
  agree s t _ _ hview := by
    rw [run_of, run_of]
    exact ⟨rfl, hview⟩

/-- All work is local to the whole state. -/
theorem local_whole (m : Work σ α) : Local (fun _ => True) id (fun _ => ()) m where
  keeps _ _ := trivial
  frame _ _ := rfl
  agree s t _ _ hview := by
    rw [show s = t from hview]
    exact ⟨rfl, rfl⟩

theorem local_pure (a : α) : Local I view rest (pure a : Work σ α) := local_of (.ok a)

/-- A change of the view. -/
theorem local_modify {g : σ → σ} (hkeeps : ∀ s, I s → I (g s)) (hrest : ∀ s, rest (g s) = rest s)
    (hview : ∀ s t, view s = view t → view (g s) = view (g t)) :
    Local I view rest (modify g : Work σ Unit) where
  keeps := keeps_modify hkeeps
  frame s _ := hrest s
  agree s t _ _ h := ⟨rfl, hview s t h⟩

/-- Work that sees the state is local if what it does then depends on the view. -/
theorem local_get_bind {g : σ → Work σ β} (hlocal : ∀ s, Local I view rest (g s))
    (hview : ∀ s t, view s = view t → g s = g t) : Local I view rest (get >>= g) where
  keeps s hs := (hlocal s).keeps s hs
  frame s hs := (hlocal s).frame s hs
  agree s t hs ht h := by
    have hgt : ((get >>= g).run.run t : Except Error β × σ) = (g s).run.run t := by
      rw [hview s t h]
      rfl
    rw [hgt]
    exact (hlocal s).agree s t hs ht h

/-- Work after other work has the results of the other work at hand. -/
theorem local_bind (hm : Local I view rest m)
    (hf : ∀ s a, I s → (m.run.run s).1 = .ok a → Local I view rest (f a)) :
    Local I view rest (m >>= f) where
  keeps := keeps_bind hm.keeps fun s a hs ha => (hf s a hs ha).keeps _ (hm.keeps s hs)
  frame s hs := by
    cases hresult : (m.run.run s).1 with
    | error err =>
      rw [run_bind_of_error (Prod.ext hresult rfl)]
      exact hm.frame s hs
    | ok a =>
      rw [run_bind_of_ok (Prod.ext hresult rfl)]
      exact ((hf s a hs hresult).frame _ (hm.keeps s hs)).trans (hm.frame s hs)
  agree s t hs ht hview := by
    obtain ⟨hsame, hbehind⟩ := hm.agree s t hs ht hview
    cases hresult : (m.run.run s).1 with
    | error err =>
      have hresult' : (m.run.run t).1 = .error err := hsame.symm.trans hresult
      rw [run_bind_of_error (Prod.ext hresult rfl), run_bind_of_error (Prod.ext hresult' rfl)]
      exact ⟨rfl, hbehind⟩
    | ok a =>
      have hresult' : (m.run.run t).1 = .ok a := hsame.symm.trans hresult
      rw [run_bind_of_ok (Prod.ext hresult rfl), run_bind_of_ok (Prod.ext hresult' rfl)]
      exact (hf s a hs hresult).agree _ _ (hm.keeps s hs) (hm.keeps t ht) hbehind

theorem Local.bind (hm : Local I view rest m) (hf : ∀ a, Local I view rest (f a)) :
    Local I view rest (m >>= f) := local_bind hm fun _ a _ _ => hf a

theorem local_tryCatch {g : Error → Work σ α} (hm : Local I view rest m)
    (hg : ∀ err, Local I view rest (g err)) : Local I view rest (tryCatch m g) := by
  refine ⟨keeps_tryCatch hm.keeps fun err => (hg err).keeps, fun s hs => ?_,
    fun s t hs ht hview => ?_⟩
  · cases hresult : (m.run.run s).1 with
    | ok a =>
      rw [run_tryCatch_of_ok (Prod.ext hresult rfl)]
      exact hm.frame s hs
    | error err =>
      rw [run_tryCatch_of_error (Prod.ext hresult rfl)]
      exact ((hg err).frame _ (hm.keeps s hs)).trans (hm.frame s hs)
  · obtain ⟨hsame, hbehind⟩ := hm.agree s t hs ht hview
    cases hresult : (m.run.run s).1 with
    | ok a =>
      have hresult' : (m.run.run t).1 = .ok a := hsame.symm.trans hresult
      rw [run_tryCatch_of_ok (Prod.ext hresult rfl), run_tryCatch_of_ok (Prod.ext hresult' rfl)]
      exact ⟨rfl, hbehind⟩
    | error err =>
      have hresult' : (m.run.run t).1 = .error err := hsame.symm.trans hresult
      rw [run_tryCatch_of_error (Prod.ext hresult rfl),
        run_tryCatch_of_error (Prod.ext hresult' rfl)]
      exact (hg err).agree _ _ (hm.keeps s hs) (hm.keeps t ht) hbehind

/-- Local work on a part of the state. -/
theorem Local.on {ν' ρ' : Type} {J : τ → Prop} {view' : τ → ν'} {rest' : τ → ρ'} {part : σ → τ}
    {write : σ → τ → σ} {n : Work τ α} (hn : Local J view' rest' n)
    (hpart : ∀ s, I s → J (part s)) (hwrite : ∀ s t, I s → J t → I (write s t))
    (hrest : ∀ s t, rest' t = rest' (part s) → rest (write s t) = rest s)
    (hview : ∀ s t, view s = view t → view' (part s) = view' (part t))
    (hbehind : ∀ s t u w, view s = view t → view' u = view' w →
      view (write s u) = view (write t w)) : Local I view rest (on part write n) where
  keeps := hn.keeps.on hpart hwrite
  frame s hs := hrest s _ (hn.frame _ (hpart s hs))
  agree s t hs ht h := by
    obtain ⟨hsame, hbehind'⟩ := hn.agree _ _ (hpart s hs) (hpart t ht) (hview s t h)
    exact ⟨hsame, hbehind s t _ _ h hbehind'⟩

end Local

/-! ## Work on images of states -/

/-- Work does on the image of a state what other work does on the state: the result is the image of
the other result, and so is the state behind it. -/
def Mirrors (g : σ → τ) (e : α → β) (m : Work σ α) (n : Work τ β) : Prop :=
  ∀ s, n.run.run (g s) = ((m.run.run s).1.map e, g (m.run.run s).2)

section Mirrors

variable {α' β' : Type} {g : σ → τ} {e : α → α'} {e' : β → β'} {n : Work τ α'}

theorem mirrors_of {x : Except Error α} {y : Except Error α'} (h : y = x.map e) :
    Mirrors g e (of x) (of y) := by
  intro s
  rw [run_of, run_of, h]

theorem mirrors_pure (a : α) : Mirrors g e (pure a) (pure (e a)) := fun _ => rfl

theorem mirrors_modify {u : σ → σ} {v : τ → τ} (h : ∀ s, v (g s) = g (u s)) :
    Mirrors g id (modify u : Work σ Unit) (modify v) :=
  fun s => congrArg (Prod.mk (Except.ok ())) (h s)

/-- Work that looks at the state sees its image. -/
theorem mirrors_get_bind {k : σ → Work σ β} {k' : τ → Work τ β'}
    (h : ∀ s, Mirrors g e' (k s) (k' (g s))) : Mirrors g e' (get >>= k) (get >>= k') :=
  fun s => h s s

theorem Mirrors.bind {k : α → Work σ β} {k' : α' → Work τ β'} (hm : Mirrors g e m n)
    (hk : ∀ a, Mirrors g e' (k a) (k' (e a))) : Mirrors g e' (m >>= k) (n >>= k') := by
  intro s
  have hs := hm s
  cases hresult : (m.run.run s).1 with
  | error err =>
    rw [hresult] at hs
    rw [run_bind_of_error (Prod.ext hresult rfl), run_bind_of_error hs]
    rfl
  | ok a =>
    rw [hresult] at hs
    rw [run_bind_of_ok (Prod.ext hresult rfl), run_bind_of_ok hs]
    exact hk a _

end Mirrors
end RequestPlan.Work
