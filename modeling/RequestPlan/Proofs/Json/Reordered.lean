import Mathlib.Data.List.Perm.Basic
import RequestPlan.Json.Record

/-!
# The order of members

A JSON object is the same, whatever the order of its members.

* `Json.induct`: induction on JSON values.
* `Json.Reordered`: a value with the members of its objects in any order, at every level.
* `Reordered.ofMembers?`: **fields are found in any order.**
* `Json.ReadsAs`: a value is read in one way, in whatever order its members come, and
  `readsAs_list`, `FieldReadsAs.given`, …: so are lists and fields.
* `ofMembers?_membersOf`: **the fields of a record that is written are read back.**
-/

namespace RequestPlan
namespace Json

/-- Induction on JSON values, with a hypothesis for every item and every member. -/
theorem induct {P : Json → Prop} (null : P .null) (bool : ∀ b, P (.bool b))
    (number : ∀ n, P (.number n)) (string : ∀ s, P (.string s))
    (array : ∀ items, (∀ j ∈ items, P j) → P (.array items))
    (object : ∀ members, (∀ m ∈ members, P m.2) → P (.object members))
    (unreadable : P .unreadable) (j : Json) : P j := by
  refine @Json.rec P (fun items => ∀ j ∈ items, P j) (fun members => ∀ m ∈ members, P m.2)
    (fun m => P m.2) null bool number string array object unreadable ?_ ?_ ?_ ?_
    (fun _ _ h => h) j
  · exact fun j hj => absurd hj List.not_mem_nil
  · exact fun j items hj hitems => List.forall_mem_cons.2 ⟨hj, hitems⟩
  · exact fun m hm => absurd hm List.not_mem_nil
  · exact fun m members hm hmembers => List.forall_mem_cons.2 ⟨hm, hmembers⟩

mutual

/-- The second value is the first one with the members of its objects in some order. -/
def Reordered : Json → Json → Prop
  | .array items, j => ∃ items', j = .array items' ∧ ItemsReordered items items'
  | .object members, j =>
    ∃ members' named, j = .object named ∧ MembersReordered members members' ∧ members'.Perm named
  | i, j => j = i

/-- Item by item, the second values are the first ones with members in some order. -/
def ItemsReordered : List Json → List Json → Prop
  | [], items => items = []
  | i :: rest, items => ∃ j rest', items = j :: rest' ∧ Reordered i j ∧ ItemsReordered rest rest'

/-- Member by member, the second values are the first ones with members in some order. -/
def MembersReordered : List (String × Json) → List (String × Json) → Prop
  | [], members => members = []
  | (name, i) :: rest, members =>
    ∃ j rest', members = (name, j) :: rest' ∧ Reordered i j ∧ MembersReordered rest rest'

end

theorem itemsReordered_iff {is js : List Json} :
    ItemsReordered is js ↔ List.Forall₂ Reordered is js := by
  induction is generalizing js with
  | nil => exact List.forall₂_nil_left_iff.symm
  | cons i is ih =>
    rw [List.forall₂_cons_left_iff, ItemsReordered]
    constructor
    · rintro ⟨j, rest, rfl, hij, hrest⟩
      exact ⟨j, rest, hij, ih.1 hrest, rfl⟩
    · rintro ⟨j, rest, hij, hrest, rfl⟩
      exact ⟨j, rest, rfl, hij, ih.2 hrest⟩

/-- A member of the same name, with a value whose members are in some order. -/
def MemberReordered (m n : String × Json) : Prop := n.1 = m.1 ∧ Reordered m.2 n.2

theorem membersReordered_iff {ms ns : List (String × Json)} :
    MembersReordered ms ns ↔ List.Forall₂ MemberReordered ms ns := by
  induction ms generalizing ns with
  | nil => exact List.forall₂_nil_left_iff.symm
  | cons m ms ih =>
    obtain ⟨name, i⟩ := m
    rw [List.forall₂_cons_left_iff, MembersReordered]
    constructor
    · rintro ⟨j, rest, rfl, hij, hrest⟩
      exact ⟨(name, j), rest, ⟨rfl, hij⟩, ih.1 hrest, rfl⟩
    · rintro ⟨⟨name', j⟩, rest, ⟨hname, hij⟩, hrest, rfl⟩
      cases (hname : name' = name)
      exact ⟨j, rest, rfl, hij, ih.2 hrest⟩

variable {i j : Json} {members named : List (String × Json)} {name : String}

theorem reordered_array {items : List Json} :
    Reordered (.array items) j ↔
      ∃ items', j = .array items' ∧ List.Forall₂ Reordered items items' := by
  simp only [Reordered, itemsReordered_iff]

theorem reordered_object : Reordered (.object members) j ↔ ∃ members' named,
    j = .object named ∧ List.Forall₂ MemberReordered members members' ∧ members'.Perm named := by
  simp only [Reordered, membersReordered_iff]

theorem Reordered.refl (j : Json) : Reordered j j := by
  induction j using Json.induct with
  | array items ih =>
    exact reordered_array.2 ⟨items, rfl, List.forall₂_same.2 ih⟩
  | object members ih =>
    have hsame : List.Forall₂ MemberReordered members members :=
      List.forall₂_same.2 fun m hm => ⟨rfl, ih m hm⟩
    exact reordered_object.2 ⟨members, members, rfl, hsame, .refl _⟩
  | _ => rfl

/-! ## Marks -/

theorem allReadable_eq (items : List Json) : allReadable items = items.all isReadable := by
  induction items with
  | nil => rfl
  | cons j items ih => rw [allReadable, List.all_cons, ih]

theorem allMembersReadable_eq (members : List (String × Json)) :
    allMembersReadable members = members.all fun m => m.2.isReadable := by
  induction members with
  | nil => rfl
  | cons m members ih => rw [allMembersReadable, List.all_cons, ih]

/-- **In another order the members are as readable as before.** -/
theorem Reordered.isReadable (h : Reordered i j) : j.isReadable = i.isReadable := by
  induction i using Json.induct generalizing j with
  | array items ih =>
    obtain ⟨items', rfl, hitems⟩ := reordered_array.1 h
    rw [Json.isReadable, Json.isReadable, allReadable_eq, allReadable_eq]
    clear h
    induction hitems with
    | nil => rfl
    | cons hij _ ihrest =>
      rw [List.all_cons, List.all_cons, ih _ List.mem_cons_self hij,
        ihrest fun j hj => ih j (List.mem_cons_of_mem _ hj)]
  | object members ih =>
    obtain ⟨members', named, rfl, hmembers, hperm⟩ := reordered_object.1 h
    rw [Json.isReadable, Json.isReadable, allMembersReadable_eq, allMembersReadable_eq,
      ← hperm.all_eq]
    clear h hperm
    induction hmembers with
    | nil => rfl
    | cons hmn _ ihrest =>
      rw [List.all_cons, List.all_cons, ih _ List.mem_cons_self hmn.2,
        ihrest fun m hm => ih m (List.mem_cons_of_mem _ hm)]
  | _ =>
    cases (h : j = _)
    rfl

/-! ## Fields -/

/-- The values of a name are found again, in some order. -/
theorem exists_perm_valuesOf {members' : List (String × Json)} (name : String)
    (h : List.Forall₂ MemberReordered members members') (hperm : members'.Perm named) :
    ∃ js, List.Forall₂ Reordered (valuesOf name members) js ∧ js.Perm (valuesOf name named) := by
  refine ⟨valuesOf name members', ?_, (hperm.filter _).map _⟩
  clear hperm
  induction h with
  | nil => exact .nil
  | @cons m n ms ns hmn _ ih =>
    unfold valuesOf at ih ⊢
    by_cases hname : m.1 = name
    · rw [List.filter_cons_of_pos (by simpa using hname),
        List.filter_cons_of_pos (by simpa [hmn.1] using hname)]
      exact .cons hmn.2 ih
    · rw [List.filter_cons_of_neg (by simpa using hname),
        List.filter_cons_of_neg (by simpa [hmn.1] using hname)]
      exact ih

/-- A field that is left out stays so, and one that is there is there in some order. -/
theorem exists_of?_of_reordered {members' : List (String × Json)} {f : Field} {o : Option Json}
    (h : List.Forall₂ MemberReordered members members') (hperm : members'.Perm named)
    (hf : f.of? members = some o) :
    ∃ o', f.of? named = some o' ∧ Option.Rel Reordered o o' := by
  obtain ⟨js, hjs, hperm⟩ := exists_perm_valuesOf f.name h hperm
  unfold Field.of? at hf ⊢
  split at hf
  · rename_i hnone
    rw [hnone, List.forall₂_nil_left_iff] at hjs
    subst hjs
    rw [List.nil_perm.1 hperm]
    split at hf
    · cases hf
    · rename_i hoptional
      cases hf
      exact ⟨none, if_neg hoptional, .none⟩
  · rename_i i hone
    rw [hone] at hjs
    obtain ⟨j, js, hij, hrest, rfl⟩ := List.forall₂_cons_left_iff.1 hjs
    rw [List.forall₂_nil_left_iff.1 hrest] at hperm
    cases hf
    rw [← List.singleton_perm.1 hperm]
    exact ⟨some j, rfl, .some hij⟩
  · cases hf

theorem mapM_eq_some_iff {α β : Type} {f : α → Option β} {xs : List α} {ys : List β} :
    xs.mapM f = some ys ↔ List.Forall₂ (fun x y => f x = some y) xs ys := by
  induction xs generalizing ys with
  | nil =>
    rw [List.forall₂_nil_left_iff]
    exact ⟨fun h => (Option.some.inj h).symm, fun h => congrArg some h.symm⟩
  | cons x xs ih =>
    rw [List.mapM_cons, List.forall₂_cons_left_iff]
    constructor
    · intro h
      obtain ⟨y, hy, h⟩ := Option.bind_eq_some_iff.1 h
      obtain ⟨rest, hrest, h⟩ := Option.bind_eq_some_iff.1 h
      cases h
      exact ⟨y, rest, hy, ih.1 hrest, rfl⟩
    · rintro ⟨y, rest, hy, hrest, rfl⟩
      rw [hy, ih.2 hrest]
      rfl

/-- **Fields are found in any order**, with their values, whose members are in some order. -/
theorem Reordered.ofMembers? (h : Reordered (.object members) j) (fs : List Field)
    {os : List (Option Json)} (hfs : Json.ofMembers? fs members = some os) :
    ∃ named os', j = .object named ∧ Json.ofMembers? fs named = some os' ∧
      List.Forall₂ (Option.Rel Reordered) os os' := by
  obtain ⟨members', named, rfl, hmembers, hperm⟩ := reordered_object.1 h
  refine ⟨named, ?_⟩
  unfold Json.ofMembers? at hfs ⊢
  rw [mapM_eq_some_iff] at hfs
  induction hfs with
  | nil => exact ⟨[], rfl, rfl, .nil⟩
  | cons hf _ ih =>
    obtain ⟨o', ho', hrel⟩ := exists_of?_of_reordered hmembers hperm hf
    obtain ⟨os', -, hos', hrels⟩ := ih
    have hall : List.Forall₂ (fun f o => Field.of? f named = some o) _ (o' :: os') :=
      .cons ho' (mapM_eq_some_iff.1 hos')
    exact ⟨o' :: os', rfl, mapM_eq_some_iff.2 hall, .cons hrel hrels⟩

/-! ## Reading in any order -/

section Reading

variable {α : Type} {read? : Json → Option α} {x : α}

/-- A value is read in one way, in whatever order the members of its objects come. -/
def ReadsAs (read? : Json → Option α) (i : Json) (x : α) : Prop :=
  ∀ j, Reordered i j → read? j = some x

/-- So is the field of a record. -/
def FieldReadsAs (get? : Option Json → Option α) (o : Option Json) (x : α) : Prop :=
  ∀ o', Option.Rel Reordered o o' → get? o' = some x

theorem ReadsAs.self (h : ReadsAs read? i x) : read? i = some x := h i (.refl i)

theorem readsAs_text (s : String) : ReadsAs text? (.string s) s := by
  rintro j rfl
  rfl

theorem readsAs_flag (b : Bool) : ReadsAs flag? (.bool b) b := by
  rintro j rfl
  rfl

theorem readsAs_word (w : UInt64) : ReadsAs word? (.int w.toNat) w := by
  rintro j rfl
  have hrange : (0 : Int) ≤ w.toNat ∧ (w.toNat : Int) < UInt64.size :=
    ⟨Int.natCast_nonneg _, Int.ofNat_lt.2 w.toNat_lt⟩
  rw [word?, if_pos hrange, Int.toNat_natCast, UInt64.ofNat_toNat]

theorem readsAs_choice {kept : Bool} {choices : List (String × α)} {s : String}
    (h : choices.lookup s = some x) : ReadsAs (choice? kept choices) (.string s) x := by
  rintro j rfl
  exact h

/-- Lists are read item by item. -/
theorem readsAs_list {write : α → Json} {xs : List α}
    (h : ∀ x ∈ xs, ReadsAs read? (write x) x) :
    ReadsAs (list? read?) (.array (xs.map write)) xs := by
  intro j hj
  obtain ⟨items, rfl, hitems⟩ := reordered_array.1 hj
  rw [list?, mapM_eq_some_iff]
  clear hj
  induction xs generalizing items with
  | nil =>
    rw [List.forall₂_nil_left_iff.1 hitems]
    exact .nil
  | cons x xs ih =>
    obtain ⟨hx, hxs⟩ := List.forall_mem_cons.1 h
    obtain ⟨item, rest, hitem, hrest, rfl⟩ := List.forall₂_cons_left_iff.1 hitems
    exact .cons (hx item hitem) (ih hxs rest hrest)

theorem FieldReadsAs.given (h : ReadsAs read? i x) : FieldReadsAs (given? read?) (some i) x := by
  intro o ho
  cases ho with
  | some hij => exact h _ hij

theorem Reordered.isNull (h : Reordered i j) : j.isNull = i.isNull := by
  cases i with
  | array items =>
    obtain ⟨items', rfl, -⟩ := reordered_array.1 h
    rfl
  | object members =>
    obtain ⟨members', named, rfl, -⟩ := reordered_object.1 h
    rfl
  | _ =>
    cases (h : j = _)
    rfl

/-- A value that is left out is none, and one that is not null is read. -/
theorem FieldReadsAs.option {o : Option α} {write : α → Json}
    (h : ∀ x, o = some x → ReadsAs read? (write x) x) (hnull : ∀ x, (write x).isNull = false) :
    FieldReadsAs (option? read?) (o.map write) o := by
  intro o' ho
  cases o with
  | none =>
    cases ho
    rfl
  | some x =>
    cases ho with
    | @some _ j hij =>
      have hj : j.isNull = false := hij.isNull.trans (hnull x)
      have hread : read? j = some x := h x rfl j hij
      cases j with
      | null => cases hj
      | _ => exact congrArg (Option.map some) hread

/-- A value that is left out is the usual one. -/
theorem FieldReadsAs.orElse {usual : α} {left : Bool} (h : ReadsAs read? i x)
    (husual : left = true → x = usual) :
    FieldReadsAs (orElse? usual read?) (if left then none else some i) x := by
  intro o ho
  cases left with
  | true =>
    cases ho
    exact congrArg some (husual rfl).symm
  | false =>
    cases ho with
    | some hij => exact h _ hij

/-- A list that is left out is empty. -/
theorem FieldReadsAs.list {write : α → Json} {xs : List α}
    (h : ∀ x ∈ xs, ReadsAs read? (write x) x) :
    FieldReadsAs (orElse? [] (list? read?))
      (if xs.isEmpty then none else some (.array (xs.map write))) xs :=
  .orElse (readsAs_list h) List.isEmpty_iff.1

end Reading

/-! ## Records -/

/-- The members that a record is written with: a value for each field that is there. -/
def membersOf (fs : List Field) (os : List (Option Json)) : List (String × Json) :=
  (List.zipWith (fun f o => field? f.name o) fs os).filterMap id

theorem listField_eq {α : Type} (name : String) (write : α → Json) (xs : List α) :
    listField name write xs =
      field? name (if xs.isEmpty then none else some (.array (xs.map write))) := by
  cases xs <;> rfl

section Records

variable {f : Field} {fs : List Field} {o : Option Json} {os : List (Option Json)}

theorem valuesOf_append (name : String) (ms ns : List (String × Json)) :
    valuesOf name (ms ++ ns) = valuesOf name ms ++ valuesOf name ns := by
  rw [valuesOf, List.filter_append, List.map_append]
  rfl

theorem membersOf_cons :
    membersOf (f :: fs) (o :: os) = (field? f.name o).toList ++ membersOf fs os := by
  cases o <;> rfl

theorem valuesOf_field?_self (name : String) (o : Option Json) :
    valuesOf name (field? name o).toList = o.toList := by
  cases o with
  | none => rfl
  | some j => simp [valuesOf, field?]

theorem valuesOf_field?_of_ne {name' : String} (h : name' ≠ name) (o : Option Json) :
    valuesOf name (field? name' o).toList = [] := by
  cases o with
  | none => rfl
  | some j => simp [valuesOf, field?, h]

theorem valuesOf_membersOf (h : name ∉ fs.map Field.name) :
    valuesOf name (membersOf fs os) = [] := by
  induction fs generalizing os with
  | nil => rfl
  | cons f fs ih =>
    cases os with
    | nil => rfl
    | cons o os =>
      rw [List.map_cons, List.mem_cons, not_or] at h
      rw [membersOf_cons, valuesOf_append, valuesOf_field?_of_ne (Ne.symm h.1), ih h.2]
      rfl

/-- **The fields of a record that is written are read back**, if those that have to be there are
there. -/
theorem ofMembers?_membersOf (hnodup : (fs.map Field.name).Nodup)
    (hrequired : List.Forall₂ (fun f o => f.required = true → o.isSome = true) fs os) :
    ofMembers? fs (membersOf fs os) = some os := by
  -- so it is behind members with other names
  have hbehind : ∀ before, (∀ f ∈ fs, valuesOf f.name before = []) →
      ofMembers? fs (before ++ membersOf fs os) = some os := by
    induction hrequired with
    | nil => exact fun before _ => rfl
    | @cons f o fs os hf _ ih =>
      intro before hbefore
      obtain ⟨hnew, hrest⟩ := List.nodup_cons.1 hnodup
      have hfirst : f.of? (before ++ membersOf (f :: fs) (o :: os)) = some o := by
        rw [Field.of?, valuesOf_append, hbefore f List.mem_cons_self, membersOf_cons,
          valuesOf_append, valuesOf_field?_self, valuesOf_membersOf hnew]
        cases o with
        | some j => rfl
        | none => exact if_neg fun hneeded => Bool.noConfusion (hf hneeded)
      have hothers : ofMembers? fs (before ++ membersOf (f :: fs) (o :: os)) = some os := by
        rw [membersOf_cons, ← List.append_assoc]
        refine ih hrest _ fun f' hf' => ?_
        have hne : f.name ≠ f'.name := fun heq => hnew (heq ▸ List.mem_map_of_mem hf')
        rw [valuesOf_append, hbefore f' (List.mem_cons_of_mem _ hf'), valuesOf_field?_of_ne hne]
        rfl
      rw [ofMembers?, mapM_eq_some_iff] at hothers ⊢
      exact .cons hfirst hothers
  exact hbehind [] fun f _ => rfl

/-- The fields of a record that is written are found in any order. -/
theorem exists_fields (fs : List Field) (os : List (Option Json))
    (h : Reordered (.object (membersOf fs os)) j) (hnodup : (fs.map Field.name).Nodup)
    (hrequired : List.Forall₂ (fun f o => f.required = true → o.isSome = true) fs os) :
    ∃ named os', j = .object named ∧ ofMembers? fs named = some os' ∧
      List.Forall₂ (Option.Rel Reordered) os os' :=
  h.ofMembers? fs (ofMembers?_membersOf hnodup hrequired)

theorem ofMembers?_cons {o : Option Json} {os : List (Option Json)} :
    ofMembers? (f :: fs) members = some (o :: os) ↔
      f.of? members = some o ∧ ofMembers? fs members = some os := by
  unfold ofMembers?
  rw [mapM_eq_some_iff, List.forall₂_cons, mapM_eq_some_iff]

theorem valuesOf_of_of? (h : f.of? members = some o) : valuesOf f.name members = o.toList := by
  unfold Field.of? at h
  split at h
  · rename_i hnone
    split at h
    · cases h
    · cases h
      exact hnone
  · rename_i j hone
    cases h
    exact hone
  · cases h

/-- The second of two fields has the first value under its name, if there is one. -/
theorem head?_second {g : Field} {o' : Option Json} (h : ofMembers? [f, g] members = some [o, o']) :
    (valuesOf g.name members).head? = o' := by
  obtain ⟨-, hrest⟩ := ofMembers?_cons.1 h
  rw [valuesOf_of_of? (ofMembers?_cons.1 hrest).1, Option.head?_toList]

/-- A search through members for a name comes to the first value under it. -/
theorem search_eq {α : Type} {search : List (String × Json) → α} (found : Option Json → α)
    (hnil : search [] = found none)
    (hcons : ∀ m members, search (m :: members) =
      if m.1 = name then found (some m.2) else search members)
    (members : List (String × Json)) : search members = found (valuesOf name members).head? := by
  induction members with
  | nil => exact hnil
  | cons m members ih =>
    rw [hcons, valuesOf]
    split
    · rename_i hname
      rw [List.filter_cons_of_pos (by simpa using hname)]
      rfl
    · rename_i hname
      rw [List.filter_cons_of_neg (by simpa using hname), ih]
      rfl

/-- **So are those of a record whose kind is one of its members**, if all of it is readable. -/
theorem exists_variant {tag kind : String} (fieldsOf : String → Option (List Field))
    (fs : List Field) (os : List (Option Json)) (hfields : fieldsOf kind = some fs)
    (h : Reordered (.object (membersOf (needed tag :: fs) (some (.string kind) :: os))) j)
    (hreadable : (Json.object (membersOf (needed tag :: fs) (some (.string kind) :: os))).isReadable
      = true)
    (hnodup : ((needed tag :: fs).map Field.name).Nodup)
    (hrequired : List.Forall₂ (fun f o => f.required = true → o.isSome = true) fs os) :
    ∃ os', variant? tag fieldsOf j = some (kind, os') ∧
      List.Forall₂ (Option.Rel Reordered) os os' := by
  have hj : j.isReadable = true := h.isReadable.trans hreadable
  obtain ⟨named, os', rfl, hos, hrel⟩ := exists_fields (needed tag :: fs) _ h hnodup
    (.cons (fun _ => rfl) hrequired)
  obtain _ | ⟨hkind, hrel⟩ := hrel
  obtain ⟨htag, hrest⟩ := ofMembers?_cons.1 hos
  cases hkind with
  | @some _ i hkind =>
    cases (hkind : i = .string kind)
    have hone : ofMembers? [needed tag] named = some [some (.string kind)] :=
      ofMembers?_cons.2 ⟨htag, rfl⟩
    refine ⟨_, ?_, hrel⟩
    rw [variant?, hj]
    simp only [Bool.not_true, Bool.false_eq_true, if_false, hone, text?, hfields, hrest,
      Option.bind_eq_bind, Option.bind_some]
    rfl

end Records

end Json
end RequestPlan
