import RequestPlan.Proofs.Columns.Subqueries

/-!
# Filters along relations

* `Catalog.Passes`: an alias for filters leads along a relation to another entity, `Catalog.Chain`:
  several of them do so one after the other.
* `Predicate.within`: a condition below existence tests for several links.
* `exists_leaf_of_filter`: a filter along a chain puts what its last part makes below the links.
* `apply_within_of_filter`: **a filter along relations is the filter at their end, alone, below an
  existence test for each relation**. No join is added.
-/

namespace RequestPlan

/-- The condition below existence tests for several links, the first of them outermost. -/
def Predicate.within : List Link → Option Predicate → Option Predicate
  | [], p => p
  | l :: ls, p => some (exists? l (within ls p))

theorem CompiledFilter.isRelation_columnFilter (d : Definition) (key : FilterKey) (a : String)
    (entry : Entry) : (Registry.columnFilter d key a entry).isRelation = false := by
  unfold Registry.columnFilter
  dsimp only
  split <;> rfl

namespace Catalog

/-! ## Chains of relations -/

/-- An alias for filters stands for a relation that can be followed. -/
def Passes (c : Catalog) (d : Definition) (a : String) (link : Link) (related : Definition) : Prop :=
  ∃ t entry r, Table.of d.toEntity .filterable = .ok t ∧ t.find? a = some entry ∧
    Mode.parse entry.mode = .relation ∧ d.relation? entry.key = some r ∧
    c.find? r.related = some related ∧ r.link? d.toEntity related.toEntity = some link

/-- Aliases that stand for relations lead from an entity to another one, through these links. -/
inductive Chain (c : Catalog) : Definition → List String → List Link → Definition → Prop
  | here {d : Definition} : Chain c d [] [] d
  | step {d related last : Definition} {a : String} {link : Link} {aliases : List String}
      {links : List Link} (ha : c.Passes d a link related)
      (hrest : Chain c related aliases links last) :
      Chain c d (a :: aliases) (link :: links) last

variable {c : Catalog} {d related last : Definition} {a : String} {link : Link}
  {aliases : List String} {links : List Link} {rest : FilterKey} {f : CompiledFilter}

theorem entry?_eq_ok_of_find? {t : Table} {entry : Entry} (hd : c.find? d.name = some d)
    (ht : Table.of d.toEntity .filterable = .ok t) (hentry : t.find? a = some entry) :
    c.entry? d.name a = .ok (some (d, entry)) := by
  have hget : c.get d.name = .ok d := get_eq_ok_iff.2 hd
  obtain ⟨d', hget', h⟩ := @entry?_of_table c d.name a t (by rw [table_of_get hget, ht])
  rw [hget] at hget'
  cases hget'
  rw [h, hentry]
  rfl

/-- The relation of a link is the one that filters go through. -/
theorem filterLink_eq_ok_iff {name : String} :
    c.filterLink d name = .ok (link, related) ↔
      ∃ r, d.relation? name = some r ∧ c.find? r.related = some related ∧
        r.link? d.toEntity related.toEntity = some link := by
  unfold filterLink
  cases hr : d.relation? name with
  | none => simp
  | some r =>
    have hpairs : r.kind = .manyToMany → r.link? d.toEntity related.toEntity = none := by
      intro hkind
      simp only [Relation.link?, hkind]
    by_cases hkind : r.kind = .manyToMany
    · simp [hkind, hpairs hkind]
    · cases hget : c.find? r.related with
      | none =>
        have hfail : c.get r.related = .error (.unknownEntity r.related) :=
          get_eq_error_iff.2 ⟨hget, rfl⟩
        simp [hkind, hfail, Except.bind, hget]
      | some e =>
        have hok : c.get r.related = .ok e := get_eq_ok_iff.2 hget
        simp only [hkind, if_false, hok, Except.bind, Option.some.injEq, exists_eq_left', hget]
        constructor
        · intro h
          split at h
          · cases h
          · rename_i l hl
            cases h
            exact ⟨rfl, hl⟩
        · rintro ⟨rfl, hl⟩
          rw [hl]

/-- What an alias passes through is what a filter with the alias in front goes through. -/
theorem passes_iff (hd : c.find? d.name = some d) :
    c.Passes d a link related ↔ ∃ entry, c.entry? d.name a = .ok (some (d, entry)) ∧
      Mode.parse entry.mode = .relation ∧ c.filterLink d entry.key = .ok (link, related) := by
  constructor
  · rintro ⟨t, entry, r, ht, hentry, hmode, hr, hrelated, hlink⟩
    exact ⟨entry, entry?_eq_ok_of_find? hd ht hentry, hmode,
      filterLink_eq_ok_iff.2 ⟨r, hr, hrelated, hlink⟩⟩
  · rintro ⟨entry, hentry?, hmode, hlink⟩
    obtain ⟨-, t, ht, hentry⟩ := entry?_eq_ok_some hentry?
    obtain ⟨r, hr, hrelated, hlink⟩ := filterLink_eq_ok_iff.1 hlink
    exact ⟨t, entry, r, ht, hentry, hmode, hr, hrelated, hlink⟩

/-- A relation leads to an entity that is found under its own name. -/
theorem Passes.find? (hc : c.Named) (h : c.Passes d a link related) :
    c.find? related.name = some related := by
  obtain ⟨t, entry, r, -, -, -, -, hrelated, -⟩ := h
  rw [hc _ _ hrelated, hrelated]

theorem Passes.ne_empty (h : c.Passes d a link related) : a ≠ "" := by
  rintro rfl
  obtain ⟨t, entry, r, ht, hentry, -⟩ := h
  rw [Table.find?_empty ht] at hentry
  cases hentry

/-- A chain leads to an entity that is found under its own name. -/
theorem Chain.find? (hc : c.Named) (h : c.Chain d aliases links last)
    (hd : c.find? d.name = some d) : c.find? last.name = some last := by
  induction h with
  | here => exact hd
  | step ha _ ih => exact ih (ha.find? hc)

/-- A chain ends with the last of its links. -/
theorem Chain.exists_last {before : List Link} (h : c.Chain d aliases (before ++ [link]) last) :
    ∃ front a parent, aliases = front ++ [a] ∧ c.Chain d front before parent ∧
      c.Passes parent a link last := by
  induction before generalizing d aliases with
  | nil =>
    cases h with
    | step ha hrest =>
      cases hrest
      exact ⟨[], _, d, rfl, .here, ha⟩
  | cons l before ih =>
    cases h with
    | @step _ related _ b _ aliases _ hb hrest =>
      obtain ⟨front, a, parent, rfl, hfront, ha⟩ := ih hrest
      exact ⟨b :: front, a, parent, rfl, .step hb hfront, ha⟩

/-! ## Filters along chains -/

theorem isBlank_append (hrest : FilterKey.isBlank rest = false) :
    FilterKey.isBlank (aliases ++ rest) = false := by
  cases aliases with
  | nil => exact hrest
  | cons a aliases =>
    have hne : aliases ++ rest ≠ [] := List.append_ne_nil_of_right_ne_nil _ (ne_nil_of_isBlank hrest)
    exact isBlank_cons_of_ne_nil hne

/-- Behind the alias of a relation stands a filter of the related entity. -/
theorem filter_of_passes (hd : c.find? d.name = some d) (ha : c.Passes d a link related)
    (hrest : FilterKey.isBlank rest = false) :
    c.filter d.name (a :: rest) = (c.filter related.name rest).map fun f => f.map fun child =>
      .relatedWhere d.name (a ++ "$" ++ child.key) link child := by
  obtain ⟨entry, hentry, hmode, hlink⟩ := (passes_iff hd).1 ha
  exact filter_of_followed hentry hmode hlink hrest

/-- The alias of a relation alone stands for the relation itself. -/
theorem filter_of_passes_isBlank (hd : c.find? d.name = some d) (ha : c.Passes d a link related)
    (hrest : FilterKey.isBlank rest = true) :
    c.filter d.name (a :: rest) = .ok (some (.related d.name a link)) := by
  obtain ⟨entry, hentry, hmode, hlink⟩ := (passes_iff hd).1 ha
  exact filter_of_related hentry hmode hlink hrest

/-- **A filter along a chain puts what its last part makes below the links**, and fails with it. -/
theorem exists_leaf_of_filter (hc : c.Named) (hd : c.find? d.name = some d)
    (hchain : c.Chain d aliases links last) (hrest : FilterKey.isBlank rest = false)
    (hf : c.filter d.name (aliases ++ rest) = .ok (some f)) :
    ∃ leaf, c.filter last.name rest = .ok (some leaf) ∧ ∀ settings v,
      f.applyAlone settings v = (leaf.applyAlone settings v).map (Predicate.within links) := by
  induction hchain generalizing f with
  | here =>
    have hid : Predicate.within [] = id := rfl
    refine ⟨f, hf, fun settings v => ?_⟩
    rw [hid]
    cases f.applyAlone settings v <;> rfl
  | @step d related last a link aliases links ha _ ih =>
    rw [List.cons_append, filter_of_passes hd ha (isBlank_append hrest)] at hf
    obtain ⟨child, hchild, rfl⟩ := map_eq_ok_some hf
    obtain ⟨leaf, hleaf, happly⟩ := ih (ha.find? hc) hchild
    refine ⟨leaf, hleaf, fun settings v => ?_⟩
    -- one existence test more around what the rest of the chain makes
    rw [CompiledFilter.applyAlone, happly]
    cases leaf.applyAlone settings v <;> rfl

/-- Only the alias of a relation makes a filter that leads through a relation. -/
theorem exists_passes_of_isRelation (hd : c.find? d.name = some d)
    (hf : c.filter d.name (a :: rest) = .ok (some f)) (hrelation : f.isRelation = true) :
    ∃ link related, c.Passes d a link related := by
  cases hentry : c.entry? d.name a with
  | error err =>
    rw [filter, hentry] at hf
    cases hf
  | ok found =>
    cases found with
    | none =>
      rw [filter, hentry] at hf
      cases hf
    | some p =>
      obtain ⟨d', entry⟩ := p
      have hfind : c.find? d.name = some d' := (entry?_eq_ok_some hentry).1
      rw [hd] at hfind
      cases hfind
      by_cases hmode : Mode.parse entry.mode = .relation
      · cases hlink : c.filterLink d entry.key with
        | error err =>
          rw [filter_of_broken _ hentry hmode hlink] at hf
          cases hf
        | ok p => exact ⟨p.1, p.2, (passes_iff hd).2 ⟨entry, hentry, hmode, hlink⟩⟩
      · rw [filter_of_column _ hentry hmode] at hf
        cases hf
        rw [CompiledFilter.isRelation_columnFilter] at hrelation
        cases hrelation

/-- The filter of a key whose first alias stands for a relation leads through it. -/
theorem isRelation_of_passes (hd : c.find? d.name = some d) (ha : c.Passes d a link related)
    (hf : c.filter d.name (a :: rest) = .ok (some f)) : f.isRelation = true := by
  cases hrest : FilterKey.isBlank rest with
  | true =>
    rw [filter_of_passes_isBlank hd ha hrest] at hf
    cases hf
    rfl
  | false =>
    rw [filter_of_passes hd ha hrest] at hf
    obtain ⟨child, -, rfl⟩ := map_eq_ok_some hf
    rfl

/-- A key with a filter follows a chain, as far as its aliases stand for relations. -/
theorem exists_chain_of_filter (hc : c.Named) (hd : c.find? d.name = some d) {key : FilterKey}
    (hf : c.filter d.name key = .ok (some f)) :
    ∃ aliases links last rest, key = aliases ++ rest ∧ c.Chain d aliases links last ∧
      (aliases ≠ [] ↔ f.isRelation = true) ∧
      (FilterKey.isBlank rest = true ∨
        ∃ leaf, c.filter last.name rest = .ok (some leaf) ∧ leaf.isRelation = false) := by
  induction key generalizing d f with
  | nil => cases hf
  | cons a rest ih =>
    cases hrelation : f.isRelation with
    | false => exact ⟨[], [], d, a :: rest, rfl, .here, by simp, .inr ⟨f, hf, hrelation⟩⟩
    | true =>
      obtain ⟨link, related, ha⟩ := exists_passes_of_isRelation hd hf hrelation
      cases hrest : FilterKey.isBlank rest with
      | true => exact ⟨[a], [link], related, rest, rfl, .step ha .here, by simp, .inl hrest⟩
      | false =>
        rw [filter_of_passes hd ha hrest] at hf
        obtain ⟨child, hchild, -⟩ := map_eq_ok_some hf
        obtain ⟨aliases, links, last, rest', hkey, hchain, -, hend⟩ := ih (ha.find? hc) hchild
        refine ⟨a :: aliases, link :: links, last, rest', ?_, .step ha hchain, by simp, hend⟩
        rw [hkey, List.cons_append]

end Catalog

namespace CompiledFilter

theorem existence_of_asks {link : Link} {v : Value} (h : v = .bool true ∨ v = .string "true") :
    existence link v = .related link := by
  rcases h with rfl | rfl <;> rfl

/-- Only `true` and the text `true` ask for related rows. -/
theorem existence_of_not_asks {link : Link} {v : Value}
    (h : ¬(v = .bool true ∨ v = .string "true")) : existence link v = .unrelated link := by
  have hasks : asksForRelated v = false := by
    cases v with
    | bool b =>
      cases b with
      | false => rfl
      | true => exact absurd (.inl rfl) h
    | string s =>
      have hs : s ≠ "true" := fun hs => h (.inr (hs ▸ rfl))
      exact decide_eq_false hs
    | _ => rfl
  rw [existence, hasks]
  rfl

/-- A filter through a relation asks for no joins. -/
theorem run_apply_of_isRelation {f : CompiledFilter} (h : f.isRelation = true) (c : Catalog)
    (root : Definition) (settings : Settings) (v : Value) (js : Joins) :
    (f.apply c root settings v).run.run js = (f.applyAlone settings v, js) := by
  have hplain : ¬f.IsHook := by
    cases f with
    | hook entity key name scope run => cases h
    | column entity key mode col | related entity key link | relatedWhere entity key link child =>
      exact id
  rw [apply_eq hplain, Work.run_of]

end CompiledFilter

namespace Registry

variable {r : Registry} {d : Definition} {text : String} {f : CompiledFilter}

/-- **A filter along relations is the filter at their end, alone, below an existence test for each
relation.** With any hooks, of a key that has a filter: the key follows a chain of relations until
nothing or a filter of another kind is left, and the chain is not empty exactly when the filter leads
through a relation. However many of these relations are taken together, what is left of the key is
the key of a filter of the last related entity, and the whole makes of a value what this filter makes
without joins, below the links in turn; it fails when that fails, for the same reason. Where nothing
is left, the test of the last relation is for related rows with the values `true`, and for none with
all others. The joins stay as they are. -/
theorem apply_within_of_filter (hs : r.Sound) (hd : r.catalog.find? d.name = some d)
    (hf : r.result (filter d.name (FilterKey.parse text)) = .ok (some f)) :
    (∃ aliases links last rest, FilterKey.parse text = aliases ++ rest ∧
      r.catalog.Chain d aliases links last ∧ (aliases ≠ [] ↔ f.isRelation = true) ∧
      (FilterKey.isBlank rest = true ∨
        ∃ leaf, r.result (filter last.name rest) = .ok (some leaf) ∧ leaf.isRelation = false)) ∧
    ∀ aliases links last rest, FilterKey.parse text = aliases ++ rest → aliases ≠ [] →
      r.catalog.Chain d aliases links last →
      (FilterKey.isBlank rest = false →
        ∃ leaf, r.result (filter last.name rest) = .ok (some leaf) ∧
          ∀ c root settings v js, (f.apply c root settings v).run.run js =
            ((leaf.applyAlone settings v).map (Predicate.within links), js)) ∧
      (FilterKey.isBlank rest = true → ∀ before link, links = before ++ [link] →
        ∀ c root settings v js,
          ((v = .bool true ∨ v = .string "true") → (f.apply c root settings v).run.run js =
            (.ok (Predicate.within before (some (.related link))), js)) ∧
          (¬(v = .bool true ∨ v = .string "true") → (f.apply c root settings v).run.run js =
            (.ok (Predicate.within before (some (.unrelated link))), js))) := by
  have hdivided : FilterKey.Divided (FilterKey.parse text) := FilterKey.divided_parse text
  have hdirect : r.catalog.filter d.name (FilterKey.parse text) = .ok (some f) :=
    (answers_filter hs.named hdivided r rfl hs).1.symm.trans hf
  -- a part of the key is divided, too, so that its filter is what the catalog says
  have hpart : ∀ {aliases rest : FilterKey}, FilterKey.parse text = aliases ++ rest →
      ∀ name, r.result (filter name rest) = r.catalog.filter name rest := by
    intro aliases rest hkey name
    have hrest : FilterKey.Divided rest := fun part hpart =>
      hdivided part (hkey ▸ List.mem_append_right aliases hpart)
    exact (answers_filter hs.named hrest r rfl hs).1
  refine ⟨?_, fun aliases links last rest hkey hne hchain => ?_⟩
  · obtain ⟨aliases, links, last, rest, hkey, hchain, hrelation, hend⟩ :=
      Catalog.exists_chain_of_filter hs.named hd hdirect
    refine ⟨aliases, links, last, rest, hkey, hchain, hrelation, hend.imp_right ?_⟩
    rintro ⟨leaf, hleaf, hplain⟩
    exact ⟨leaf, (hpart hkey _).trans hleaf, hplain⟩
  · rw [hkey] at hdirect
    have hrun := CompiledFilter.run_apply_of_isRelation (f := f) (by
      cases hchain with
      | here => exact absurd rfl hne
      | step ha hrest => exact Catalog.isRelation_of_passes hd ha hdirect)
    refine ⟨fun hrest => ?_, fun hrest before link hlinks => ?_⟩
    · obtain ⟨leaf, hleaf, happly⟩ :=
        Catalog.exists_leaf_of_filter hs.named hd hchain hrest hdirect
      refine ⟨leaf, (hpart hkey _).trans hleaf, fun c root settings v js => ?_⟩
      rw [hrun, happly]
    · -- the last relation is the filter behind the others
      subst hlinks
      obtain ⟨front, a, parent, rfl, hfront, ha⟩ := hchain.exists_last
      rw [List.append_assoc, List.singleton_append] at hdirect
      have hblank : FilterKey.isBlank (a :: rest) = false := by
        cases rest with
        | nil => simpa [FilterKey.isBlank] using ha.ne_empty
        | cons b rest => rfl
      obtain ⟨leaf, hleaf, happly⟩ :=
        Catalog.exists_leaf_of_filter hs.named hd hfront hblank hdirect
      have hparent : r.catalog.find? parent.name = some parent := hfront.find? hs.named hd
      rw [Catalog.filter_of_passes_isBlank hparent ha hrest] at hleaf
      cases hleaf
      intro c root settings v js
      refine ⟨fun hasks => ?_, fun hasks => ?_⟩
      · rw [hrun, happly, CompiledFilter.applyAlone, CompiledFilter.existence_of_asks hasks]
        rfl
      · rw [hrun, happly, CompiledFilter.applyAlone, CompiledFilter.existence_of_not_asks hasks]
        rfl

/-- A hook that asks for a join before it compares the column. -/
def askingHook : FilterHook := fun scope v =>
  .ask "maker" fun joined => .done (joined.map fun _ => some (.compare scope.column .eq v))

/-- Products with a hook for their titles. -/
def askingProduct : Definition where
  toEntity := Entity.product
  hooks := { Hooks.none with filters := Dict.ofList [("title", askingHook)] }

/-- A registry that knows categories, and products whose hook asks for joins. -/
def ofAskingProducts : Registry :=
  after [.register Entity.category.define, .register askingProduct]

/-- The titles of the products of a category's parent, and whether there are any products. -/
theorem apply_within_of_askingProducts :
    let parent : Link := ⟨"parent", "categories", "categories.parent_id", "categories.id", none⟩
    let products : Link := ⟨"products", "products", "categories.id", "products.category_id", none⟩
    (∃ f, ofAskingProducts.result (filter "Category" (FilterKey.parse "parent$products$title")) =
        .ok (some f) ∧
      ∀ c root settings v js, (f.apply c root settings v).run.run js =
        (.ok (some (.relatedWhere parent
          (.relatedWhere products (.compare "products.title" .eq v)))), js)) ∧
    ∃ f, ofAskingProducts.result (filter "Category" (FilterKey.parse "parent$products")) =
        .ok (some f) ∧
      ∀ c root settings js,
        (f.apply c root settings (.string "true")).run.run js =
          (.ok (some (.relatedWhere parent (.related products))), js) ∧
        (f.apply c root settings (.string "1")).run.run js =
          (.ok (some (.relatedWhere parent (.unrelated products))), js) := by
  intro parent products
  let category : Definition := Entity.category.define
  have hs : ofAskingProducts.Sound := (sound_after _).1
  have hd : ofAskingProducts.catalog.find? category.name = some category := by rfl
  have hparent : ofAskingProducts.catalog.Passes category "parent" parent category :=
    ⟨_, ⟨"parent", some "relation", "parent", some "Category"⟩,
      .plain .owning "parent" "Category" "parent_id" "", rfl, rfl, by decide, rfl, rfl, by decide⟩
  have hproducts : ofAskingProducts.catalog.Passes category "products" products askingProduct :=
    ⟨_, ⟨"products", some "relation", "products", some "Product"⟩,
      .plain .owned "products" "Product" "category_id" "", rfl, rfl, by decide, rfl, rfl, by decide⟩
  have hchain : ofAskingProducts.catalog.Chain category ["parent", "products"]
      [parent, products] askingProduct := .step hparent (.step hproducts .here)
  refine ⟨?_, ?_⟩
  · let titles : CompiledFilter := .hook "Product" "title" "filter title"
      ⟨"Product", "products", "title", "products.title"⟩ askingHook
    let f : CompiledFilter := .relatedWhere "Category" "parent$products$title" parent
      (.relatedWhere "Category" "products$title" products titles)
    have hkey : FilterKey.parse "parent$products$title" = ["parent", "products", "title"] := by
      decide
    have hf : ofAskingProducts.result (filter "Category" (FilterKey.parse "parent$products$title"))
        = .ok (some f) := by
      rw [hkey]
      rfl
    obtain ⟨leaf, hleaf, happly⟩ := ((apply_within_of_filter hs hd hf).2 ["parent", "products"] _ _
      ["title"] hkey (by decide) hchain).1 (by decide)
    have htitles : ofAskingProducts.result (filter askingProduct.name ["title"]) =
        .ok (some titles) := by rfl
    rw [htitles] at hleaf
    cases hleaf
    exact ⟨f, hf, happly⟩
  · let f : CompiledFilter := .relatedWhere "Category" "parent$products" parent
      (.related "Category" "products" products)
    have hkey : FilterKey.parse "parent$products" = ["parent", "products"] := by decide
    have hf : ofAskingProducts.result (filter "Category" (FilterKey.parse "parent$products")) =
        .ok (some f) := by
      rw [hkey]
      rfl
    have happly := ((apply_within_of_filter hs hd hf).2 ["parent", "products"] _ _ [] hkey
      (by decide) hchain).2 (by decide) [parent] products rfl
    refine ⟨f, hf, fun c root settings js => ⟨?_, ?_⟩⟩
    · exact (happly c root settings (.string "true") js).1 (.inr rfl)
    · exact (happly c root settings (.string "1") js).2 (by simp)

end Registry
end RequestPlan
