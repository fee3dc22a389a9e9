import RequestPlan.Proofs.Filter.Chains

/-!
# Filters by aliases of relations

* `Mode.parse_eq_relation_iff`: the modes that name a relation.
* `Registry.compile_of_relation`: **an alias whose key is a relation filters through the relation
  exactly when its mode names a relation**. In another mode it filters by a column, whatever stands
  behind it.
-/

namespace RequestPlan

/-! ## Modes that name a relation -/

namespace Mode

theorem ofKey?_eq_relation_iff {key : String} :
    ofKey? key = some .relation ↔ key = "relation" ∨ key = "rel" := by
  unfold ofKey?
  split <;> simp_all

/-- **A mode names a relation** by one of two words, whatever its case and its dashes. -/
theorem parse_eq_relation_iff {mode : Option String} :
    parse mode = .relation ↔
      ∃ name, mode = some name ∧ (modeKey name = "relation" ∨ modeKey name = "rel") := by
  cases mode with
  | none => exact iff_of_false nofun nofun
  | some name =>
    have hparse : parse (some name) = .relation ↔ ofKey? (modeKey name) = some .relation := by
      rw [parse]
      cases ofKey? (modeKey name) with
      | none => exact iff_of_false nofun nofun
      | some mode => simp
    rw [hparse, ofKey?_eq_relation_iff]
    simp

end Mode

/-! ## Aliases of relations -/

theorem CompiledFilter.isRelation_withKey (key : String) (f : CompiledFilter) :
    (f.withKey key).isRelation = f.isRelation := by
  cases f <;> rfl

namespace Catalog

variable {c : Catalog} {d related : Definition} {rel : Relation} {name : String}

theorem filterLink_of_pairs (hrel : d.relation? name = some rel) (hkind : rel.kind = .manyToMany) :
    c.filterLink d name = .error (.unsupportedRelation d.name rel.name .filter) := by
  rw [filterLink, hrel]
  exact if_pos hkind

theorem filterLink_of_unknown (hrel : d.relation? name = some rel) (hkind : rel.kind ≠ .manyToMany)
    (hrelated : c.find? rel.related = none) :
    c.filterLink d name = .error (.unknownEntity rel.related) := by
  rw [filterLink, hrel]
  dsimp only
  rw [if_neg hkind, get_eq_error_iff.2 ⟨hrelated, rfl⟩]
  rfl

/-- A relation to a registered entity has a link, and is followed along it. -/
theorem exists_link_of_filterLink (hrel : d.relation? name = some rel)
    (hkind : rel.kind ≠ .manyToMany) (hrelated : c.find? rel.related = some related) :
    ∃ link, rel.link? d.toEntity related.toEntity = some link ∧
      c.filterLink d name = .ok (link, related) := by
  obtain ⟨link, hfilterLink⟩ := filterLink_of_relation hrel hkind (get_eq_ok_iff.2 hrelated)
  obtain ⟨rel', hrel', -, hlink⟩ := filterLink_eq_ok_iff.1 hfilterLink
  rw [hrel] at hrel'
  cases hrel'
  exact ⟨link, hlink, hfilterLink⟩

/-- The mode of its first alias says whether a filter goes through a relation. -/
theorem isRelation_of_filter {entity aliasName key : String} {rest : FilterKey} {entry : Entry}
    {f : CompiledFilter} (hentry : c.entry? entity aliasName = .ok (some (d, entry)))
    (h : c.filter entity (aliasName :: rest) = .ok (some f)) :
    (f.withKey key).isRelation = true ↔ Mode.parse entry.mode = .relation := by
  rw [filter, hentry] at h
  dsimp only at h
  split at h
  · rename_i hmode
    refine iff_of_true ?_ hmode
    split at h
    · cases h
    · split at h
      · cases h
        rfl
      · obtain ⟨child?, -, hchild⟩ := Outcome.map_eq_ok.1 h
        obtain ⟨child, -, rfl⟩ := Option.map_eq_some_iff.1 hchild
        rfl
  · rename_i hmode
    cases h
    refine iff_of_false ?_ hmode
    rw [CompiledFilter.isRelation_withKey, CompiledFilter.isRelation_columnFilter]
    exact Bool.false_ne_true

end Catalog

namespace Registry

variable {r : Registry} {d : Definition} {t : Table} {entry : Entry} {rel : Relation}
  {entity a key : String} {rest : FilterKey}

/-- A filter that is made anew is the one of the catalog, under the key as it was given. -/
theorem result_compile (hs : r.Sound) (hkey : FilterKey.parse key = a :: rest) :
    r.result (compile entity (FilterKey.parse key)) =
      (r.catalog.filter entity (a :: rest)).map fun f? => f?.map (·.withKey key) := by
  have hanswers : Answers r.catalog (compile entity (FilterKey.parse key))
      (r.catalog.compile entity (FilterKey.parse key)) :=
    answers_compile hs.named (FilterKey.divided_parse key)
  rw [(hanswers r rfl hs).1, Catalog.compile, FilterKey.text_parse, hkey]

/-- **An alias whose key is a relation filters through the relation exactly when its mode names a
relation**, for an entity without hooks. Then the filter tests whether there are related rows, or
asks what is behind the alias of them, when this is a filter of the related entity; a table of pairs
and an entity that is not registered are errors. In every other mode, and without one, the filter
compares a column with the name of the relation, and what is behind the alias is left out. -/
theorem compile_of_relation (hs : r.Sound) (hd : r.catalog.find? d.name = some d)
    (hhooks : d.hooks = .none) (ht : Table.of d.toEntity .filterable = .ok t)
    (hentry : t.find? a = some entry) (hrel : d.relation? entry.key = some rel)
    (hkey : FilterKey.parse key = a :: rest) :
    let compiled := r.result (compile d.name (FilterKey.parse key))
    (Mode.parse entry.mode ≠ .relation → compiled =
      .ok (some (.column d.name key (Mode.parse entry.mode) (d.column entry.key)))) ∧
    (Mode.parse entry.mode = .relation →
      (rel.kind = .manyToMany → compiled = .error (.unsupportedRelation d.name rel.name .filter)) ∧
      (rel.kind ≠ .manyToMany → r.catalog.find? rel.related = none →
        compiled = .error (.unknownEntity rel.related)) ∧
      ∀ related, rel.kind ≠ .manyToMany → r.catalog.find? rel.related = some related →
        ∃ link, rel.link? d.toEntity related.toEntity = some link ∧
          (FilterKey.isBlank rest = true → compiled = .ok (some (.related d.name key link))) ∧
          (FilterKey.isBlank rest = false → compiled =
            (r.result (filter related.name rest)).map fun child? =>
              child?.map (CompiledFilter.relatedWhere d.name key link))) ∧
    ∀ f, compiled = .ok (some f) → (f.isRelation = true ↔
      ∃ name, entry.mode = some name ∧ (modeKey name = "relation" ∨ modeKey name = "rel")) := by
  intro compiled
  have hcompiled : compiled = (r.catalog.filter d.name (a :: rest)).map fun f? =>
      f?.map (·.withKey key) := result_compile hs hkey
  have hentry? : r.catalog.entry? d.name a = .ok (some (d, entry)) :=
    Catalog.entry?_eq_ok_of_find? hd ht hentry
  have hrest : FilterKey.Divided rest :=
    FilterKey.Divided.tail (a := a) (hkey ▸ FilterKey.divided_parse key)
  refine ⟨fun hmode => ?_, fun hmode => ⟨fun hkind => ?_, fun hkind hnone => ?_,
    fun related hkind hrelated => ?_⟩, fun f hf => ?_⟩
  · rw [hcompiled, Catalog.filter_of_column rest hentry? hmode, Catalog.columnFilter_eq hhooks]
    rfl
  · rw [hcompiled, Catalog.filter_of_broken rest hentry? hmode
      (Catalog.filterLink_of_pairs hrel hkind)]
    rfl
  · rw [hcompiled, Catalog.filter_of_broken rest hentry? hmode
      (Catalog.filterLink_of_unknown hrel hkind hnone)]
    rfl
  · obtain ⟨link, hlink, hfilterLink⟩ :=
      Catalog.exists_link_of_filterLink hrel hkind hrelated
    refine ⟨link, hlink, fun hblank => ?_, fun hblank => ?_⟩
    · rw [hcompiled, Catalog.filter_of_related hentry? hmode hfilterLink hblank]
      rfl
    · rw [hcompiled, Catalog.filter_of_followed hentry? hmode hfilterLink hblank,
        (answers_filter hs.named hrest r rfl hs).1]
      cases r.catalog.filter related.name rest with
      | error err => rfl
      | ok child? => cases child? <;> rfl
  · rw [← Mode.parse_eq_relation_iff]
    obtain ⟨f?, hfilter, hf⟩ := Outcome.map_eq_ok.1 (hcompiled.symm.trans hf)
    obtain ⟨f', rfl, rfl⟩ := Option.map_eq_some_iff.1 hf
    exact Catalog.isRelation_of_filter hentry? hfilter

end Registry

/-! ## Replies -/

/-- Replies, whose author is declared without a mode, and once more with the mode for relations. -/
def Entity.reply : Entity where
  name := "Reply"
  table := "replies"
  key := "id"
  relations := Dict.ofList [("author", .plain .owning "author" "Member" "author_id" "")]
  queryable := some [.bare "text", .bare "author"]
  filterable := some [.typed "writer" (some "rel") "author"]
  sortable := none
  selectable := none

/-- Members, who write replies. -/
def Entity.member : Entity where
  name := "Member"
  table := "members"
  key := "id"
  relations := ∅
  queryable := none
  filterable := some [.bare "name"]
  sortable := none
  selectable := none

namespace Registry

/-- A registry that knows replies and the members who write them. -/
def ofReplies : Registry := after [.register Entity.reply.define, .register Entity.member.define]

/-- Two aliases have the author of a reply for their key, and one of them names a relation. -/
theorem compile_of_replies :
    let author : Link := ⟨"author", "members", "replies.author_id", "members.id", none⟩
    let name : CompiledFilter := .column "Member" "name" .default "members.name"
    ofReplies.result (compile "Reply" (FilterKey.parse "author")) =
        .ok (some (.column "Reply" "author" .default "replies.author")) ∧
      ofReplies.result (compile "Reply" (FilterKey.parse "author$name")) =
        .ok (some (.column "Reply" "author$name" .default "replies.author")) ∧
      ofReplies.result (compile "Reply" (FilterKey.parse "writer")) =
        .ok (some (.related "Reply" "writer" author)) ∧
      ofReplies.result (compile "Reply" (FilterKey.parse "writer$name")) =
        .ok (some (.relatedWhere "Reply" "writer$name" author name)) := by
  intro author name
  have hs : ofReplies.Sound := (sound_after _).1
  have hd : ofReplies.catalog.find? "Reply" = some Entity.reply.define := by rfl
  have hmember : ofReplies.catalog.find? "Member" = some Entity.member.define := by rfl
  have hrel : Entity.reply.define.relation? "author" =
    some (.plain .owning "author" "Member" "author_id" "") := by rfl
  obtain ⟨t, ht, hauthor, hwriter⟩ : ∃ t, Table.of Entity.reply .filterable = .ok t ∧
      t.find? "author" = some ⟨"author", none, "author", some "Member"⟩ ∧
      t.find? "writer" = some ⟨"writer", some "rel", "author", some "Member"⟩ :=
    ⟨_, by rfl, by rfl, by rfl⟩
  have hcolumn (key : String) (rest : FilterKey) (hkey : FilterKey.parse key = "author" :: rest) :=
    (compile_of_relation hs hd rfl ht hauthor hrel hkey).1 (by decide)
  have hfollowed (key : String) (rest : FilterKey)
      (hkey : FilterKey.parse key = "writer" :: rest) :=
    ((compile_of_relation hs hd rfl ht hwriter hrel hkey).2.1 (by decide)).2.2 _ (by decide) hmember
  refine ⟨hcolumn "author" [] (by decide), hcolumn "author$name" ["name"] (by decide), ?_, ?_⟩
  · obtain ⟨link, hlink, hrelated, -⟩ := hfollowed "writer" [] (by decide)
    cases hlink
    exact hrelated (by decide)
  · obtain ⟨link, hlink, -, hrelated⟩ := hfollowed "writer$name" ["name"] (by decide)
    cases hlink
    exact hrelated (by decide)

/-- The author of a reply is a relation, and is compared as a column of this name. -/
theorem compared_of_replies :
    (∃ t entry, Table.of Entity.reply .filterable = .ok t ∧ t.find? "author" = some entry ∧
      entry.isRelation = true) ∧
    ∃ f, ofReplies.result (compile "Reply" (FilterKey.parse "author")) = .ok (some f) ∧
      f.isRelation = false ∧
      f.applyAlone .usual (.bool true) =
        .ok (some (.compare "replies.author" .eq (.bool true))) :=
  ⟨⟨_, _, by rfl, by rfl, by rfl⟩, _, by rfl, by rfl, by rfl⟩

end Registry
end RequestPlan
