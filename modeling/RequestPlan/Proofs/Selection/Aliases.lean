import RequestPlan.Proofs.Registry.Caches
import RequestPlan.Selection.Tree

/-!
# What aliases stand for in selections

* `Entity.selectKey?`: the key of an alias that may be selected.
* `Catalog.Relates`: an alias of a relation leads to the related entity.
* `Catalog.Declares`: a path of aliases leads from entity to entity, and ends with a column.
* `Catalog.Leads`: from a level of a selection to one below it, by the names of relations.
* `Registry.ofPosts`: posts, users and notes, related in a circle, to see all this at.
-/

namespace RequestPlan

namespace Entity

/-- The key of an alias that may be selected. -/
def selectKey? (e : Entity) (a : String) : Option String :=
  match Table.of e .selectable with
  | .ok t => (t.find? a).map Entry.key
  | .error _ => none

/-- An alias that may be selected stands for a column. -/
def SelectsColumn (e : Entity) (a : String) : Prop :=
  ∃ key, e.selectKey? a = some key ∧ e.relation? key = none

variable {e : Entity} {a key : String} {t : Table}

theorem selectKey?_of_table (h : Table.of e .selectable = .ok t) :
    e.selectKey? a = (t.find? a).map Entry.key := by
  rw [selectKey?, h]

/-- An entry has its alias, and the related entity when its key is a relation. -/
theorem entry_of_find? {k : Kind} {entry : Entry} (h : Table.of e k = .ok t)
    (hfind : t.find? a = some entry) :
    entry.aliasName = a ∧ entry.isRelation = (e.relation? entry.key).isSome := by
  obtain ⟨d, -, -, rfl, rfl⟩ := Table.exists_declaration h hfind
  exact ⟨rfl, Option.isSome_map⟩

/-- The columns that may be selected are the entries that are no relations. -/
theorem selectsColumn_iff (h : Table.of e .selectable = .ok t) :
    e.SelectsColumn a ↔
      ∃ entry ∈ t.entries.values, entry.aliasName = a ∧ entry.isRelation = false := by
  unfold SelectsColumn
  rw [selectKey?_of_table h]
  constructor
  · rintro ⟨key, hkey, hcolumn⟩
    obtain ⟨entry, hfind, rfl⟩ := Option.map_eq_some_iff.1 hkey
    obtain ⟨hname, hrelation⟩ := entry_of_find? h hfind
    rw [hcolumn] at hrelation
    have hmem : (a, entry) ∈ t.entries.entries := Dict.find?_eq_some_iff.1 hfind
    exact ⟨entry, List.mem_map.2 ⟨(a, entry), hmem, rfl⟩, hname, hrelation⟩
  · rintro ⟨entry, hentry, rfl, hrelation⟩
    obtain ⟨⟨k, entry⟩, hmem, rfl⟩ := List.mem_map.1 hentry
    have hfind : t.find? k = some entry := Dict.find?_eq_some_iff.2 hmem
    obtain ⟨hname, hisSome⟩ := entry_of_find? h hfind
    dsimp only at hrelation ⊢
    rw [hname, hfind]
    rw [hrelation] at hisSome
    exact ⟨entry.key, rfl, Option.isNone_iff_eq_none.1 (Option.isSome_eq_false_iff.1 hisSome.symm)⟩

theorem SelectsColumn.relation?_eq_none (h : e.SelectsColumn a) (hkey : e.selectKey? a = some key) :
    e.relation? key = none := by
  obtain ⟨key', hkey', hcolumn⟩ := h
  rw [hkey] at hkey'
  cases hkey'
  exact hcolumn

/-- An alias that may be selected is not the sign for all columns, and has no dot. -/
theorem plain_of_selectKey? (h : e.selectKey? a = some key) : a ≠ "*" ∧ '.' ∉ a.toList := by
  unfold selectKey? at h
  split at h
  · rename_i t ht
    obtain ⟨entry, hfind, -⟩ := Option.map_eq_some_iff.1 h
    obtain ⟨-, hstar, hreserved⟩ := Table.aliasName_of_find? ht hfind
    exact ⟨hstar, fun hdot => Bool.noConfusion (hreserved '.' hdot)⟩
  · cases h

end Entity

namespace Catalog

variable {c : Catalog} {d related d' : Definition} {a : String} {r : Relation} {s s' : Selection}
  {names path : List String}

/-- An alias of a relation that may be selected leads to the related entity. -/
def Relates (c : Catalog) (d : Definition) (a : String) (r : Relation) (related : Definition) :
    Prop :=
  (∃ key, d.selectKey? a = some key ∧ d.relation? key = some r) ∧ c.find? r.related = some related

/-- A path of aliases that may be selected leads along relations, and ends with a column. -/
def Declares (c : Catalog) (d : Definition) : List String → Prop
  | [] => False
  | [a] => d.SelectsColumn a
  | a :: b :: rest => ∃ r related, c.Relates d a r related ∧ c.Declares related (b :: rest)

/-- Below the level of an entity in a selection there is one of another entity, behind aliases
of relations with these names. -/
inductive Leads (c : Catalog) :
    Definition → Selection → List String → Definition → Selection → Prop
  | here {d : Definition} {s : Selection} : Leads c d s [] d s
  | step {d related d' : Definition} {s s' : Selection} {e : String × Selection} {r : Relation}
      {names : List String} (he : e ∈ s.relations) (hr : c.Relates d e.1 r related)
      (hbelow : Leads c related e.2 names d' s') : Leads c d s (r.name :: names) d' s'

/-- An alias stands for one relation only. -/
theorem Relates.unique {r' : Relation} {related' : Definition} (h : c.Relates d a r related)
    (h' : c.Relates d a r' related') : r' = r ∧ related' = related := by
  obtain ⟨⟨key, hkey, hr⟩, hfind⟩ := h
  obtain ⟨⟨key', hkey', hr'⟩, hfind'⟩ := h'
  rw [hkey] at hkey'
  cases hkey'
  rw [hr] at hr'
  cases hr'
  rw [hfind] at hfind'
  cases hfind'
  exact ⟨rfl, rfl⟩

/-- The aliases along a declared path have no dot. -/
theorem Declares.dot_not_mem (h : c.Declares d path) : ∀ a ∈ path, '.' ∉ a.toList := by
  induction path generalizing d with
  | nil => exact h.elim
  | cons a path ih =>
    cases path with
    | nil =>
      obtain ⟨key, hkey, -⟩ := h
      exact List.forall_mem_singleton.2 (Entity.plain_of_selectKey? hkey).2
    | cons b path =>
      obtain ⟨r, related, ⟨⟨key, hkey, -⟩, -⟩, hbelow⟩ := h
      exact List.forall_mem_cons.2 ⟨(Entity.plain_of_selectKey? hkey).2, ih hbelow⟩

end Catalog

/-! ## Posts, users and notes -/

/-- Posts, with two aliases for their author, and with notes on them. -/
def Entity.post : Entity where
  name := "Post"
  table := "posts"
  key := "id"
  relations := Dict.ofList [("author", .plain .owning "author" "User" "author_id" ""),
    ("notes", .morph .morphOwned "notes" "Note" "subject_id" "subject_type" "")]
  queryable := none
  filterable := none
  sortable := none
  selectable := some [.bare "title", .bare "author", .typed "writer" none "author", .bare "notes"]

/-- Users, with their posts. -/
def Entity.user : Entity where
  name := "User"
  table := "users"
  key := "id"
  relations := Dict.ofList [("posts", .plain .owned "posts" "Post" "author_id" "")]
  queryable := none
  filterable := none
  sortable := none
  selectable := some [.bare "name", .typed "mail" none "contact", .bare "posts"]

/-- Notes, with what they are on. -/
def Entity.note : Entity where
  name := "Note"
  table := "notes"
  key := "id"
  relations := Dict.ofList
    [("subject", .morph .morphOwning "subject" "Post" "subject_id" "subject_type" "")]
  queryable := none
  filterable := none
  sortable := none
  selectable := some [.bare "text", .bare "subject"]

/-- A registry that knows posts, users and notes. -/
def Registry.ofPosts : Registry :=
  after [.register Entity.post.define, .register Entity.user.define, .register Entity.note.define]

theorem Registry.sound_ofPosts : ofPosts.Sound := (sound_after _).1

end RequestPlan
