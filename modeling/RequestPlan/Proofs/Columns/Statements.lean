import RequestPlan.Proofs.Columns.Plans
import RequestPlan.Proofs.Sql.Levels

/-!
# Columns of statements that load relations

* `Sql.Level.Refers`: what the statement of a level refers to belongs to the table that it reads,
  and its morph column to some table.
* `Sql.Statement.Loads`: a statement loads a relation of an entity, and what it refers to belongs to
  its own table, but for the morph column of a polymorphic owning relation.
* `loads_of_build`: **so does every statement of a plan behind the root's**, whatever the relation's
  kind and however deep it is.
-/

namespace RequestPlan

/-- The statement of a level refers to columns and a key of the table that it reads, and to a morph
column, if to any, of a table. -/
structure Sql.Level.Refers (morphTable : String) (e : Sql.Level) : Prop where
  columns : ∀ col ∈ e.projection.columns, Qualified e.link.table col.body
  key : Qualified e.link.table e.link.relatedColumn
  morph : ∀ m, e.link.morph = some m → Qualified morphTable m.column

/-- A statement loads a relation of an entity. Its select list and its key condition are over the
table that it reads. So is its condition on a morph column, unless the relation is a polymorphic
owning one: then the column is one of the parent's table, which the statement does not read. -/
def Sql.Statement.Loads (c : Catalog) (st : Sql.Statement) : Prop :=
  ∃ (e : Sql.Level) (parent related : Definition) (rel : Relation),
    st = e.statement ∧ c.find? parent.name = some parent ∧
    parent.relation? e.link.name = some rel ∧ c.find? rel.related = some related ∧
    rel.link? parent.toEntity related.toEntity = some e.link ∧
    e.Refers (if rel.kind = .morphOwning then parent.table else e.link.table)

namespace Projection

variable {c : Catalog} {d : Definition} {p : Projection} {path : String} {e : Sql.Level}

/-- **The levels of a projection are relations of entities.** -/
theorem Of.exists_relation_of_mem_levels (h : Of c d p) (hd : ∃ name, c.find? name = some d)
    (he : e ∈ Sql.levels path p) : ∃ parent name,
      (∃ key, c.find? key = some parent) ∧ OfRelation c parent (name, e.link, e.projection) := by
  induction p using Projection.induct generalizing path d with
  | level columns relations ih =>
    obtain ⟨-, hrelations⟩ := of_iff.1 h
    obtain ⟨r, hr, rfl | he⟩ := Sql.mem_levels.1 he
    · exact ⟨d, r.1, hd, hrelations r hr⟩
    · obtain ⟨rel, related, -, hfind, -, -, hchild⟩ := hrelations r hr
      exact ih r hr hchild ⟨_, hfind⟩ he

end Projection

namespace Planner

variable {r : Registry} {d : Definition} {settings : Settings} {calls : List Call} {plan : Plan}

/-- **The statement of a relation is about its own table**, for every kind of relation and at every
depth, but for the morph column of a polymorphic owning relation. -/
theorem loads_of_build (hs : r.Sound) (hc : r.catalog.Plain) (hkeyed : r.catalog.KeyedByName)
    (hd : r.catalog.find? d.name = some d)
    (h : (after (r, start d settings) calls).1.result
      (build (after (r, start d settings) calls).2) = .ok plan) :
    ∀ st ∈ (Sql.statements plan).tail, st.Loads r.catalog := by
  obtain ⟨projection, rfl, hprojection⟩ := exists_of_build hs hc hd h
  cases projection with
  | none => exact fun st hst => absurd hst List.not_mem_nil
  | some p =>
    rw [Sql.statements_eq rfl]
    intro st hst
    obtain ⟨e, he, rfl⟩ := List.mem_map.1 hst
    obtain ⟨parent, name, ⟨key, hparent⟩, rel, related, hrel, hrelated, hlink, -, hchild⟩ :=
      (hprojection hkeyed p rfl).exists_relation_of_mem_levels ⟨_, hd⟩ he
    have hundotted : parent.toEntity.Undotted := hc.undotted key parent hparent
    have hover : e.link.Over parent.table :=
      Relation.over_of_link? hundotted (hc.undotted _ _ hrelated) hrel hlink
    have hname : parent.relation? e.link.name = some rel := by
      rw [Relation.name_of_link? hlink, hkeyed key parent hparent name rel hrel, hrel]
    have hregistered : r.catalog.find? parent.name = some parent := by
      rw [hs.named key parent hparent, hparent]
    refine ⟨e, parent, related, rel, rfl, hregistered, hname, hrelated, hlink, ?_,
      hover.relatedColumn, fun m hm => Relation.qualified_morph hundotted hrel hlink hm⟩
    rw [Relation.table_of_link? hlink]
    exact (Projection.of_iff.1 hchild).1

end Planner

/-! ## Notes on posts -/

theorem Registry.entries_ofPosts : ofPosts.catalog.entries = [("Note", Entity.note.define),
    ("Post", Entity.post.define), ("User", Entity.user.define)] := by rfl

theorem Registry.plain_ofPosts : ofPosts.catalog.Plain := by
  refine Catalog.plain_of_entries ?_
  rw [entries_ofPosts]
  simp only [List.forall_mem_cons, List.not_mem_nil, false_implies, implies_true, and_true]
  exact ⟨⟨rfl, by decide⟩, ⟨rfl, by decide⟩, rfl, by decide⟩

theorem Registry.keyedByName_ofPosts : ofPosts.catalog.KeyedByName := by
  refine Catalog.keyedByName_of_entries ?_
  rw [entries_ofPosts]
  decide

namespace Planner

/-- Users with their posts and the notes on these: the morph column is one of the notes. -/
theorem loads_of_users :
    let s := after (Registry.ofPosts, start Entity.user.define .usual)
      [.select ["name", "posts.notes.text"]]
    ∃ plan, s.1.result (build s.2) = .ok plan ∧
      (Sql.statements plan).tail.map Sql.Statement.sql =
        ["SELECT posts.id, posts.author_id FROM posts WHERE posts.author_id = ANY($1)",
          "SELECT notes.text AS text, notes.subject_id, notes.subject_type FROM notes " ++
            "WHERE notes.subject_id = ANY($1) AND notes.subject_type = $2"] ∧
      ∀ st ∈ (Sql.statements plan).tail, st.Loads Registry.ofPosts.catalog := by
  intro s
  have hd : Registry.ofPosts.catalog.find? "User" = some Entity.user.define := by rfl
  have hsql : (s.1.result (build s.2)).toOption.map
      (fun plan => (Sql.statements plan).tail.map Sql.Statement.sql) =
        some ["SELECT posts.id, posts.author_id FROM posts WHERE posts.author_id = ANY($1)",
          "SELECT notes.text AS text, notes.subject_id, notes.subject_type FROM notes " ++
            "WHERE notes.subject_id = ANY($1) AND notes.subject_type = $2"] := by
    decide +kernel
  obtain ⟨plan, hbuild, hsql⟩ := Outcome.exists_of_toOption hsql
  exact ⟨plan, hbuild, hsql, loads_of_build Registry.sound_ofPosts Registry.plain_ofPosts
    Registry.keyedByName_ofPosts hd hbuild⟩

/-- Notes with what they are on: the posts are read by a statement that asks for a column of the
notes. -/
theorem foreignColumn_of_notes :
    let s := after (Registry.ofPosts, start Entity.note.define .usual) [.select ["subject.title"]]
    ∃ plan p, s.1.result (build s.2) = .ok plan ∧ plan.projection = some p ∧
      (Sql.statements plan).tail.map Sql.Statement.sql =
        ["SELECT posts.title AS title, posts.id FROM posts " ++
          "WHERE posts.id = ANY($1) AND notes.subject_type = $2"] ∧
      ∃ e ∈ Sql.levels "" p, ¬ e.Refers e.link.table := by
  intro s
  let link : Link := ⟨"subject", "posts", "notes.subject_id", "posts.id",
    some ⟨"notes.subject_type", "Post"⟩⟩
  have hplan : (s.1.result (build s.2)).toOption.map (fun plan =>
      (plan.projection.map fun p => (Sql.levels "" p).map fun e => e.link,
        (Sql.statements plan).tail.map Sql.Statement.sql)) =
      some (some [link], ["SELECT posts.title AS title, posts.id FROM posts " ++
        "WHERE posts.id = ANY($1) AND notes.subject_type = $2"]) := by
    decide +kernel
  obtain ⟨plan, hbuild, hparts⟩ := Outcome.exists_of_toOption hplan
  obtain ⟨hlinks, hsql⟩ := Prod.mk.inj hparts
  obtain ⟨p, hp, hlinks⟩ := Option.map_eq_some_iff.1 hlinks
  obtain ⟨e, he, hlink⟩ : ∃ e ∈ Sql.levels "" p, e.link = link := by
    rw [← List.mem_map, hlinks]
    exact List.mem_cons_self
  refine ⟨plan, p, hbuild, hp, hsql, e, he, fun hrefers => ?_⟩
  -- the column would have to start with the name of the posts' table
  obtain ⟨name, -, hcolumn⟩ := hrefers.morph ⟨"notes.subject_type", "Post"⟩ (by rw [hlink])
  rw [hlink] at hcolumn
  have hchars := congrArg String.toList hcolumn
  simp [link] at hchars

end Planner
end RequestPlan
