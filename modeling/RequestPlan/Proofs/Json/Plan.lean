import RequestPlan.Proofs.Dict
import RequestPlan.Proofs.Json.Predicates

/-!
# Plans that are read back

* `Projection.Ordered`: relations come in the order of their names, each once.
* `Projection.readsAs`: **relations are read back in their order**, whatever the order they are
  written in.
* `Plan.ofJson?_toJson`: **a plan that is written is read back.**
-/

namespace RequestPlan

open Json (ReadsAs FieldReadsAs Reordered needed membersOf)

/-! ## Columns -/

/-- A column is read from the fields of its kind. -/
theorem Column.readsAs_fields (kind name body : String) (aliasName : Option String)
    (hfields : ofJson?.fieldsOf kind = some [needed name, Json.optional "alias"])
    (hnodup : ["kind", name, "alias"].Nodup) :
    ReadsAs ofJson?
      (.object (membersOf [needed "kind", needed name, Json.optional "alias"]
        [some (.string kind), some (.string body), aliasName.map .string]))
      (if kind = "column" then .stored body aliasName else .computed body aliasName) := by
  intro j hj
  obtain ⟨os, hos, hrel⟩ := Json.exists_variant ofJson?.fieldsOf _ _ hfields hj
    (by cases aliasName <;> rfl) hnodup (by simp [Json.needed, Json.optional])
  obtain _ | ⟨hbody, _ | ⟨halias, ⟨⟩⟩⟩ := hrel
  have hbody := FieldReadsAs.given (Json.readsAs_text body) _ hbody
  have halias := FieldReadsAs.option (fun a _ => Json.readsAs_text a) (fun _ => rfl) _ halias
  simp only [ofJson?, hos, hbody, halias, Option.bind_eq_bind, Option.bind_some]
  rfl

theorem Column.readsAs (c : Column) : ReadsAs Column.ofJson? c.toJson c := by
  cases c with
  | stored body aliasName =>
    exact readsAs_fields "column" "column" body aliasName rfl (by decide)
  | computed body aliasName =>
    exact readsAs_fields "expression" "expr" body aliasName rfl (by decide)

/-! ## Projections -/

namespace Projection

/-- Relations come in the order of their names, each once, at every level. -/
inductive Ordered : Projection → Prop
  | level {columns : List Column} {relations : List (String × Link × Projection)}
      (hordered : Entries.Ordered relations) (hbelow : ∀ e ∈ relations, Ordered e.2.2) :
      Ordered ⟨columns, relations⟩

theorem toMembers_eq (relations : List (String × Link × Projection)) :
    toMembers relations = relations.map fun e =>
      (e.1, .object [("link", e.2.1.toJson), ("projection", e.2.2.toJson)]) := by
  induction relations with
  | nil => rfl
  | cons e relations ih =>
    obtain ⟨name, link, child⟩ := e
    rw [toMembers, List.map_cons, ih]

/-- The relations are the first that are written under their name, if any are. -/
theorem ofMember?_eq (key : String) (members : List (String × Json)) :
    ofMember? key members = Json.orElse? [] ofRelations? (Json.valuesOf key members).head? :=
  Json.search_eq (Json.orElse? [] ofRelations?) rfl (fun _ _ => rfl) members

/-- So is the projection beside a link. -/
theorem ofChild?_eq (members : List (String × Json)) :
    ofChild? members = (Json.valuesOf "projection" members).head?.bind ofJson? :=
  Json.search_eq (·.bind ofJson?) rfl (fun _ _ => rfl) members

/-- A member is read as a relation. -/
def IsRead (m : String × Json) (e : String × Link × Projection) : Prop :=
  m.1 = e.1 ∧ ofLoaded? m.2 = some e.2

/-- Relations are written into the order of their names, one after the other. -/
theorem ofMembers?_of_isRead {members : List (String × Json)}
    {relations done : List (String × Link × Projection)}
    (h : List.Forall₂ IsRead members relations) :
    ofMembers? done members =
      some (relations.foldl (fun es e => Entries.put e.1 e.2 es) done) := by
  induction h generalizing done with
  | nil => rfl
  | @cons m e members relations hm _ ih =>
    obtain ⟨name, j⟩ := m
    obtain ⟨hname, hloaded⟩ := hm
    rw [ofMembers?, show ofLoaded? j = some e.2 from hloaded]
    cases (show name = e.1 from hname)
    exact ih

theorem readsAs_loaded (link : Link) {child : Projection}
    (h : ReadsAs ofJson? child.toJson child) :
    ReadsAs ofLoaded? (.object [("link", link.toJson), ("projection", child.toJson)])
      (link, child) := by
  intro j hj
  obtain ⟨named, os, rfl, hos, hrel⟩ := hj.ofMembers? [needed "link", needed "projection"] rfl
  obtain _ | ⟨hlink, _ | ⟨hchild, ⟨⟩⟩⟩ := hrel
  have hlink := FieldReadsAs.given link.readsAs _ hlink
  have hchild := FieldReadsAs.given h _ hchild
  have hread : ofChild? named = some child := by
    rw [ofChild?_eq, show (Json.valuesOf "projection" named).head? = _ from Json.head?_second hos]
    exact hchild
  rw [ofLoaded?, hos]
  dsimp only
  rw [hlink, hread]

/-- **Relations are read back in their order**, whatever the order they are written in. -/
theorem readsAs_relations {relations : List (String × Link × Projection)}
    (hordered : Entries.Ordered relations)
    (h : ∀ e ∈ relations, ReadsAs ofJson? e.2.2.toJson e.2.2) :
    ReadsAs ofRelations? (.object (toMembers relations)) relations := by
  intro j hj
  obtain ⟨members, named, rfl, hmembers, hperm⟩ := Json.reordered_object.1 hj
  have hread : List.Forall₂ IsRead members relations := by
    rw [toMembers_eq, List.forall₂_map_left_iff] at hmembers
    clear hj hperm hordered
    induction hmembers with
    | nil => exact .nil
    | cons hm _ ih =>
      obtain ⟨he, hes⟩ := List.forall_mem_cons.1 h
      exact .cons ⟨hm.1, readsAs_loaded _ he _ hm.2⟩ (ih hes)
  -- the relations in the order in which they are written
  obtain ⟨written, hwritten, hsame⟩ := List.perm_comp_forall₂ hperm.symm hread
  rw [ofRelations?, ofMembers?_of_isRead hwritten, Entries.foldl_put_of_perm hordered hsame]

/-- **A projection is read back**, if its relations come in the order of their names. -/
theorem readsAs {p : Projection} (h : p.Ordered) : ReadsAs ofJson? p.toJson p := by
  induction p using Projection.induct with
  | level columns relations ih =>
    obtain ⟨hordered, hbelow⟩ := h
    have hrelations : ReadsAs ofRelations? (.object (toMembers relations)) relations :=
      readsAs_relations hordered fun e he => ih e he (hbelow e he)
    have hjson : toJson ⟨columns, relations⟩ =
        .object (membersOf [needed "columns", Json.optional "relations"]
          [some (.array (columns.map Column.toJson)),
            if relations.isEmpty then none else some (.object (toMembers relations))]) := by
      cases relations <;> rfl
    intro j hj
    rw [hjson] at hj
    obtain ⟨named, os, rfl, hos, hrel⟩ := Json.exists_fields _ _ hj (by decide)
      (by simp [Json.needed, Json.optional])
    obtain _ | ⟨hcolumns, _ | ⟨hbehind, ⟨⟩⟩⟩ := hrel
    have hlist := Json.readsAs_list fun c (_ : c ∈ columns) => Column.readsAs c
    have hcolumns := FieldReadsAs.given hlist _ hcolumns
    have hread : ofMember? "relations" named = some relations := by
      rw [ofMember?_eq, show (Json.valuesOf "relations" named).head? = _ from Json.head?_second hos]
      exact FieldReadsAs.orElse hrelations List.isEmpty_iff.1 _ hbehind
    rw [ofJson?, hos]
    dsimp only
    rw [hcolumns, hread]

end Projection

/-! ## Plans -/

theorem Join.readsAs (join : Join) : ReadsAs Join.ofJson? join.toJson join := by
  intro j hj
  obtain ⟨named, os, rfl, hos, hrel⟩ :=
    hj.ofMembers? [needed "table", needed "alias", needed "left", needed "right"] rfl
  obtain _ | ⟨htable, _ | ⟨halias, _ | ⟨hleft, _ | ⟨hright, ⟨⟩⟩⟩⟩⟩ := hrel
  have htable := FieldReadsAs.given (Json.readsAs_text join.table) _ htable
  have halias := FieldReadsAs.given (Json.readsAs_text join.aliasName) _ halias
  have hleft := FieldReadsAs.given (Json.readsAs_text join.left) _ hleft
  have hright := FieldReadsAs.given (Json.readsAs_text join.right) _ hright
  simp only [Join.ofJson?, Json.record?, hos, htable, halias, hleft, hright, Option.bind_eq_bind,
    Option.bind_some]
  rfl

theorem Direction.lookup_names (direction : Direction) :
    Direction.names.lookup direction.name = some direction := by
  cases direction <;> rfl

theorem Order.readsAs (order : Order) : ReadsAs Order.ofJson? order.toJson order := by
  intro j hj
  obtain ⟨named, os, rfl, hos, hrel⟩ := hj.ofMembers? [needed "column", needed "direction"] rfl
  obtain _ | ⟨hcolumn, _ | ⟨hdirection, ⟨⟩⟩⟩ := hrel
  have hcolumn := FieldReadsAs.given (Json.readsAs_text order.column) _ hcolumn
  have hdirection : Json.given? (Json.choice? false Direction.names) _ = some order.direction :=
    FieldReadsAs.given (Json.readsAs_choice order.direction.lookup_names) _ hdirection
  simp only [Order.ofJson?, Json.record?, hos, hcolumn, hdirection, Option.bind_eq_bind,
    Option.bind_some]
  rfl

theorem Window.readsAs (w : Window) : ReadsAs Window.ofJson? w.toJson w := by
  intro j hj
  obtain ⟨named, os, rfl, hos, hrel⟩ := hj.ofMembers? [needed "skip", needed "take"] rfl
  obtain _ | ⟨hskip, _ | ⟨htake, ⟨⟩⟩⟩ := hrel
  have hskip := FieldReadsAs.given (Json.readsAs_word w.skip) _ hskip
  have htake := FieldReadsAs.given (Json.readsAs_word w.take) _ htake
  simp only [Window.ofJson?, Json.record?, hos, hskip, htake, Option.bind_eq_bind,
    Option.bind_some]
  rfl

namespace Plan

/-- The fields of a plan. -/
def fields : List Json.Field :=
  [needed "entity", needed "table", Json.optional "joins", Json.optional "filters",
    Json.optional "projection", Json.optional "order_by", Json.optional "window"]

/-- What a plan has in its fields. -/
def fieldValues (p : Plan) : List (Option Json) :=
  [some (.string p.entity), some (.string p.table),
    if p.joins.isEmpty then none else some (.array (p.joins.map Join.toJson)),
    if p.filters.isEmpty then none else some (.array (p.filters.map Predicate.toJson)),
    p.projection.map Projection.toJson,
    if p.orders.isEmpty then none else some (.array (p.orders.map Order.toJson)),
    p.window.map Window.toJson]

theorem toJson_eq (p : Plan) : p.toJson = .object (membersOf fields p.fieldValues) := by
  rw [toJson, Json.listField_eq, Json.listField_eq, Json.listField_eq]
  rfl

theorem readsAs {p : Plan} (hvalues : ∀ f ∈ p.filters, ∀ v ∈ f.values, v.isExact = true)
    (hordered : ∀ q, p.projection = some q → q.Ordered) : ReadsAs ofJson? p.toJson p := by
  intro j hj
  rw [toJson_eq] at hj
  obtain ⟨named, os, rfl, hos, hrel⟩ := Json.exists_fields fields p.fieldValues hj (by decide)
    (by simp [fields, fieldValues, Json.needed, Json.optional])
  obtain _ | ⟨hentity, _ | ⟨htable, _ | ⟨hjoins, _ | ⟨hfilters, _ | ⟨hprojection, _ | ⟨horders,
    _ | ⟨hwindow, ⟨⟩⟩⟩⟩⟩⟩⟩⟩ := hrel
  have hentity := FieldReadsAs.given (Json.readsAs_text p.entity) _ hentity
  have htable := FieldReadsAs.given (Json.readsAs_text p.table) _ htable
  have hjoins := FieldReadsAs.list (fun join _ => join.readsAs) _ hjoins
  have hfilters : Json.orElse? [] (Json.list? Predicate.ofJson?) _ = some p.filters :=
    FieldReadsAs.list (fun f hf => Predicate.readsAs (hvalues f hf) false) _ hfilters
  have hnull : ∀ q : Projection, q.toJson.isNull = false := fun q => by cases q; rfl
  have hprojection : Json.option? Projection.ofJson? _ = some p.projection :=
    FieldReadsAs.option (fun q hq => Projection.readsAs (hordered q hq)) hnull _ hprojection
  have horders := FieldReadsAs.list (fun order _ => order.readsAs) _ horders
  have hwindow := FieldReadsAs.option (fun w _ => Window.readsAs w) (fun _ => rfl) _ hwindow
  rw [fields] at hos
  simp only [ofJson?, Json.record?, hos, hentity, htable, hjoins, hfilters, hprojection, horders,
    hwindow, Option.bind_eq_bind, Option.bind_some]
  rfl

/-- **A plan that is written is read back**, if none of its values has floats or points in time,
and relations are listed in the order of their names, as they are kept. So it is in whatever order
the members of its objects come, at every level. -/
theorem ofJson?_toJson {p : Plan} (hvalues : ∀ f ∈ p.filters, ∀ v ∈ f.values, v.isExact = true)
    (hordered : ∀ q, p.projection = some q → q.Ordered) :
    ofJson? p.toJson = some p ∧ ∀ j, Reordered p.toJson j → ofJson? j = some p :=
  ⟨(readsAs hvalues hordered).self, readsAs hvalues hordered⟩

/-- Notes on posts, with groups in groups, the largest numbers, and parts that are empty. -/
def ofNotes : Plan where
  entity := "Note"
  table := "notes"
  joins := [⟨"posts", "notes_post_join", "notes_post_join.id", "notes.post_id"⟩]
  filters := [.anyOf [.allOf [], .compare "notes.rank" .ge (.int Int64.minValue),
      .relatedWhere ⟨"post", "posts", "notes.post_id", "posts.id", some ⟨"posts.kind", "null"⟩⟩
        (.among "posts.title" [.null, .bool true, .list [.string "2024-01-01T00:00:00Z", .list []]])],
    .related ⟨"post", "posts", "notes.post_id", "posts.id", none⟩, .like "notes.text" "" true]
  projection := some ⟨[.stored "notes.text" none, .computed "1" (some "")],
    [("author", ⟨"author", "users", "notes.user_id", "users.id", none⟩, ⟨[], []⟩),
     ("post", ⟨"article", "posts", "notes.post_id", "posts.id", none⟩,
       ⟨[.stored "posts.id" (some "kind")], []⟩)]⟩
  orders := []
  window := some ⟨0, 18446744073709551615⟩

/-- It is read back, also with its members the other way round. -/
theorem ofJson?_toJson_of_notes : ofJson? ofNotes.toJson = some ofNotes ∧
    ofJson? (.object (membersOf fields ofNotes.fieldValues).reverse) = some ofNotes := by
  have hvalues : ∀ f ∈ ofNotes.filters, ∀ v ∈ f.values, v.isExact = true := by decide +kernel
  have hordered : ∀ q, ofNotes.projection = some q → q.Ordered := by
    rintro q ⟨⟩
    have hrelations : List.Pairwise (· < ·) ["author", "post"] := by decide
    refine .level (List.pairwise_map.1 hrelations) ?_
    refine List.forall_mem_cons.2 ⟨?_, List.forall_mem_singleton.2 ?_⟩
    · exact .level .nil fun e he => absurd he List.not_mem_nil
    · exact .level .nil fun e he => absurd he List.not_mem_nil
  obtain ⟨hself, hreordered⟩ := ofJson?_toJson hvalues hordered
  refine ⟨hself, hreordered _ ?_⟩
  rw [toJson_eq]
  have hsame : List.Forall₂ Json.MemberReordered (membersOf fields ofNotes.fieldValues)
      (membersOf fields ofNotes.fieldValues) :=
    List.forall₂_same.2 fun m _ => ⟨rfl, .refl m.2⟩
  exact Json.reordered_object.2 ⟨_, _, rfl, hsame, (List.reverse_perm _).symm⟩

end Plan

end RequestPlan
