import Mathlib.Data.List.Forall2
import Mathlib.Data.List.Nodup
import RequestPlan.Parameters
import RequestPlan.Proofs.Text
import RequestPlan.Proofs.Text.Marks
import RequestPlan.Proofs.Text.Percent

/-!
# Parameters in query strings

* `Params.Written`: query strings for parameters, in which names and values may be spelled in
  several ways.
* `Params.Sayable`: what a query string can say of a name: null, a text, or a list of texts.
* `ofQuery_of_written`: **parameters are read back from every query string that is written for
  them**.
-/

namespace RequestPlan.Params

open Text (Spells)

/-- A pair for a name and a value. -/
def Pair (name value pair : String) : Prop :=
  ∃ cs ds, Spells (Text.Utf8.encode name.toList) cs ∧ Spells (Text.Utf8.encode value.toList) ds ∧
    pair = String.ofList cs ++ "=" ++ String.ofList ds

/-- The pairs for a name: one for null, which has the empty value, and for a text, and one for each
text of a list, with brackets behind the name. -/
inductive Pairs (name : String) : Value → List String → Prop
  | null {pair : String} (h : Pair name "" pair) : Pairs name .null [pair]
  | text {s pair : String} (h : Pair name s pair) : Pairs name (.string s) [pair]
  | list {texts pairs : List String} (h : List.Forall₂ (Pair (name ++ "[]")) texts pairs) :
      Pairs name (.list (texts.map .string)) pairs

/-- A query string for parameters: their pairs, in order. -/
def Written (ps : Params) (query : String) : Prop :=
  ∃ pairs, List.Forall₂ (fun e => Pairs e.1 e.2) ps.entries pairs ∧
    query = Text.joinWith "&" pairs.flatten

/-- A query string can say it of a name: null, or a text that is not empty, of one that does not end
with brackets, and a list of texts that is not empty of any. -/
def Sayable (name : String) : Value → Prop
  | .null => ¬ "[]".toList <:+ name.toList
  | .string s => s ≠ "" ∧ ¬ "[]".toList <:+ name.toList
  | .list items => items ≠ [] ∧ ∀ v ∈ items, ∃ s, v = .string s
  | _ => False

variable {name value pair : String} {v : Value} {ps : Params} {pairs : List String}
  {es : List (String × Value)}

/-! ## Writing -/

theorem exists_pair (name value : String) : ∃ pair, Pair name value pair := by
  obtain ⟨cs, hcs⟩ := Text.exists_spells name.toList
  obtain ⟨ds, hds⟩ := Text.exists_spells value.toList
  exact ⟨_, cs, ds, hcs, hds, rfl⟩

theorem exists_pairs (h : Sayable name v) : ∃ pairs, Pairs name v pairs := by
  cases v with
  | null =>
    obtain ⟨pair, hpair⟩ := exists_pair name ""
    exact ⟨[pair], .null hpair⟩
  | string s =>
    obtain ⟨pair, hpair⟩ := exists_pair name s
    exact ⟨[pair], .text hpair⟩
  | list items =>
    obtain ⟨texts, rfl⟩ : ∃ texts : List String, items = texts.map Value.string := by
      choose! text htext using h.2
      have hitems : items.map (Value.string ∘ text) = items.map id :=
        List.map_congr_left fun v hv => (htext v hv).symm
      exact ⟨items.map text, by rw [List.map_map, hitems, List.map_id]⟩
    choose pair hpair using exists_pair (name ++ "[]")
    refine ⟨texts.map pair, .list (List.forall₂_map_right_iff.2 ?_)⟩
    exact List.forall₂_same.2 fun s _ => hpair s
  | bool | int | float | timestamp => exact h.elim

/-- Parameters that a query string can say are written in one. -/
theorem exists_written (h : ∀ e ∈ ps.entries, Sayable e.1 e.2) : ∃ query, ps.Written query := by
  have hpairs : ∀ es : List (String × Value), (∀ e ∈ es, Sayable e.1 e.2) →
      ∃ pairs, List.Forall₂ (fun e => Pairs e.1 e.2) es pairs := by
    intro es hes
    induction es with
    | nil => exact ⟨[], .nil⟩
    | cons e es ih =>
      rw [List.forall_mem_cons] at hes
      obtain ⟨first, hfirst⟩ := exists_pairs hes.1
      obtain ⟨rest, hrest⟩ := ih hes.2
      exact ⟨first :: rest, .cons hfirst hrest⟩
  obtain ⟨pairs, hpairs⟩ := hpairs ps.entries h
  exact ⟨_, pairs, hpairs, rfl⟩

/-! ## Pairs -/

/-- A pair has no mark of a query string but its own. -/
theorem Pair.not_mem (h : Pair name value pair) {c : Char} (hc : c ∈ ['&', '?']) :
    c ∉ pair.toList := by
  obtain ⟨cs, ds, hcs, hds, rfl⟩ := h
  have hmarks : ∀ c ∈ ['&', '?'], c ∈ ['&', '=', '?'] ∧ c ≠ '=' := by
    simp
  obtain ⟨hmark, hne⟩ := hmarks c hc
  simp [hcs.not_mem hmark, hds.not_mem hmark, hne]

theorem Pair.ne_empty (h : Pair name value pair) : pair ≠ "" := by
  obtain ⟨cs, ds, -, -, rfl⟩ := h
  simp

theorem exists_pair_of_pairs (h : Pairs name v pairs) : ∀ pair ∈ pairs, ∃ name value,
    Pair name value pair := by
  cases h with
  | null h | text h => exact List.forall_mem_singleton.2 ⟨_, _, h⟩
  | list h =>
    induction h with
    | nil => exact fun _ hpair => absurd hpair List.not_mem_nil
    | cons hfirst _ ih => exact List.forall_mem_cons.2 ⟨⟨_, _, hfirst⟩, ih⟩

theorem exists_pair_of_flatten {pairs : List (List String)}
    (h : List.Forall₂ (fun e => Pairs e.1 e.2) es pairs) : ∀ pair ∈ pairs.flatten, ∃ name value,
    Pair name value pair := by
  induction h with
  | nil => exact fun _ hpair => absurd hpair List.not_mem_nil
  | cons hfirst _ ih =>
    intro pair hpair
    rcases List.mem_append.1 hpair with hpair | hpair
    · exact exists_pair_of_pairs hfirst pair hpair
    · exact ih pair hpair

/-- A pair is cut into its name and its value, which are both read. -/
theorem Pair.addPair_eq (h : Pair name value pair) (ps : Params) :
    ps.addPair pair = match Text.dropSuffix? "[]" name with
      | some listName => ps.append listName (.string value)
      | none => ps.insert name (if value.isEmpty then .null else .string value) := by
  obtain ⟨cs, ds, hcs, hds, rfl⟩ := h
  have hequal : '=' ∉ (String.ofList cs).toList := by
    rw [String.toList_ofList]
    exact hcs.not_mem (by decide)
  have hcut : Text.cut? '=' (String.ofList cs ++ "=" ++ String.ofList ds) =
      some (String.ofList cs, String.ofList ds) := Text.cut?_append hequal _
  have hread {s : String} {cs : List Char} (hs : Spells (Text.Utf8.encode s.toList) cs) :
      String.ofList (Text.decodeQuery (String.ofList cs).toList) = s := by
    rw [String.toList_ofList, Text.decodeQuery_of_spells hs, Text.Utf8.decode_encode,
      String.ofList_toList]
  have hname := hread hcs
  have hvalue := hread hds
  unfold addPair
  rw [hcut]
  dsimp only
  generalize String.ofList (Text.decodeQuery (String.ofList cs).toList) = decodedName at hname ⊢
  generalize String.ofList (Text.decodeQuery (String.ofList ds).toList) = decodedValue at hvalue ⊢
  subst hname hvalue
  rfl

theorem Pair.addPair_of_brackets (h : Pair (name ++ "[]") value pair) (ps : Params) :
    ps.addPair pair = ps.append name (.string value) := by
  rw [h.addPair_eq, Text.dropSuffix?_append]

theorem Pair.addPair_of_plain (h : Pair name value pair) (hname : ¬ "[]".toList <:+ name.toList)
    (ps : Params) :
    ps.addPair pair = ps.insert name (if value.isEmpty then .null else .string value) := by
  rw [h.addPair_eq, Text.dropSuffix?_eq_none_iff.2 hname]

/-! ## Reading -/

/-- A name that is not there yet comes last. -/
theorem change_of_not_mem {fresh : Value} {f : Value → Value} (h : name ∉ es.map Prod.fst) :
    change name fresh f es = es ++ [(name, fresh)] := by
  induction es with
  | nil => rfl
  | cons e es ih =>
    rw [List.map_cons, List.mem_cons, not_or] at h
    rw [change, if_neg (Ne.symm h.1), ih h.2, List.cons_append]

/-- The value of the last name is changed, when the name is not there before. -/
theorem change_concat {fresh : Value} {f : Value → Value} (h : name ∉ es.map Prod.fst) :
    change name fresh f (es ++ [(name, v)]) = es ++ [(name, f v)] := by
  induction es with
  | nil => exact if_pos rfl
  | cons e es ih =>
    rw [List.map_cons, List.mem_cons, not_or] at h
    rw [List.cons_append, change, if_neg (Ne.symm h.1), ih h.2, List.cons_append]

/-- The texts of a list come behind those that the last name has already. -/
theorem foldl_addPair_list {texts : List String} {items : List Value}
    (h : List.Forall₂ (Pair (name ++ "[]")) texts pairs) (hname : name ∉ es.map Prod.fst) :
    pairs.foldl addPair ⟨es ++ [(name, .list items)]⟩ =
      ⟨es ++ [(name, .list (items ++ texts.map .string))]⟩ := by
  induction h generalizing items with
  | nil => rw [List.map_nil, List.append_nil, List.foldl_nil]
  | @cons s pair texts pairs hpair _ ih =>
    have hone : addPair ⟨es ++ [(name, .list items)]⟩ pair =
        ⟨es ++ [(name, .list (items ++ [.string s]))]⟩ := by
      rw [hpair.addPair_of_brackets]
      exact congrArg Params.mk (change_concat hname)
    rw [List.foldl_cons, hone, ih, List.map_cons, List.append_assoc, List.singleton_append]

/-- **The pairs for a new name say its value.** -/
theorem foldl_addPair_pairs (h : Pairs name v pairs) (hv : Sayable name v)
    (hname : name ∉ es.map Prod.fst) : pairs.foldl addPair ⟨es⟩ = ⟨es ++ [(name, v)]⟩ := by
  cases h with
  | null h =>
    rw [List.foldl_cons, List.foldl_nil, h.addPair_of_plain hv]
    exact congrArg Params.mk (change_of_not_mem hname)
  | @text s pair h =>
    have hs : s.isEmpty = false := by
      rw [← Bool.not_eq_true, String.isEmpty_iff]
      exact hv.1
    rw [List.foldl_cons, List.foldl_nil, h.addPair_of_plain hv.2, hs]
    exact congrArg Params.mk (change_of_not_mem hname)
  | list h =>
    cases h with
    | nil => exact absurd rfl hv.1
    | @cons s pair texts pairs hpair hrest =>
      -- the first text makes the list, and the others come behind it
      have hfirst : addPair ⟨es⟩ pair = ⟨es ++ [(name, .list [.string s])]⟩ := by
        rw [hpair.addPair_of_brackets]
        exact congrArg Params.mk (change_of_not_mem hname)
      rw [List.foldl_cons, hfirst, foldl_addPair_list hrest hname]
      rfl

theorem foldl_addPair_flatten (es : List (String × Value)) {more : List (String × Value)}
    {pairs : List (List String)}
    (h : List.Forall₂ (fun e => Pairs e.1 e.2) more pairs) (hmore : ∀ e ∈ more, Sayable e.1 e.2)
    (hnames : ((es ++ more).map Prod.fst).Nodup) :
    pairs.flatten.foldl addPair ⟨es⟩ = ⟨es ++ more⟩ := by
  induction h generalizing es with
  | nil => rw [List.flatten_nil, List.foldl_nil, List.append_nil]
  | @cons e first more pairs hfirst _ ih =>
    rw [List.forall_mem_cons] at hmore
    have hnew : e.1 ∉ es.map Prod.fst := by
      rw [List.map_append, List.map_cons] at hnames
      intro hmem
      exact (List.nodup_append.1 hnames).2.2 _ hmem _ List.mem_cons_self rfl
    rw [List.flatten_cons, List.foldl_append, foldl_addPair_pairs hfirst hmore.1 hnew]
    have hassoc : es ++ e :: more = es ++ [e] ++ more := List.append_cons es e more
    rw [hassoc] at hnames ⊢
    exact ih _ hmore.2 hnames

/-- The pairs of a query string are those that it was written with. -/
theorem pairs_joinWith {pairs : List String}
    (h : ∀ pair ∈ pairs, ∃ name value, Pair name value pair) :
    ((Text.splitOn '&' (Text.joinWith "&" pairs)).filter fun pair => !pair.isEmpty) = pairs := by
  have hfull : ∀ pair ∈ pairs, (!pair.isEmpty) = true := by
    intro pair hpair
    obtain ⟨name, value, hone⟩ := h pair hpair
    rw [Bool.not_eq_true', ← Bool.not_eq_true, String.isEmpty_iff]
    exact hone.ne_empty
  cases hpairs : pairs with
  | nil => rfl
  | cons first rest =>
    have hplain : ∀ pair ∈ pairs, '&' ∉ pair.toList := by
      intro pair hpair
      obtain ⟨name, value, hone⟩ := h pair hpair
      exact hone.not_mem (by decide)
    have hsplit : Text.splitOn '&' (Text.joinWith "&" pairs) = pairs :=
      Text.splitOn_joinWith (hpairs ▸ List.cons_ne_nil first rest) hplain
    rw [← hpairs, hsplit, List.filter_eq_self.2 hfull]

/-- **Parameters are read back from every query string that is written for them**, with or without
a question mark in front, when their names are different and a query string can say their values. It
makes no difference which characters are written in hexadecimal digits, beyond those that have a
meaning in a query string, nor how blanks are written. There is such a query string. -/
theorem ofQuery_of_written (ps : Params) (hnames : (ps.entries.map Prod.fst).Nodup)
    (hvalues : ∀ e ∈ ps.entries, Sayable e.1 e.2) :
    (∃ query, ps.Written query) ∧
      ∀ query, ps.Written query → ofQuery query = ps ∧ ofQuery ("?" ++ query) = ps := by
  refine ⟨exists_written hvalues, ?_⟩
  rintro query ⟨pairs, hpairs, rfl⟩
  have hpair : ∀ pair ∈ pairs.flatten, ∃ name value, Pair name value pair :=
    exists_pair_of_flatten hpairs
  -- no question mark is left for the front of the text
  have hplain : Text.dropPrefix? "?" (Text.joinWith "&" pairs.flatten) = none := by
    rw [Option.eq_none_iff_forall_ne_some]
    intro rest hrest
    have hmark : '?' ∈ (Text.joinWith "&" pairs.flatten).toList := by
      rw [← Text.dropPrefix?_eq_some_iff.1 hrest, String.toList_append]
      exact List.mem_append_left _ (by decide)
    rcases Text.mem_joinWith hmark with hmark | ⟨pair, hmem, hmark⟩
    · exact absurd hmark (by decide)
    · obtain ⟨name, value, hone⟩ := hpair pair hmem
      exact hone.not_mem (by decide) hmark
  have hread : (((Text.splitOn '&' (Text.joinWith "&" pairs.flatten)).filter
      fun pair => !pair.isEmpty).foldl addPair ∅) = ps := by
    rw [pairs_joinWith hpair]
    exact foldl_addPair_flatten [] hpairs hvalues hnames
  unfold ofQuery
  rw [hplain, Text.dropPrefix?_eq_some_iff.2 rfl]
  exact ⟨hread, hread⟩

/-- A text with a letter beyond ASCII, a blank and a mark, two texts, of which one is empty, and
null. -/
def askingCafes : Params :=
  ⟨[("q", .string "é +"), ("t", .list [.string "&", .string ""]), ("n", .null)]⟩

theorem written_askingCafes : askingCafes.Written "q=%C3%a9+%2b&t[]=%26&t%5B]=&n=" := by
  have hplain (s : String) (hs : s.toList.Forall (· ∉ Text.queryMarks)) :
      Spells (Text.Utf8.encode s.toList) s.toList :=
    Text.spells_of_plain (List.forall_iff_forall_mem.1 hs)
  have htext : Spells [0xC3, 0xA9, 0x20, 0x2B] ['%', 'C', '3', '%', 'a', '9', '+', '%', '2', 'b'] :=
    .octet (by decide) (by decide) (by decide) <| .octet (by decide) (by decide) (by decide) <|
      .blank <| .octet (by decide) (by decide) (by decide) .nil
  have hmark : Spells [0x26] ['%', '2', '6'] := .octet (by decide) (by decide) (by decide) .nil
  have hbrackets : Spells [0x74, 0x5B, 0x5D] ['t', '%', '5', 'B', ']'] :=
    .plain (c := 't') (by decide) <| .octet (by decide) (by decide) (by decide) <|
      .plain (c := ']') (by decide) .nil
  have hq : Pair "q" "é +" "q=%C3%a9+%2b" := ⟨_, _, hplain "q" (by decide), htext, by decide⟩
  have ht : Pair "t[]" "&" "t[]=%26" := ⟨_, _, hplain "t[]" (by decide), hmark, by decide⟩
  have ht' : Pair "t[]" "" "t%5B]=" := ⟨_, _, hbrackets, .nil, by decide⟩
  have hn : Pair "n" "" "n=" := ⟨_, _, hplain "n" (by decide), .nil, by decide⟩
  have hlist : Pairs "t" (.list (["&", ""].map .string)) ["t[]=%26", "t%5B]="] :=
    .list (.cons ht (.cons ht' .nil))
  exact ⟨_, .cons (.text hq) (.cons hlist (.cons (.null hn) .nil)), by decide⟩

/-- They are read from a query string in which a bracket and a digit more are written in hexadecimal
digits. -/
theorem ofQuery_of_askingCafes :
    let query := "q=%C3%a9+%2b&t[]=%26&t%5B]=&n="
    (askingCafes.entries.map Prod.fst).Nodup ∧
      (∀ e ∈ askingCafes.entries, Sayable e.1 e.2) ∧ askingCafes.Written query ∧
      ofQuery query = askingCafes ∧ ofQuery ("?" ++ query) = askingCafes := by
  intro query
  have hnames : (askingCafes.entries.map Prod.fst).Nodup := by decide
  have hplain : ∀ name ∈ ["q", "n"], ¬ "[]".toList <:+ name.toList := by decide
  have hvalues : ∀ e ∈ askingCafes.entries, Sayable e.1 e.2 := by
    simpa [askingCafes, Sayable] using hplain
  exact ⟨hnames, hvalues, written_askingCafes,
    (ofQuery_of_written askingCafes hnames hvalues).2 query written_askingCafes⟩

end RequestPlan.Params
