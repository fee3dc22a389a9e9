import RequestPlan.Catalog.Declaration
import RequestPlan.Proofs.Text
import RequestPlan.Proofs.Text.Blank

/-!
# The shorthand of declarations

* `Declaration.Written`: how a mode and a key are written, and `Declaration.withUses`: how the uses
  are written behind them.
* `Capabilities.allows_parse`: the uses in a list are those that one of its words names.
* `Declaration.parse_of_written`: **a shorthand is read back as what it was written for**.
-/

namespace RequestPlan

open Text (Blank Says Small)

/-! ## Words between bars -/

namespace Capabilities

variable {c : Capabilities} {k : Kind} {word : String} {words : List String}

theorem small_use (k : Kind) : Small k.use := by
  cases k <;> decide

/-- One word allows what it names, and everything by the word for every use. -/
theorem allows_add (hk : k ≠ .queryable) : (c.add word).allows k = true ↔
    c.allows k = true ∨ Text.asciiLower word = k.use ∨ Text.asciiLower word = "all" := by
  unfold add
  split <;> cases k <;> simp_all [allows, all, Kind.use]

/-- Words allow what one of them names, in any order. -/
theorem allows_foldl_add (hk : k ≠ .queryable) : (words.foldl add c).allows k = true ↔
    c.allows k = true ∨
      ∃ word ∈ words, Text.asciiLower word = k.use ∨ Text.asciiLower word = "all" := by
  induction words generalizing c with
  | nil => simp
  | cons word words ih =>
    rw [List.foldl_cons, ih, allows_add hk, or_assoc]
    simp only [List.mem_cons, exists_eq_or_imp]

/-- Words without bars are the parts of their list, and an empty list has one empty word. -/
theorem splitOn_bars (hwords : ∀ word ∈ words, '|' ∉ word.toList) :
    Text.splitOn '|' (Text.joinWith "|" words) = words ∨
      words = [] ∧ Text.splitOn '|' (Text.joinWith "|" words) = [""] := by
  by_cases hne : words = []
  · subst hne
    exact .inr ⟨rfl, rfl⟩
  · exact .inl (Text.splitOn_joinWith hne hwords)

/-- **The uses in a list are those that one of its words names.** -/
theorem allows_parse (hk : k ≠ .queryable) (hwords : ∀ word ∈ words, '|' ∉ word.toList) :
    (parse (Text.joinWith "|" words)).allows k = true ↔
      ∃ word ∈ words, Says word k.use ∨ Says word "all" := by
  have hnone : Capabilities.none.allows k = false := by
    cases k <;> rfl
  have hread : ∀ word, Says word k.use ∨ Says word "all" ↔
      Text.asciiLower (Text.trim word) = k.use ∨ Text.asciiLower (Text.trim word) = "all" :=
    fun word => or_congr (Text.says_iff (small_use k)) (Text.says_iff (small_use .queryable))
  simp only [hread]
  rw [parse, allows_foldl_add hk, hnone, or_iff_right Bool.false_ne_true]
  rcases splitOn_bars hwords with hparts | ⟨rfl, hparts⟩
  · rw [hparts]
    simp only [List.mem_map, exists_exists_and_eq_and]
  · -- the empty word names nothing
    rw [hparts]
    cases k <;> simp_all <;> decide

theorem eq_all (h : ∀ k ≠ .queryable, c.allows k = true) : c = all := by
  have hfilter : c.filter = true := h .filterable (by decide)
  have hsort : c.sort = true := h .sortable (by decide)
  have hselect : c.select = true := h .selectable (by decide)
  cases c
  simp_all [all]

end Capabilities

/-! ## Modes and keys -/

namespace Declaration

variable {aliasName key spec : String} {mode : Option String} {words : Option (List String)}

/-- How a mode and a key are written. A colon without a mode lets a key have colons. -/
inductive Written : Option String → String → String → Prop
  | both {mode key : String} (hmode : ':' ∉ mode.toList) (hsome : ¬Blank mode) :
    Written (some mode) key (mode ++ ":" ++ key)
  | marked {before key : String} (hnone : Blank before) : Written none key (before ++ ":" ++ key)
  | alone {key : String} (hkey : ':' ∉ key.toList) : Written none key key

/-- How uses are written behind a mode and a key. -/
def withUses (spec : String) : Option (List String) → String
  | none => spec
  | some words => spec ++ "|" ++ Text.joinWith "|" words

theorem cut?_withUses (hspec : '|' ∉ spec.toList) :
    Text.cut? '|' (withUses spec words) = words.map fun words => (spec, Text.joinWith "|" words) := by
  cases words with
  | none => rw [withUses, Text.cut?, Text.cutChars?_of_not_mem hspec, Option.map_none, Option.map_none]
  | some words => exact Text.cut?_append hspec _

/-- Only a mode, or a colon that stands for none, is cut off before the key. -/
theorem cut?_of_written (h : Written mode key spec) :
    (∃ before, Text.cut? ':' spec = some (before, key) ∧
      Text.nonBlank? before = mode.map Text.trim) ∨
    Text.cut? ':' spec = none ∧ mode = none ∧ spec = key := by
  cases h with
  | @both mode _ hmode hsome =>
    exact .inl ⟨mode, Text.cut?_append hmode key, Text.nonBlank?_eq_some_iff.2 ⟨hsome, rfl⟩⟩
  | @marked before _ hnone =>
    have hcolon : ':' ∉ before.toList := fun hmem => absurd (hnone _ hmem) (by decide)
    exact .inl ⟨before, Text.cut?_append hcolon key, Text.nonBlank?_eq_none_iff.2 hnone⟩
  | alone hkey =>
    refine .inr ⟨?_, rfl, rfl⟩
    rw [Text.cut?, Text.cutChars?_of_not_mem hkey, Option.map_none]

/-- A shorthand is read part by part. -/
theorem parse_withUses (h : Written mode key spec) (hspec : '|' ∉ spec.toList) :
    parse aliasName (withUses spec words) =
      let key := if (Text.trim key).isEmpty then aliasName else Text.trim key
      match words with
      | none => .typed aliasName (mode.map Text.trim) key
      | some words => .full aliasName (mode.map Text.trim) key
          (Capabilities.parse (Text.joinWith "|" words)) := by
  unfold parse
  rw [cut?_withUses hspec]
  obtain ⟨before, hcut, hmode⟩ | ⟨hcut, rfl, rfl⟩ := cut?_of_written h
  · cases words <;> simp only [withUses, Option.map_none, Option.map_some, hcut, hmode]
  · cases words <;> simp only [withUses, Option.map_none, Option.map_some, hcut]

/-- **A shorthand is read back as what it was written for**, the mode and the key trimmed; a blank
key is the alias. Without a list of uses a declaration is meant for every one. With a list it is
meant for those that its words name, in any order and case, with any blanks around them and whatever
other words there are, and by the word for all of them for every one. -/
theorem parse_of_written (aliasName : String) (words : Option (List String))
    (h : Written mode key spec) (hspec : '|' ∉ spec.toList)
    (hwords : ∀ ws, words = some ws → ∀ word ∈ ws, '|' ∉ word.toList) :
    let d := parse aliasName (withUses spec words)
    d.aliasName = aliasName ∧ d.mode = mode.map Text.trim ∧
    (¬Blank key → d.key = Text.trim key) ∧ (Blank key → d.key = aliasName) ∧
    (words = none → ∀ k, d.uses.allows k = true) ∧
    ∀ ws, words = some ws →
      (∀ k ≠ .queryable, d.uses.allows k = true ↔ ∃ word ∈ ws, Says word k.use ∨ Says word "all") ∧
      ((∃ word ∈ ws, Says word "all") → d.uses = .all) := by
  intro d
  have hd : d = _ := parse_withUses h hspec
  have hkey : d.key = if (Text.trim key).isEmpty then aliasName else Text.trim key := by
    rw [hd]
    cases words <;> simp only [Declaration.key]
  have huses : ∀ ws, words = some ws → ∀ k ≠ .queryable,
      (d.uses.allows k = true ↔ ∃ word ∈ ws, Says word k.use ∨ Says word "all") := by
    rintro ws rfl k hk
    rw [hd]
    exact Capabilities.allows_parse hk (hwords ws rfl)
  refine ⟨?_, ?_, fun hblank => ?_, fun hblank => ?_, ?_, fun ws hws => ⟨huses ws hws, ?_⟩⟩
  · rw [hd]
    cases words <;> rfl
  · rw [hd]
    cases words <;> rfl
  · rw [hkey, if_neg (mt Text.isEmpty_trim_iff.1 hblank)]
  · rw [hkey, if_pos (Text.isEmpty_trim_iff.2 hblank)]
  · rintro rfl k
    rw [hd]
    cases k <;> rfl
  · rintro ⟨word, hmem, hall⟩
    exact Capabilities.eq_all fun k hk => (huses ws hws k hk).2 ⟨word, hmem, .inr hall⟩

/-- Words for uses may come twice and with others that name none, and one word names them all. -/
theorem parse_of_point :
    let point := parse "place" " Point: home | Filter |sorted|sELECT|filter"
    let place := parse "place" ": |sort|\tALL"
    (point.mode = some "Point" ∧ point.key = "home" ∧ point.uses.allows .filterable = true ∧
      point.uses.allows .selectable = true ∧ point.uses.allows .sortable = false) ∧
    place.mode = none ∧ place.key = "place" ∧ place.uses = .all := by
  let words : List String := [" Filter ", "sorted", "sELECT", "filter"]
  have hfilter : Says " Filter " "filter" := (Text.says_iff (by decide)).2 rfl
  have hselect : Says "sELECT" "select" := (Text.says_iff (by decide)).2 rfl
  have hall : Says "\tALL" "all" := (Text.says_iff (by decide)).2 rfl
  have hsort : ¬∃ word ∈ words, Says word "sort" ∨ Says word "all" := by
    rintro ⟨word, hmem, hword⟩
    rw [Text.says_iff (by decide), Text.says_iff (by decide)] at hword
    revert word
    decide
  have hboth : Written (some " Point") " home " " Point: home " := .both (by decide) (by decide)
  have hmarked : Written none " " ": " := @Written.marked "" " " nofun
  obtain ⟨-, hmode, hkey, -, -, hwords⟩ :=
    parse_of_written "place" (some words) hboth (by decide) (by rintro _ ⟨⟩; decide)
  obtain ⟨-, hnone, -, hplace, -, hevery⟩ :=
    parse_of_written "place" (some ["sort", "\tALL"]) hmarked (by decide) (by rintro _ ⟨⟩; decide)
  have huses := (hwords words rfl).1
  refine ⟨⟨hmode, hkey (by decide), ?_, ?_, ?_⟩, hnone, hplace (by decide), ?_⟩
  · exact (huses .filterable (by decide)).2 ⟨_, by simp [words], .inl hfilter⟩
  · exact (huses .selectable (by decide)).2 ⟨_, by simp [words], .inl hselect⟩
  · exact Bool.eq_false_iff.2 (mt (huses .sortable (by decide)).1 hsort)
  · exact (hevery _ rfl).2 ⟨_, by simp, hall⟩

end Declaration
end RequestPlan
