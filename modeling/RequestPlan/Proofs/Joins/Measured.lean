import Mathlib.Data.List.Induction
import Mathlib.Data.List.Infix
import RequestPlan.Proofs.Joins.Paths

/-!
# Paths that are measured

A walk adds up the bytes of the names so far, and one for each dot, but as long as nothing is added
up it takes a name to be the first one.

* `Measured`: names that a walk adds up right; `foldl_segmentEnd_le`: it never adds up more bytes
  than their path has.
* `pathStart_foldl_iff`: **the start of a path that a walk takes for some of its names is their path
  exactly when they are measured**.
-/

namespace RequestPlan

/-- An empty name comes first only alone. -/
def Measured (names : List String) : Prop := names.head? = some "" → names = [""]

variable {names before rest : List String} {name path : String}

/-! ## Names of a path -/

/-- Dots tell names without dots apart. -/
theorem eq_of_dotted_eq {names' : List String} (hne : names ≠ []) (hne' : names' ≠ [])
    (hdots : ∀ name ∈ names, '.' ∉ name.toList) (hdots' : ∀ name ∈ names', '.' ∉ name.toList)
    (heq : dotted names = dotted names') : names = names' := by
  have hsplit := congrArg (Text.splitOn '.') heq
  rwa [dotted, dotted, Text.splitOn_joinWith hne hdots, Text.splitOn_joinWith hne' hdots'] at hsplit

/-- The first names of a path are a start of it. -/
theorem exists_dotted_append (hne : before ≠ []) (hinitial : before <+: names) :
    ∃ behind, dotted names = dotted before ++ behind := by
  obtain ⟨rest, rfl⟩ := hinitial
  by_cases hrest : rest = []
  · exact ⟨"", by rw [hrest, List.append_nil, String.append_empty]⟩
  · exact ⟨"." ++ dotted rest, by rw [dotted_append hne hrest, String.append_assoc]⟩

theorem Measured.of_prefix (h : Measured names) (hinitial : before <+: names) :
    Measured before := by
  obtain ⟨rest, rfl⟩ := hinitial
  intro hhead
  cases before with
  | nil => cases hhead
  | cons name before =>
    have hwhole : name :: (before ++ rest) = [""] := h hhead
    simp_all

/-- In front of other names no measured ones start with an empty one. -/
theorem Measured.head?_ne (h : Measured (before ++ rest)) (hrest : rest ≠ []) :
    before.head? ≠ some "" := by
  intro hhead
  cases before with
  | nil => cases hhead
  | cons name before =>
    have hwhole : name :: (before ++ rest) = [""] := h hhead
    exact hrest (List.append_eq_nil_iff.1 (List.cons.inj hwhole).2).2

theorem exists_of_not_measured (h : ¬Measured names) : ∃ s rest, names = "" :: s :: rest := by
  obtain ⟨hhead, hne⟩ := Classical.not_imp.1 h
  match names with
  | [] => cases hhead
  | [name] => exact absurd (congrArg (fun n => [n]) (Option.some.inj hhead)) hne
  | name :: s :: rest => exact ⟨s, rest, congrArg (· :: s :: rest) (Option.some.inj hhead)⟩

theorem Measured.of_headed (h : Headed names) : Measured names := fun hhead => absurd hhead h.2.1

/-! ## Ends -/

theorem utf8ByteSize_dotted_cons (hrest : rest ≠ []) : (dotted (name :: rest)).utf8ByteSize =
    name.utf8ByteSize + 1 + (dotted rest).utf8ByteSize := by
  have hcons : dotted (name :: rest) = name ++ "." ++ dotted rest :=
    dotted_append (List.cons_ne_nil name []) hrest
  have hdot : (".".utf8ByteSize : Nat) = 1 := by decide
  rw [hcons, String.utf8ByteSize_append, String.utf8ByteSize_append, hdot]

/-- Behind a name that is not empty, each name and its dot are counted. -/
theorem foldl_segmentEnd {stop : Nat} (hstop : 0 < stop) (hne : names ≠ []) :
    names.foldl segmentEnd stop = stop + 1 + (dotted names).utf8ByteSize := by
  induction names generalizing stop with
  | nil => exact absurd rfl hne
  | cons name rest ih =>
    have hend : segmentEnd stop name = stop + name.utf8ByteSize + 1 := if_neg (by omega)
    rw [List.foldl_cons, hend]
    by_cases hrest : rest = []
    · subst hrest
      rw [List.foldl_nil, dotted_singleton]
      omega
    · rw [ih (by omega) hrest, utf8ByteSize_dotted_cons hrest]
      omega

/-- A walk never counts more bytes than the path of the names has. -/
theorem foldl_segmentEnd_le (names : List String) :
    names.foldl segmentEnd 0 ≤ (dotted names).utf8ByteSize := by
  induction names with
  | nil => exact Nat.zero_le _
  | cons name rest ih =>
    have hend : segmentEnd 0 name = name.utf8ByteSize := if_pos rfl
    rw [List.foldl_cons, hend]
    by_cases hrest : rest = []
    · rw [hrest, List.foldl_nil, dotted_singleton]
    · rw [utf8ByteSize_dotted_cons hrest]
      by_cases hname : name.utf8ByteSize = 0
      · rw [hname]
        omega
      · rw [foldl_segmentEnd (by omega) hrest]

/-- A walk counts all bytes of measured names. -/
theorem Measured.foldl_segmentEnd_eq (h : Measured names) :
    names.foldl segmentEnd 0 = (dotted names).utf8ByteSize := by
  cases names with
  | nil => rfl
  | cons name rest =>
    have hend : segmentEnd 0 name = name.utf8ByteSize := if_pos rfl
    rw [List.foldl_cons, hend]
    by_cases hrest : rest = []
    · rw [hrest, List.foldl_nil, dotted_singleton]
    · have hname : name.utf8ByteSize ≠ 0 := by
        rw [Ne, String.utf8ByteSize_eq_zero_iff]
        rintro rfl
        exact hrest (List.cons.inj (h rfl)).2
      rw [foldl_segmentEnd (by omega) hrest, utf8ByteSize_dotted_cons hrest]

/-- Of names that are not measured a walk misses a byte at least. -/
theorem foldl_segmentEnd_lt (h : ¬Measured names) :
    names.foldl segmentEnd 0 < (dotted names).utf8ByteSize := by
  obtain ⟨s, rest, rfl⟩ := exists_of_not_measured h
  have hend : segmentEnd 0 "" = 0 := rfl
  have hle := foldl_segmentEnd_le (s :: rest)
  rw [List.foldl_cons, hend, utf8ByteSize_dotted_cons (List.cons_ne_nil s rest)]
  omega

/-! ## Starts -/

theorem utf8ByteSize_takeBytes_le (bytes : Nat) (cs : List Char) :
    (String.ofList (takeBytes bytes cs)).utf8ByteSize ≤ bytes := by
  induction cs generalizing bytes with
  | nil => exact Nat.zero_le _
  | cons c cs ih =>
    rw [takeBytes]
    split
    · have hrest := ih (bytes - c.utf8Size)
      rw [utf8ByteSize_ofList_cons]
      omega
    · exact Nat.zero_le _

/-- No start of a path has more bytes than were asked for. -/
theorem utf8ByteSize_pathStart_le (path : String) (bytes : Nat) :
    (pathStart path bytes).utf8ByteSize ≤ bytes :=
  utf8ByteSize_takeBytes_le bytes path.toList

/-- **A walk takes the right start of a path for some of its names exactly when they are
measured.** -/
theorem pathStart_foldl_iff (hne : before ≠ []) (hinitial : before <+: names) :
    pathStart (dotted names) (before.foldl segmentEnd 0) = dotted before ↔ Measured before := by
  constructor
  · intro heq
    by_contra hnot
    have hlt := foldl_segmentEnd_lt hnot
    have hle := utf8ByteSize_pathStart_le (dotted names) (before.foldl segmentEnd 0)
    rw [heq] at hle
    omega
  · intro h
    obtain ⟨behind, hpath⟩ := exists_dotted_append hne hinitial
    rw [h.foldl_segmentEnd_eq, hpath]
    exact pathStart_append (dotted before) behind

end RequestPlan
