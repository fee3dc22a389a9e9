import Mathlib.Data.List.Forall2
import Mathlib.Data.List.TakeWhile
import RequestPlan.Proofs.Text.Case

/-!
# Blanks around a text

* `Blank`, `Neat`: texts of white space only, and texts that neither start nor end with any.
* `trim_eq_iff`: **a text is trimmed to the neat one between its blanks**.
* `Says`: a word with its letters in any case, and with any blanks around it; `says_iff`: it is the
  word when it is trimmed and taken to ASCII lower case.
-/

namespace RequestPlan.Text

/-- Nothing but white space. -/
def Blank (s : String) : Prop := ∀ c ∈ s.toList, isBlank c = true

instance (s : String) : Decidable (Blank s) := List.decidableBAll _ s.toList

/-- No white space at either end. -/
structure Neat (s : String) : Prop where
  head : ∀ c, s.toList.head? = some c → isBlank c = false
  last : ∀ c, s.toList.getLast? = some c → isBlank c = false

variable {s t word use : String} {cs ds : List Char}

/-! ## Trimming -/

theorem head?_dropWhile_isBlank {c : Char} (h : (cs.dropWhile isBlank).head? = some c) :
    isBlank c = false := by
  have hfirst := List.head?_dropWhile_not isBlank cs
  rwa [h] at hfirst

theorem trimChars_prefix (cs : List Char) : trimChars cs <+: cs.dropWhile isBlank := by
  have hback := List.reverse_prefix.2
    (List.dropWhile_suffix isBlank (l := (cs.dropWhile isBlank).reverse))
  rwa [List.reverse_reverse] at hback

theorem neat_trim (s : String) : Neat (trim s) where
  head c hc := by
    rw [trim, String.toList_ofList] at hc
    obtain ⟨rest, hrest⟩ := trimChars_prefix s.toList
    have hfirst : (s.toList.dropWhile isBlank).head? = some c := by
      rw [← hrest, List.head?_append, hc, Option.some_or]
    exact head?_dropWhile_isBlank hfirst
  last c hc := by
    rw [trim, String.toList_ofList, trimChars, List.getLast?_reverse] at hc
    exact head?_dropWhile_isBlank hc

/-- What is taken off at either end is white space. -/
theorem exists_append_trim (s : String) :
    ∃ before after, Blank before ∧ Blank after ∧ s = before ++ trim s ++ after := by
  let rest := s.toList.dropWhile isBlank
  have hfront : s.toList.takeWhile isBlank ++ rest = s.toList := List.takeWhile_append_dropWhile
  have hback : trimChars s.toList ++ (rest.reverse.takeWhile isBlank).reverse = rest := by
    have hreverse := congrArg List.reverse
      (List.takeWhile_append_dropWhile (p := isBlank) (l := rest.reverse))
    rwa [List.reverse_append, List.reverse_reverse] at hreverse
  refine ⟨String.ofList (s.toList.takeWhile isBlank),
    String.ofList (rest.reverse.takeWhile isBlank).reverse, fun c hc => ?_, fun c hc => ?_, ?_⟩
  · rw [String.toList_ofList] at hc
    exact List.mem_takeWhile_imp hc
  · rw [String.toList_ofList, List.mem_reverse] at hc
    exact List.mem_takeWhile_imp hc
  · rw [← String.toList_inj, String.toList_append, String.toList_append, trim, String.toList_ofList,
      String.toList_ofList, String.toList_ofList, List.append_assoc, hback, hfront]

/-- **A text is trimmed to the neat one between its blanks.** -/
theorem trim_eq_iff : trim s = t ↔
    Neat t ∧ ∃ before after, Blank before ∧ Blank after ∧ s = before ++ t ++ after := by
  constructor
  · rintro rfl
    exact ⟨neat_trim s, exists_append_trim s⟩
  · rintro ⟨hneat, before, after, hbefore, hafter, rfl⟩
    have hdrop : (t.toList ++ after.toList).dropWhile isBlank = t.toList ++ after.toList ∨
        t.toList = [] := by
      cases ht : t.toList with
      | nil => exact .inr rfl
      | cons c cs =>
        exact .inl (List.dropWhile_cons_of_neg (by simp [hneat.head c (by rw [ht]; rfl)]))
    have hback : (after.toList.reverse ++ t.toList.reverse).dropWhile isBlank =
        t.toList.reverse := by
      rw [List.dropWhile_append_of_pos fun c hc => hafter c (List.mem_reverse.1 hc)]
      exact dropWhile_eq_self fun c hc => hneat.last c (by rwa [List.head?_reverse] at hc)
    rw [trim, trimChars, String.toList_append, String.toList_append, List.append_assoc,
      List.dropWhile_append_of_pos hbefore]
    rcases hdrop with hdrop | hnil
    · rw [hdrop, List.reverse_append, hback, List.reverse_reverse, String.ofList_toList]
    · have hnone : after.toList.dropWhile isBlank = [] := List.dropWhile_eq_nil_iff.2 hafter
      rw [hnil, List.nil_append, hnone, ← String.toList_inj, hnil]
      rfl

/-- Of a blank text nothing is left. -/
theorem trim_eq_empty_iff : trim s = "" ↔ Blank s := by
  rw [trim_eq_iff]
  constructor
  · rintro ⟨-, before, after, hbefore, hafter, rfl⟩ c hc
    rw [String.append_empty, String.toList_append, List.mem_append] at hc
    exact hc.elim (hbefore c) (hafter c)
  · intro h
    have hneat : Neat "" := ⟨nofun, nofun⟩
    exact ⟨hneat, s, "", h, nofun, by rw [String.append_empty, String.append_empty]⟩

theorem isEmpty_trim_iff : (trim s).isEmpty = true ↔ Blank s := by
  rw [String.isEmpty_iff, trim_eq_empty_iff]

theorem nonBlank?_eq_none_iff : nonBlank? s = none ↔ Blank s := by
  rw [← isEmpty_trim_iff, nonBlank?]
  split <;> simp_all

theorem nonBlank?_eq_some_iff : nonBlank? s = some t ↔ ¬Blank s ∧ trim s = t := by
  rw [← isEmpty_trim_iff, nonBlank?]
  split <;> simp_all

/-! ## Words in any case -/

/-- A word with its letters in any case, and with any blanks around it. -/
def Says (word use : String) : Prop :=
  ∃ before letters after, Blank before ∧ Blank after ∧ word = before ++ letters ++ after ∧
    List.Forall₂ (fun c d => c = d ∨ c = d.toUpper) letters.toList use.toList

/-- A word that is written in small letters. -/
def Small (use : String) : Prop :=
  ∀ d ∈ use.toList, d.toLower = d ∧ d.toUpper.toLower = d ∧ isBlank d = false

instance (use : String) : Decidable (Small use) := List.decidableBAll _ use.toList

theorem toUpper_toLower_of_mem_capitals {c : Char} (h : c ∈ capitals) : c.toLower.toUpper = c := by
  have hall : capitals.map (fun c => c.toLower.toUpper) = capitals.map id := by decide
  exact List.map_inj_left.1 hall c h

/-- Letters in any case are the same in lower case. -/
theorem forall₂_iff_map_toLower (huse : ∀ d ∈ ds, d.toLower = d ∧ d.toUpper.toLower = d) :
    List.Forall₂ (fun c d => c = d ∨ c = d.toUpper) cs ds ↔ cs.map Char.toLower = ds := by
  induction ds generalizing cs with
  | nil => simp
  | cons d ds ih =>
    obtain ⟨⟨hlower, hupper⟩, hds⟩ := List.forall_mem_cons.1 huse
    cases cs with
    | nil => simp
    | cons c cs =>
      rw [List.forall₂_cons, ih hds, List.map_cons, List.cons.injEq]
      refine and_congr_left' ⟨?_, ?_⟩
      · rintro (rfl | rfl)
        · exact hlower
        · exact hupper
      · rintro rfl
        by_cases hc : c ∈ capitals
        · exact .inr (toUpper_toLower_of_mem_capitals hc).symm
        · exact .inl (toLower_of_not_mem_capitals hc).symm

theorem isBlank_of_mem_letters (huse : Small use) (h : s.toList.map Char.toLower = use.toList)
    {c : Char} (hc : c ∈ s.toList) : isBlank c = false := by
  have hlower : c.toLower ∈ use.toList := h ▸ List.mem_map_of_mem hc
  rw [← (huse _ hlower).2.2]
  exact (congrFun isBlank_toLower c).symm

/-- **A word in any case is read by trimming it and taking it to lower case.** -/
theorem says_iff (huse : Small use) : Says word use ↔ asciiLower (trim word) = use := by
  have hletters : ∀ letters : String,
      List.Forall₂ (fun c d => c = d ∨ c = d.toUpper) letters.toList use.toList ↔
        asciiLower letters = use := by
    intro letters
    rw [forall₂_iff_map_toLower fun d hd => ⟨(huse d hd).1, (huse d hd).2.1⟩, asciiLower,
      ← String.toList_inj, String.toList_ofList]
  constructor
  · rintro ⟨before, letters, after, hbefore, hafter, hword, hsame⟩
    rw [hletters] at hsame
    have hchars : letters.toList.map Char.toLower = use.toList := by
      rw [← hsame, asciiLower, String.toList_ofList]
    have hneat : Neat letters :=
      ⟨fun c hc => isBlank_of_mem_letters huse hchars (List.mem_of_head? hc),
        fun c hc => isBlank_of_mem_letters huse hchars (List.mem_of_getLast? hc)⟩
    rw [trim_eq_iff.2 ⟨hneat, before, after, hbefore, hafter, hword⟩, hsame]
  · intro h
    obtain ⟨before, after, hbefore, hafter, hword⟩ := exists_append_trim word
    exact ⟨before, trim word, after, hbefore, hafter, hword, (hletters _).2 h⟩

end RequestPlan.Text
