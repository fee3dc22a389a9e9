import RequestPlan.Text.Blank
import RequestPlan.Text.Case

/-!
# ASCII capitals

* `comp_toLower`: what is the same for each ASCII capital and its small letter is the same for all
  characters and their ASCII lower case.
* `asciiLower_asciiLower`, `trim_asciiLower`: ASCII lower case changes nothing twice, and no blanks.
* `lower_asciiLower`: **lower case does not depend on the case of ASCII letters**, the form of a
  final sigma behind or before one included.
-/

namespace RequestPlan.Text

/-- The ASCII capitals. -/
def capitals : List Char := (List.range' 0x41 26).map Char.ofNat

theorem toLower_of_not_mem_capitals {c : Char} (h : c ∉ capitals) : c.toLower = c := by
  refine dif_neg fun hrange => h (List.mem_map.2 ⟨c.toNat, ?_, Char.ofNat_toNat c⟩)
  have hfirst : 0x41 ≤ c.toNat := hrange.1
  have hlast : c.toNat ≤ 0x5A := hrange.2
  rw [List.mem_range'_1]
  omega

/-- **What no ASCII capital has apart from its small letter, no character has.** -/
theorem comp_toLower {α : Type} {f : Char → α}
    (h : capitals.map (f ∘ Char.toLower) = capitals.map f) : f ∘ Char.toLower = f := by
  funext c
  by_cases hc : c ∈ capitals
  · exact List.map_inj_left.1 h c hc
  · exact congrArg f (toLower_of_not_mem_capitals hc)

/-! ## ASCII lower case -/

theorem toLower_toLower : Char.toLower ∘ Char.toLower = Char.toLower := comp_toLower (by decide)

theorem isBlank_toLower : isBlank ∘ Char.toLower = isBlank := comp_toLower (by decide)

@[simp] theorem asciiLower_asciiLower (s : String) : asciiLower (asciiLower s) = asciiLower s := by
  rw [asciiLower, asciiLower, String.toList_ofList, List.map_map, toLower_toLower]

theorem trimChars_map_toLower (cs : List Char) :
    trimChars (cs.map Char.toLower) = (trimChars cs).map Char.toLower := by
  unfold trimChars
  rw [List.dropWhile_map, isBlank_toLower, ← List.map_reverse, List.dropWhile_map, isBlank_toLower,
    ← List.map_reverse]

theorem trim_asciiLower (s : String) : trim (asciiLower s) = asciiLower (trim s) := by
  rw [trim, trim, asciiLower, asciiLower, String.toList_ofList, String.toList_ofList,
    trimChars_map_toLower]

theorem isEmpty_asciiLower (s : String) : (asciiLower s).isEmpty = s.isEmpty := by
  rw [Bool.eq_iff_iff, String.isEmpty_iff, String.isEmpty_iff, asciiLower,
    String.ofList_eq_empty_iff, List.map_eq_nil_iff, String.toList_eq_nil_iff]

/-! ## Lower case -/

theorem lowerChar_toLower : lowerChar ∘ Char.toLower = lowerChar := comp_toLower (by decide)

theorem isSigma_toLower :
    (fun c => c.toNat == 0x3A3) ∘ Char.toLower = fun c => c.toNat == 0x3A3 :=
  comp_toLower (by decide)

theorem caseIgnorable_toLower : caseIgnorable.has ∘ Char.toLower = caseIgnorable.has :=
  comp_toLower (by decide +kernel)

theorem cased_toLower : cased.has ∘ Char.toLower = cased.has := comp_toLower (by decide +kernel)

/-- Whether a letter with a case is met does not depend on the case. -/
theorem meetsCased_map_toLower (cs : List Char) :
    meetsCased (cs.map Char.toLower) = meetsCased cs := by
  unfold meetsCased
  rw [List.dropWhile_map, caseIgnorable_toLower]
  cases cs.dropWhile caseIgnorable.has with
  | nil => rfl
  | cons c cs => exact congrFun cased_toLower c

theorem lowerFrom_map_toLower (before cs : List Char) :
    lowerFrom (before.map Char.toLower) (cs.map Char.toLower) = lowerFrom before cs := by
  induction cs generalizing before with
  | nil => rfl
  | cons c cs ih =>
    have hsigma : (c.toLower.toNat == 0x3A3) = (c.toNat == 0x3A3) := congrFun isSigma_toLower c
    have hchar : lowerChar c.toLower = lowerChar c := congrFun lowerChar_toLower c
    rw [List.map_cons, lowerFrom, lowerFrom, meetsCased_map_toLower, meetsCased_map_toLower, hsigma,
      hchar, ← List.map_cons, ih]

/-- **Lower case does not depend on the case of ASCII letters.** -/
theorem lower_asciiLower (s : String) : lower (asciiLower s) = lower s := by
  rw [lower, lower, asciiLower, String.toList_ofList]
  exact congrArg String.ofList (lowerFrom_map_toLower [] s.toList)

end RequestPlan.Text
