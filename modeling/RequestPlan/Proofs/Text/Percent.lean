import Mathlib.Data.List.Basic
import RequestPlan.Text.Percent

/-!
# Spellings of texts in query strings

* `Spells`: how octets may be written in a query string, where any of them may be written in
  hexadecimal digits.
* `exists_spells`: every text can be written so that it is told from what stands around it.
* `decodeQuery_of_spells`: **each spelling of a text is read as the text**, whatever else of it is
  written in hexadecimal digits.
-/

namespace RequestPlan.Text

/-- The characters that have a meaning in a query string. -/
def queryMarks : List Char := ['&', '=', '+', '%', '?']

/-- The digits for a number below sixteen, in small and in capital letters. -/
def digitChars (n : Nat) : List Char := [n.digitChar, n.digitChar.toUpper]

/-- Octets may be written so in a query string. A character without a meaning there may stand for
itself, `+` stands for a blank, and `%` with two hexadecimal digits for any octet. -/
inductive Spells : List Nat → List Char → Prop
  | nil : Spells [] []
  | plain {c : Char} {bs : List Nat} {cs : List Char} (hc : c ∉ queryMarks) (rest : Spells bs cs) :
      Spells (Utf8.encodeChar c ++ bs) (c :: cs)
  | blank {bs : List Nat} {cs : List Char} (rest : Spells bs cs) :
      Spells (Utf8.encodeChar ' ' ++ bs) ('+' :: cs)
  | octet {b : Nat} {high low : Char} {bs : List Nat} {cs : List Char} (hb : b < 256)
      (hhigh : high ∈ digitChars (b / 16)) (hlow : low ∈ digitChars (b % 16))
      (rest : Spells bs cs) :
      Spells (b :: bs) ('%' :: high :: low :: cs)

variable {c : Char} {cs : List Char} {b : Nat} {bs : List Nat}

/-! ## Digits -/

theorem digitChars_spec : ∀ n < 16, ∀ c ∈ digitChars n,
    hexValue? c.toNat = some n ∧ c.toNat < 0x80 ∧ c ∉ queryMarks := by
  have hdigits : ∀ n < 16, (digitChars n).Forall fun c =>
      hexValue? c.toNat = some n ∧ c.toNat < 0x80 ∧ c ∉ queryMarks := by
    decide
  exact fun n hn => List.forall_iff_forall_mem.1 (hdigits n hn)

theorem hexOctet?_of_mem (hb : b < 256) {high low : Char} (hhigh : high ∈ digitChars (b / 16))
    (hlow : low ∈ digitChars (b % 16)) : hexOctet? high.toNat low.toNat = some b := by
  have hfirst := (digitChars_spec (b / 16) (by omega) high hhigh).1
  have hsecond := (digitChars_spec (b % 16) (by omega) low hlow).1
  rw [hexOctet?, hfirst, hsecond]
  exact congrArg some (Nat.div_add_mod b 16)

/-! ## Spellings -/

/-- Characters without a meaning in a query string spell themselves. -/
theorem spells_of_plain (h : ∀ c ∈ cs, c ∉ queryMarks) : Spells (Utf8.encode cs) cs := by
  induction cs with
  | nil => exact .nil
  | cons c cs ih =>
    rw [List.forall_mem_cons] at h
    exact .plain h.1 (ih h.2)

/-- Every text has a spelling. -/
theorem exists_spells (cs : List Char) : ∃ ds, Spells (Utf8.encode cs) ds := by
  have hmark : ∀ c ∈ queryMarks, Utf8.encodeChar c = [c.toNat] ∧ c.toNat < 256 := by
    simp [queryMarks, Utf8.encodeChar]
  induction cs with
  | nil => exact ⟨[], .nil⟩
  | cons c cs ih =>
    obtain ⟨ds, hds⟩ := ih
    rw [Utf8.encode, List.flatMap_cons]
    by_cases hc : c ∈ queryMarks
    · obtain ⟨hchar, hlt⟩ := hmark c hc
      rw [hchar]
      exact ⟨_, .octet hlt List.mem_cons_self List.mem_cons_self hds⟩
    · exact ⟨c :: ds, .plain hc hds⟩

/-- Of the characters with a meaning in a query string a spelling has no others than these. -/
theorem Spells.mark_eq (h : Spells bs cs) (hc : c ∈ cs) (hmark : c ∈ queryMarks) :
    c = '+' ∨ c = '%' := by
  induction h with
  | nil => cases hc
  | plain hplain rest ih =>
    rcases List.mem_cons.1 hc with rfl | hc
    · exact absurd hmark hplain
    · exact ih hc
  | blank rest ih =>
    rcases List.mem_cons.1 hc with rfl | hc
    · exact .inl rfl
    · exact ih hc
  | @octet b high low bs cs hb hhigh hlow rest ih =>
    rcases List.mem_cons.1 hc with rfl | hc
    · exact .inr rfl
    rcases List.mem_cons.1 hc with rfl | hc
    · exact absurd hmark (digitChars_spec (b / 16) (by omega) c hhigh).2.2
    rcases List.mem_cons.1 hc with rfl | hc
    · exact absurd hmark (digitChars_spec (b % 16) (by omega) c hlow).2.2
    · exact ih hc

theorem Spells.not_mem (h : Spells bs cs) (hmark : c ∈ ['&', '=', '?']) : c ∉ cs := by
  have hmarks : ∀ c ∈ ['&', '=', '?'], c ∈ queryMarks ∧ c ≠ '+' ∧ c ≠ '%' := by
    simp [queryMarks]
  obtain ⟨hmem, hplus, hpercent⟩ := hmarks c hmark
  intro hc
  rcases h.mark_eq hc hmem with heq | heq
  · exact hplus heq
  · exact hpercent heq

/-! ## Reading -/

theorem percentDecode_cons (h : b ≠ 0x25) : percentDecode (b :: bs) = b :: percentDecode bs := by
  match bs with
  | [] | [_] => rfl
  | _ :: _ :: _ => rw [percentDecode, if_neg h]

theorem percentDecode_append (h : ∀ b ∈ bs, b ≠ 0x25) (rest : List Nat) :
    percentDecode (bs ++ rest) = bs ++ percentDecode rest := by
  induction bs with
  | nil => rfl
  | cons b bs ih =>
    rw [List.forall_mem_cons] at h
    rw [List.cons_append, percentDecode_cons h.1, ih h.2, List.cons_append]

/-- No other character has the octet of the percent sign. -/
theorem ne_of_mem_encodeChar (hc : c ≠ '%') (hb : b ∈ Utf8.encodeChar c) : b ≠ 0x25 := by
  have hne : c.toNat ≠ 0x25 := fun heq => hc (Char.toNat_inj.1 heq)
  unfold Utf8.encodeChar at hb
  dsimp only at hb
  -- all octets of a longer character are beyond ASCII
  split at hb
  · exact List.mem_singleton.1 hb ▸ hne
  split at hb
  · simp only [List.mem_cons, List.not_mem_nil, or_false] at hb
    omega
  split at hb
  · simp only [List.mem_cons, List.not_mem_nil, or_false] at hb
    omega
  · simp only [List.mem_cons, List.not_mem_nil, or_false] at hb
    omega

/-- **Each spelling of octets is read as the octets.** -/
theorem decodeQuery_of_spells (h : Spells bs cs) : decodeQuery cs = Utf8.decode bs := by
  refine congrArg Utf8.decode ?_
  have hsingle : ∀ c : Char, c.toNat < 0x80 → Utf8.encodeChar c = [c.toNat] := by
    intro c hc
    unfold Utf8.encodeChar
    exact if_pos hc
  induction h with
  | nil => rfl
  | @plain c bs cs hc rest ih =>
    have hplus : c ≠ '+' := by
      rintro rfl
      exact hc (by decide)
    have hpercent : c ≠ '%' := by
      rintro rfl
      exact hc (by decide)
    rw [List.map_cons, if_neg hplus, Utf8.encode, List.flatMap_cons,
      percentDecode_append fun b hb => ne_of_mem_encodeChar hpercent hb]
    exact congrArg (Utf8.encodeChar c ++ ·) ih
  | @blank bs cs rest ih =>
    rw [List.map_cons, if_pos rfl, Utf8.encode, List.flatMap_cons,
      percentDecode_append fun b hb => ne_of_mem_encodeChar (by decide) hb]
    exact congrArg (Utf8.encodeChar ' ' ++ ·) ih
  | @octet b high low bs cs hb hhigh hlow rest ih =>
    obtain ⟨-, hhigh80, hhighMark⟩ := digitChars_spec (b / 16) (by omega) high hhigh
    obtain ⟨-, hlow80, hlowMark⟩ := digitChars_spec (b % 16) (by omega) low hlow
    have hplus : ∀ c ∉ queryMarks, c ≠ '+' := by
      rintro c hc rfl
      exact hc (by decide)
    rw [List.map_cons, List.map_cons, List.map_cons, if_neg (by decide), if_neg (hplus _ hhighMark),
      if_neg (hplus _ hlowMark), Utf8.encode, List.flatMap_cons, List.flatMap_cons,
      List.flatMap_cons, hsingle '%' (by decide), hsingle high hhigh80, hsingle low hlow80]
    show percentDecode (0x25 :: high.toNat :: low.toNat :: _) = _
    rw [percentDecode, if_pos rfl, hexOctet?_of_mem hb hhigh hlow]
    exact congrArg (b :: ·) ih

end RequestPlan.Text
