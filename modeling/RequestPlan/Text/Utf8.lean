/-!
# Texts in UTF-8

* `encode`: the octets of a text.
* `decode`: the text of octets. Octets that start a character and do not end it, and those
  that start none, become a replacement character.
* `decode_encode`: a text is read back from its octets.
-/

namespace RequestPlan.Text.Utf8

/-- The octets of a character. -/
def encodeChar (c : Char) : List Nat :=
  let n := c.toNat
  if n < 0x80 then [n]
  else if n < 0x800 then [0xC0 + n / 0x40, 0x80 + n % 0x40]
  else if n < 0x10000 then [0xE0 + n / 0x1000, 0x80 + n / 0x40 % 0x40, 0x80 + n % 0x40]
  else [0xF0 + n / 0x40000, 0x80 + n / 0x1000 % 0x40, 0x80 + n / 0x40 % 0x40, 0x80 + n % 0x40]

/-- The octets of a text. -/
def encode (cs : List Char) : List Nat := cs.flatMap encodeChar

/-- The character that stands for octets which are no character. -/
def replacement : Char := '\uFFFD'

/-- A character of which octets are missing. -/
structure Pending where
  /-- The bits so far. -/
  bits : Nat
  /-- How many octets are missing. -/
  missing : Nat
  /-- The least octet that may come next. -/
  low : Nat
  /-- The greatest octet that may come next. -/
  high : Nat
deriving DecidableEq, Repr

/-- What an octet starts. -/
inductive Lead where
  /-- A character of one octet. -/
  | char (c : Char)
  | more (p : Pending)
  /-- No character starts with it. -/
  | none
deriving DecidableEq, Repr

/-- What an octet starts. -/
def lead (b : Nat) : Lead :=
  if b < 0x80 then .char (Char.ofNat b)
  else if b < 0xC2 then .none
  else if b ≤ 0xDF then .more ⟨b - 0xC0, 1, 0x80, 0xBF⟩
  else if b = 0xE0 then .more ⟨0, 2, 0xA0, 0xBF⟩
  else if b = 0xED then .more ⟨0xD, 2, 0x80, 0x9F⟩
  else if b ≤ 0xEF then .more ⟨b - 0xE0, 2, 0x80, 0xBF⟩
  else if b = 0xF0 then .more ⟨0, 3, 0x90, 0xBF⟩
  else if b ≤ 0xF3 then .more ⟨b - 0xF0, 3, 0x80, 0xBF⟩
  else if b = 0xF4 then .more ⟨4, 3, 0x80, 0x8F⟩
  else .none

/-- The characters that an octet completes where none is begun, and what it begins. -/
def atStart (b : Nat) : List Char × Option Pending :=
  match lead b with
  | .char c => ([c], none)
  | .more p => ([], some p)
  | .none => ([replacement], none)

/-- The characters that an octet completes, and what is begun behind it. -/
def step (pending : Option Pending) (b : Nat) : List Char × Option Pending :=
  match pending with
  | none => atStart b
  | some p =>
    if p.low ≤ b ∧ b ≤ p.high then
      let bits := p.bits * 0x40 + (b - 0x80)
      if p.missing = 1 then ([Char.ofNat bits], none)
      else ([], some ⟨bits, p.missing - 1, 0x80, 0xBF⟩)
    else (replacement :: (atStart b).1, (atStart b).2)

/-- The text of octets, behind the start of a character if there is one. -/
def decodeFrom (pending : Option Pending) : List Nat → List Char
  | [] => if pending.isSome then [replacement] else []
  | b :: bs => (step pending b).1 ++ decodeFrom (step pending b).2 bs

/-- The text of octets. -/
def decode (bs : List Nat) : List Char := decodeFrom none bs

theorem lead_of_lt {n : Nat} (h1 : 0x80 ≤ n) (h2 : n < 0x800) :
    lead (0xC0 + n / 0x40) = .more ⟨n / 0x40, 1, 0x80, 0xBF⟩ := by
  unfold lead
  rw [if_neg (by omega), if_neg (by omega), if_pos (by omega), Nat.add_sub_cancel_left]

theorem step_last {p : Pending} {b : Nat} (h : p.missing = 1) (h1 : p.low ≤ b) (h2 : b ≤ p.high) :
    step (some p) b = ([Char.ofNat (p.bits * 0x40 + (b - 0x80))], none) := by
  simp [step, h, h1, h2]

theorem step_more {p : Pending} {b : Nat} (h : p.missing ≠ 1) (h1 : p.low ≤ b)
    (h2 : b ≤ p.high) :
    step (some p) b =
      ([], some ⟨p.bits * 0x40 + (b - 0x80), p.missing - 1, 0x80, 0xBF⟩) := by
  simp [step, h, h1, h2]

theorem step_lead {b : Nat} {p : Pending} (h : lead b = .more p) : step none b = ([], some p) := by
  simp [step, atStart, h]

/-- The lead of a character of three octets leaves room for what may follow it. -/
theorem lead_three {n : Nat} (h1 : 0x800 ≤ n) (h2 : n < 0x10000)
    (hv : n < 0xD800 ∨ 0xDFFF < n) :
    ∃ low high, lead (0xE0 + n / 0x1000) = .more ⟨n / 0x1000, 2, low, high⟩ ∧
      low ≤ 0x80 + n / 0x40 % 0x40 ∧ 0x80 + n / 0x40 % 0x40 ≤ high := by
  unfold lead
  rw [if_neg (by omega), if_neg (by omega), if_neg (by omega)]
  by_cases h3 : 0xE0 + n / 0x1000 = 0xE0
  · rw [if_pos h3]
    exact ⟨_, _, by rw [show n / 0x1000 = 0 by omega], by omega, by omega⟩
  · rw [if_neg h3]
    by_cases h4 : 0xE0 + n / 0x1000 = 0xED
    · rw [if_pos h4]
      exact ⟨_, _, by rw [show n / 0x1000 = 0xD by omega], by omega, by omega⟩
    · rw [if_neg h4, if_pos (by omega), Nat.add_sub_cancel_left]
      exact ⟨_, _, rfl, by omega, by omega⟩

/-- The lead of a character of four octets leaves room for what may follow it. -/
theorem lead_four {n : Nat} (h1 : 0x10000 ≤ n) (h2 : n < 0x110000) :
    ∃ low high, lead (0xF0 + n / 0x40000) = .more ⟨n / 0x40000, 3, low, high⟩ ∧
      low ≤ 0x80 + n / 0x1000 % 0x40 ∧ 0x80 + n / 0x1000 % 0x40 ≤ high := by
  unfold lead
  rw [if_neg (by omega), if_neg (by omega), if_neg (by omega), if_neg (by omega),
    if_neg (by omega), if_neg (by omega)]
  by_cases h3 : 0xF0 + n / 0x40000 = 0xF0
  · rw [if_pos h3]
    exact ⟨_, _, by rw [show n / 0x40000 = 0 by omega], by omega, by omega⟩
  · rw [if_neg h3]
    by_cases h4 : 0xF0 + n / 0x40000 ≤ 0xF3
    · rw [if_pos h4, Nat.add_sub_cancel_left]
      exact ⟨_, _, rfl, by omega, by omega⟩
    · rw [if_neg h4, if_pos (by omega)]
      exact ⟨_, _, by rw [show n / 0x40000 = 4 by omega], by omega, by omega⟩

theorem decodeFrom_encodeChar (c : Char) (bs : List Nat) :
    decodeFrom none (encodeChar c ++ bs) = c :: decodeFrom none bs := by
  have hv : c.toNat < 0xD800 ∨ 0xDFFF < c.toNat ∧ c.toNat < 0x110000 := c.valid
  have hc : Char.ofNat c.toNat = c := Char.ofNat_toNat c
  unfold encodeChar
  simp only
  generalize c.toNat = n at hv hc ⊢
  by_cases h1 : n < 0x80
  · simp [h1, decodeFrom, step, atStart, lead, hc]
  rw [if_neg h1]
  by_cases h2 : n < 0x800
  · rw [if_pos h2]
    simp only [List.cons_append, List.nil_append, decodeFrom,
      step_lead (lead_of_lt (by omega) h2)]
    rw [step_last rfl (by simp only; omega) (by simp only; omega)]
    simp only [List.cons_append, List.nil_append]
    rw [show n / 0x40 * 0x40 + (0x80 + n % 0x40 - 0x80) = n by omega, hc]
  rw [if_neg h2]
  by_cases h3 : n < 0x10000
  · rw [if_pos h3]
    obtain ⟨low, high, hl, hlow, hhigh⟩ := lead_three (by omega) h3 (by omega)
    simp only [List.cons_append, List.nil_append, decodeFrom, step_lead hl]
    rw [step_more (by simp) hlow hhigh]
    simp only [List.nil_append]
    rw [step_last rfl (by simp only; omega) (by simp only; omega)]
    simp only [List.cons_append, List.nil_append]
    rw [show (n / 0x1000 * 0x40 + (0x80 + n / 0x40 % 0x40 - 0x80)) * 0x40 +
      (0x80 + n % 0x40 - 0x80) = n by omega, hc]
  · rw [if_neg h3]
    obtain ⟨low, high, hl, hlow, hhigh⟩ := lead_four (Nat.le_of_not_lt h3) (by omega)
    simp only [List.cons_append, List.nil_append, decodeFrom, step_lead hl]
    rw [step_more (by simp) hlow hhigh]
    simp only [List.nil_append]
    rw [step_more (by simp) (by simp only; omega) (by simp only; omega)]
    simp only [List.nil_append]
    rw [step_last rfl (by simp only; omega) (by simp only; omega)]
    simp only [List.cons_append, List.nil_append]
    rw [show ((n / 0x40000 * 0x40 + (0x80 + n / 0x1000 % 0x40 - 0x80)) * 0x40 +
      (0x80 + n / 0x40 % 0x40 - 0x80)) * 0x40 + (0x80 + n % 0x40 - 0x80) = n by omega, hc]

/-- **A text is read back from its octets.** -/
theorem decode_encode (cs : List Char) : decode (encode cs) = cs := by
  unfold decode encode
  induction cs with
  | nil => rfl
  | cons c cs ih => rw [List.flatMap_cons, decodeFrom_encodeChar, ih]

end RequestPlan.Text.Utf8
