import Mathlib.Data.List.Basic
import Mathlib.Logic.ExistsUnique
import RequestPlan.Paging

/-!
# Windows of rows

* `Params.IntegersIn`: what is given under some names is null, an integer or the text of one, and
  `PageRequest.ofParams_eq` says what is asked for then.
* `PageRequest.start`, `Settings.rows`: how many rows are passed over and taken, with no bound on
  the numbers; `PageRequest.window_eq_ok_iff`: **a window has exactly these numbers**, and
  `PageRequest.window_eq_error_iff`: there is none exactly when they do not fit.
* `Settings.Tiles`: the pages of one size lie side by side, so that each row is on one of them
  (`Settings.tiles`).
-/

namespace RequestPlan

/-! ## Integers in parameters -/

/-- Where a value is an integer, or a text that spells one, this is the number that it names. -/
theorem Value.whole?_of_int? {v : Value} {n : Int64} (h : v.int? = some n) : v.whole? = some n := by
  cases v with
  | int m => exact h
  | string s =>
    rw [int?] at h
    rw [whole?, h]
  | _ => cases h

/-- A value is null, an integer, or a text that spells one. -/
def Value.IsInteger (v : Value) : Prop := v = .null ∨ ∃ n, v.int? = some n

namespace Params

variable {ps : Params} {names : List String}

/-- What is given under some names is null, an integer, or a text that spells one. -/
def IntegersIn (ps : Params) (names : List String) : Prop :=
  ∀ name ∈ names, ∀ v, ps.find? name = some v → v.IsInteger

/-- The first integer that is given under one of several names. -/
def int? (ps : Params) (names : List String) : Option Int64 := (ps.first? names).bind Value.int?

/-- Where integers are given, the first value other than null is one. -/
theorem IntegersIn.first?_cases (h : ps.IntegersIn names) :
    (ps.first? names = none ∧ ps.int? names = none) ∨
      ∃ v n, ps.first? names = some v ∧ v.whole? = some n ∧ ps.int? names = some n := by
  cases hfirst : ps.first? names with
  | none => exact .inl ⟨rfl, by rw [int?, hfirst, Option.bind_none]⟩
  | some v =>
    obtain ⟨name, hname, hfind⟩ := List.mem_filterMap.1 (List.mem_of_find?_eq_some hfirst)
    have hnull : v.isNull = false := by simpa using List.find?_some hfirst
    rcases h name hname v hfind with rfl | ⟨n, hn⟩
    · cases hnull
    · exact .inr ⟨v, n, rfl, Value.whole?_of_int? hn, by rw [int?, hfirst, Option.bind_some, hn]⟩

theorem integersIn_of_entries (h : ∀ e ∈ ps.entries, e.2.IsInteger) (names : List String) :
    ps.IntegersIn names := fun _ _ _ hfind => h _ (Entries.mem_of_find? hfind)

theorem IntegersIn.whole?_first? (h : ps.IntegersIn names) :
    (ps.first? names).bind Value.whole? = ps.int? names := by
  rcases h.first?_cases with ⟨hfirst, hint⟩ | ⟨v, n, hfirst, hwhole, hint⟩
  · rw [hfirst, hint, Option.bind_none]
  · rw [hfirst, hint, Option.bind_some, hwhole]

end Params

/-! ## Rows of a page -/

theorem toNat_clampToWord (n : Int64) : (clampToWord n).toNat = n.toInt.toNat := by
  have hlast : n.toInt ≤ 2 ^ 63 - 1 := n.toInt_le
  have hfits : n.toInt.toNat < 2 ^ 64 := by omega
  exact UInt64.toNat_ofNat_of_lt' hfits

namespace Settings

/-- The rows of a page that are wanted, as a natural number: what is asked for if that is positive,
or else the default. -/
def wanted (settings : Settings) : Option Int → Nat
  | some n => if 0 < n then n.toNat else settings.defaultPageSize.toNat
  | none => settings.defaultPageSize.toNat

/-- The rows of a page, as a natural number: what is wanted, and no more than the most. -/
def rows (settings : Settings) (size : Option Int) : Nat :=
  match settings.maxPageSize with
  | some most => min (settings.wanted size) most.toNat
  | none => settings.wanted size

theorem rows_le {settings : Settings} {most : UInt64} (h : settings.maxPageSize = some most)
    (size : Option Int) : settings.rows size ≤ most.toNat := by
  unfold rows
  rw [h]
  exact Nat.min_le_right _ _

/-- What is taken where there is no most is what is wanted. -/
theorem toNat_clampPageSize_of_none (settings : Settings) (size : Option UInt64) :
    ({ settings with maxPageSize := none }.clampPageSize size).toNat =
      settings.wanted (size.map fun n => (n.toNat : Int)) := by
  cases size with
  | none => rfl
  | some n =>
    show (if n = 0 then settings.defaultPageSize else n).toNat =
      if 0 < (n.toNat : Int) then n.toNat else settings.defaultPageSize.toNat
    by_cases hn : n = 0
    · rw [if_pos hn, hn, if_neg (by decide)]
    · have hpos : n.toNat ≠ 0 := fun h => hn (UInt64.toNat_inj.1 h)
      rw [if_neg hn, if_pos (by omega)]

theorem toNat_clampPageSize (settings : Settings) (size : Option UInt64) :
    (settings.clampPageSize size).toNat = settings.rows (size.map fun n => (n.toNat : Int)) := by
  have hwanted := settings.toNat_clampPageSize_of_none size
  obtain ⟨defaultPageSize, most?, _, _, _⟩ := settings
  cases most? with
  | none => exact hwanted
  | some most => exact (UInt64.toNat_min _ most).trans (congrArg (min · most.toNat) hwanted)

/-- Of what parameters ask for, no more counts than whether it is positive. -/
theorem rows_clampToWord (settings : Settings) (size : Option Int64) :
    settings.rows ((size.map clampToWord).map fun n => (n.toNat : Int)) =
      settings.rows (size.map Int64.toInt) := by
  have hwanted : settings.wanted ((size.map clampToWord).map fun n => (n.toNat : Int)) =
      settings.wanted (size.map Int64.toInt) := by
    cases size with
    | none => rfl
    | some n =>
      rw [Option.map_some, Option.map_some, Option.map_some, wanted, wanted, toNat_clampToWord]
      by_cases hn : 0 < n.toInt
      · rw [if_pos hn, if_pos (by omega)]
        rfl
      · rw [if_neg hn, if_neg (by omega)]
  rw [rows, rows, hwanted]

end Settings

/-! ## Windows -/

theorem Window.eq_of_toNat {w w' : Window} (hskip : w.skip.toNat = w'.skip.toNat)
    (htake : w.take = w'.take) : w = w' := by
  obtain ⟨skip, take⟩ := w
  obtain ⟨skip', take'⟩ := w'
  cases UInt64.toNat_inj.1 hskip
  cases htake
  rfl

/-- Whether a row is in a window. -/
def Window.Has (w : Window) (row : Nat) : Prop :=
  w.skip.toNat ≤ row ∧ row < w.skip.toNat + w.take.toNat

namespace PageRequest

variable {settings : Settings} {request : PageRequest} {w : Window}

/-- How many rows a request asks for. -/
def size? : PageRequest → Option UInt64
  | .page _ size | .offset _ size => size

/-- How many rows a request passes over, with no bound on the number. -/
def start (settings : Settings) : PageRequest → Nat
  | .page number size =>
    (max number.toInt 1 - 1).toNat * (settings.clampPageSize size).toNat
  | .offset skip _ => skip.toNat

theorem window_page (number : Int64) (size : Option UInt64) :
    (page number size).window settings =
      if (page number size).start settings < UInt64.size then
        .ok ⟨UInt64.ofNat ((page number size).start settings), settings.clampPageSize size⟩
      else .error (.plan (.windowOverflow (UInt64.ofNat (max number.toInt 1).toNat)
        (settings.clampPageSize size))) := by
  have hstart : ((max number.toInt 1).toNat - 1) * (settings.clampPageSize size).toNat =
      (page number size).start settings := by
    rw [start]
    congr 1
    omega
  rw [window, Window.ofPage, hstart]
  by_cases hfits : (page number size).start settings < UInt64.size
  · rw [if_pos hfits, if_pos hfits]
  · rw [if_neg hfits, if_neg hfits]

/-- **A window has exactly the numbers that are asked for.** -/
theorem window_eq_ok_iff : request.window settings = .ok w ↔
    w.skip.toNat = request.start settings ∧ w.take = settings.clampPageSize request.size? := by
  cases request with
  | page number size =>
    rw [window_page]
    by_cases hfits : (page number size).start settings < UInt64.size
    · have hskip := UInt64.toNat_ofNat_of_lt' hfits
      rw [if_pos hfits]
      constructor
      · rintro h
        cases h
        exact ⟨hskip, rfl⟩
      · rintro ⟨hw, htake⟩
        exact congrArg Except.ok (Window.eq_of_toNat (hskip.trans hw.symm) htake.symm)
    · rw [if_neg hfits]
      refine iff_of_false nofun fun ⟨hw, _⟩ => hfits ?_
      rw [← hw]
      exact w.skip.toNat_lt
  | offset skip size =>
    constructor
    · rintro h
      cases h
      exact ⟨rfl, rfl⟩
    · rintro ⟨hw, htake⟩
      exact congrArg Except.ok (Window.eq_of_toNat hw.symm htake.symm)

/-- **There is no window exactly when the rows that are passed over do not fit into 64 bits.** -/
theorem window_eq_error_iff : (∃ err, request.window settings = .error err) ↔
    UInt64.size ≤ request.start settings := by
  constructor
  · rintro ⟨err, herr⟩
    refine Nat.le_of_not_lt fun hfits => ?_
    -- the window with these numbers would be the one of the request
    have hskip : (UInt64.ofNat (request.start settings)).toNat = request.start settings :=
      UInt64.toNat_ofNat_of_lt' hfits
    have hok : request.window settings =
        .ok ⟨UInt64.ofNat (request.start settings), settings.clampPageSize request.size?⟩ :=
      window_eq_ok_iff.2 ⟨hskip, rfl⟩
    rw [herr] at hok
    cases hok
  · intro hlarge
    cases hwindow : request.window settings with
    | error err => exact ⟨err, rfl⟩
    | ok w =>
      have hskip := (window_eq_ok_iff.1 hwindow).1
      have hword : w.skip.toNat < UInt64.size := w.skip.toNat_lt_size
      omega

/-- Where integers are given, a page wins over an offset, and without either the first page is
asked for. -/
theorem ofParams_eq {names : ParameterNames} {ps : Params}
    (h : ps.IntegersIn (names.page ++ names.pageSize ++ names.skip)) :
    let size := (ps.int? names.pageSize).map clampToWord
    ofParams names ps = match ps.int? names.page, ps.int? names.skip with
      | none, some skip => .offset (clampToWord skip) size
      | number?, _ => .page (number?.getD 1) size := by
  have hpage : ps.IntegersIn names.page := fun name hname => h name (by simp [hname])
  have hsize : ps.IntegersIn names.pageSize := fun name hname => h name (by simp [hname])
  have hskip : ps.IntegersIn names.skip := fun name hname => h name (by simp [hname])
  unfold ofParams
  rw [hsize.whole?_first?, hskip.whole?_first?]
  rcases hpage.first?_cases with ⟨hfirst, hint⟩ | ⟨v, n, hfirst, hwhole, hint⟩
  · rw [hfirst, hint]
    cases ps.int? names.skip <;> rfl
  · rw [hfirst, hint]
    dsimp only
    rw [hwhole]

/-- The rows that are asked for, as they are taken. -/
theorem rows_ofParams {ps : Params}
    (h : ps.IntegersIn (settings.names.page ++ settings.names.pageSize ++ settings.names.skip)) :
    settings.rows ((ofParams settings.names ps).size?.map fun n => (n.toNat : Int)) =
      settings.rows ((ps.int? settings.names.pageSize).map Int64.toInt) := by
  have hsize : (ofParams settings.names ps).size? =
      (ps.int? settings.names.pageSize).map clampToWord := by
    rw [ofParams_eq h]
    split <;> rfl
  rw [hsize, Settings.rows_clampToWord]

/-- The rows in front of those that are asked for. -/
theorem start_ofParams {ps : Params}
    (h : ps.IntegersIn (settings.names.page ++ settings.names.pageSize ++ settings.names.skip)) :
    (ofParams settings.names ps).start settings =
      match ps.int? settings.names.page, ps.int? settings.names.skip with
      | none, some skip => (max skip.toInt 0).toNat
      | number?, _ => (max (number?.getD 1).toInt 1 - 1).toNat *
        settings.rows ((ps.int? settings.names.pageSize).map Int64.toInt) := by
  have hpage (number : Int64) :
      (page number ((ps.int? settings.names.pageSize).map clampToWord)).start settings =
        (max number.toInt 1 - 1).toNat *
          settings.rows ((ps.int? settings.names.pageSize).map Int64.toInt) := by
    rw [start, Settings.toNat_clampPageSize, Settings.rows_clampToWord]
  rw [ofParams_eq h]
  cases ps.int? settings.names.page with
  | some number => exact hpage number
  | none =>
    cases ps.int? settings.names.skip with
    | none => exact hpage 1
    | some skip =>
      show (clampToWord skip).toNat = (max skip.toInt 0).toNat
      rw [toNat_clampToWord]
      omega

end PageRequest

/-! ## Pages side by side -/

open PageRequest (page)

/-- The pages of one size lie side by side: lower pages are the first, each page starts where the
one in front of it ends, and what is in front of the end of a page is on one page up to it. -/
structure Settings.Tiles (settings : Settings) (size : Option UInt64) : Prop where
  first : ∀ {number : Int64}, number.toInt < 1 →
    (page number size).window settings = (page 1 size).window settings
  next : ∀ {number next : Int64} {w w' : Window}, 1 ≤ number.toInt →
    next.toInt = number.toInt + 1 → (page number size).window settings = .ok w →
    (page next size).window settings = .ok w' →
    w'.skip.toNat = w.skip.toNat + w.take.toNat ∧ w'.take = w.take
  tiled : ∀ {last : Int64} {w : Window}, 1 ≤ last.toInt →
    (page last size).window settings = .ok w → ∀ row,
    row < w.skip.toNat + w.take.toNat ↔ ∃! number : Int64, 1 ≤ number.toInt ∧
      number.toInt ≤ last.toInt ∧ ∃ v, (page number size).window settings = .ok v ∧ v.Has row

namespace Settings

variable {settings : Settings} {size : Option UInt64}

theorem start_page {number : Int64} (h : 1 ≤ number.toInt) :
    (page number size).start settings =
      (number.toInt.toNat - 1) * (settings.clampPageSize size).toNat := by
  rw [PageRequest.start]
  congr 1
  omega

/-- A page ends behind as many full pages as its number says. -/
theorem end_of_page {number : Int64} {w : Window} (h : 1 ≤ number.toInt)
    (hw : (page number size).window settings = .ok w) :
    w.skip.toNat + w.take.toNat = number.toInt.toNat * (settings.clampPageSize size).toNat := by
  obtain ⟨hskip, htake⟩ := PageRequest.window_eq_ok_iff.1 hw
  obtain ⟨before, hbefore⟩ : ∃ before, number.toInt.toNat = before + 1 :=
    ⟨number.toInt.toNat - 1, by omega⟩
  rw [hskip, start_page h, htake, hbefore, Nat.add_sub_cancel, Nat.succ_mul]
  rfl

/-- In front of a page with a window all pages have one. -/
theorem exists_window_of_le {number last : Int64} {w : Window} (hle : number.toInt ≤ last.toInt)
    (hlast : 1 ≤ last.toInt) (hw : (page last size).window settings = .ok w) :
    ∃ v, (page number size).window settings = .ok v := by
  have hskip : w.skip.toNat = (page last size).start settings :=
    (PageRequest.window_eq_ok_iff.1 hw).1
  have hstart : (page number size).start settings ≤ (page last size).start settings :=
    Nat.mul_le_mul_right _ (by omega)
  cases hwindow : (page number size).window settings with
  | ok v => exact ⟨v, rfl⟩
  | error err =>
    have hlarge := PageRequest.window_eq_error_iff.1 ⟨err, hwindow⟩
    have hword : w.skip.toNat < UInt64.size := w.skip.toNat_lt_size
    omega

/-- A row is on the page whose number says how many full pages are in front of the row. -/
theorem has_iff {number : Int64} {v : Window} {row : Nat} (h : 1 ≤ number.toInt)
    (hpos : 0 < (settings.clampPageSize size).toNat)
    (hv : (page number size).window settings = .ok v) :
    v.Has row ↔ number.toInt.toNat = row / (settings.clampPageSize size).toNat + 1 := by
  have hskip : v.skip.toNat = (page number size).start settings :=
    (PageRequest.window_eq_ok_iff.1 hv).1
  rw [Window.Has, end_of_page h hv, hskip, start_page h, ← Nat.le_div_iff_mul_le hpos,
    ← Nat.div_lt_iff_lt_mul hpos]
  omega

/-- **The pages of one size lie side by side**, as far as there are windows. -/
theorem tiles (settings : Settings) (size : Option UInt64) : settings.Tiles size where
  first {number} hnumber := by
    have hmax : max number.toInt 1 = max (1 : Int64).toInt 1 := by
      have hone : (1 : Int64).toInt = 1 := rfl
      omega
    rw [PageRequest.window_page, PageRequest.window_page, PageRequest.start, PageRequest.start,
      hmax]
  next {number next w w'} hnumber hnext hw hw' := by
    obtain ⟨-, htake⟩ := PageRequest.window_eq_ok_iff.1 hw
    obtain ⟨hskip', htake'⟩ := PageRequest.window_eq_ok_iff.1 hw'
    have hnumbers : next.toInt.toNat - 1 = number.toInt.toNat := by omega
    rw [hskip', end_of_page hnumber hw, start_page (by omega), hnumbers]
    exact ⟨rfl, htake'.trans htake.symm⟩
  tiled {last w} hlast hw row := by
    rw [end_of_page hlast hw]
    constructor
    · intro hrow
      have hpos : 0 < (settings.clampPageSize size).toNat := Nat.pos_of_lt_mul_left hrow
      have hpage := (Nat.div_lt_iff_lt_mul hpos).2 hrow
      have hword : last.toInt < 2 ^ 63 := last.toInt_lt
      -- the page with as many full pages in front of it as there are in front of the row
      obtain ⟨before, hbefore⟩ : ∃ before, before = row / (settings.clampPageSize size).toNat :=
        ⟨_, rfl⟩
      rw [← hbefore] at hpage
      obtain ⟨number, hnumber⟩ : ∃ number : Int64, number.toInt = before + 1 :=
        ⟨Int64.ofInt (before + 1), Int64.toInt_ofInt_of_le (by omega) (by omega)⟩
      have hle : number.toInt ≤ last.toInt := by omega
      obtain ⟨v, hv⟩ := exists_window_of_le hle hlast hw
      have hhas : v.Has row := (has_iff (by omega) hpos hv).2 (by omega)
      refine ⟨number, ⟨by omega, hle, v, hv, hhas⟩, ?_⟩
      rintro other ⟨hother, -, v', hv', hhas'⟩
      have hsame := (has_iff hother hpos hv').1 hhas'
      exact Int64.toInt_inj.1 (by omega)
    · rintro ⟨number, ⟨hnumber, hle, v, hv, hhas⟩, -⟩
      have hend : row < number.toInt.toNat * (settings.clampPageSize size).toNat := by
        rw [← end_of_page hnumber hv]
        exact hhas.2
      exact Nat.lt_of_lt_of_le hend (Nat.mul_le_mul_right _ (by omega))

end Settings
end RequestPlan
