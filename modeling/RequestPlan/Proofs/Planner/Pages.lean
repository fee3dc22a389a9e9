import RequestPlan.Planner
import RequestPlan.Proofs.Catalog.Declarations
import RequestPlan.Proofs.Paging
import RequestPlan.Proofs.Work

/-!
# Windows of planners

* `Planner.Takes`: a call sets a window with given numbers, or fails and leaves the planner as it
  is when they do not fit into 64 bits; `takes_page`: **the numbers are those of the request**.
* `takes_of_params`: **integers in parameters are taken as they are**, as pages that lie side by
  side or as an offset.
-/

namespace RequestPlan

namespace Planner

/-- A call sets the window that passes over `start` rows and takes `take`, if these numbers fit into
64 bits. If they do not, it fails, and the planner keeps its window and all else. -/
structure Takes (s : Registry × Planner) (start take : Nat) (call : PlannerM Unit) : Prop where
  fits : start < UInt64.size → ∃ w : Window,
    call.run.run s = (.ok (), (s.1, { s.2 with window := some w })) ∧ w.skip.toNat = start ∧
      w.take.toNat = take
  fails : UInt64.size ≤ start → ∃ err, call.run.run s = (.error err, s)

theorem Takes.of_run {s : Registry × Planner} {start take : Nat} {call call' : PlannerM Unit}
    (h : Takes s start take call) (hrun : call'.run.run s = call.run.run s) :
    Takes s start take call' where
  fits hfits := by
    rw [hrun]
    exact h.fits hfits
  fails hlarge := by
    rw [hrun]
    exact h.fails hlarge

/-- What becomes of a planner that takes the rows of a request. -/
theorem run_page (s : Registry × Planner) (request : PageRequest) :
    (page request).run.run s = match request.window s.2.settings with
      | .ok w => (.ok (), (s.1, { s.2 with window := some w }))
      | .error err => (.error err, s) := by
  have hcurrent : current.run.run s = (.ok s.2, s) := rfl
  have hwindow := Work.run_of (request.window s.2.settings) s
  unfold page
  rw [Work.run_bind_of_ok hcurrent]
  cases hresult : request.window s.2.settings with
  | ok w =>
    rw [hresult] at hwindow
    exact Work.run_bind_of_ok hwindow
  | error err =>
    rw [hresult] at hwindow
    exact Work.run_bind_of_error hwindow

/-- **A call takes the numbers of its request.** -/
theorem takes_page (s : Registry × Planner) (request : PageRequest) :
    Takes s (request.start s.2.settings)
      (s.2.settings.rows (request.size?.map fun n => (n.toNat : Int))) (page request) where
  fits hfits := by
    cases hwindow : request.window s.2.settings with
    | ok w =>
      obtain ⟨hskip, htake⟩ := PageRequest.window_eq_ok_iff.1 hwindow
      refine ⟨w, ?_, hskip, ?_⟩
      · rw [run_page, hwindow]
      · rw [htake, Settings.toNat_clampPageSize]
    | error err =>
      have hlarge := PageRequest.window_eq_error_iff.1 ⟨err, hwindow⟩
      omega
  fails hlarge := by
    obtain ⟨err, hwindow⟩ := PageRequest.window_eq_error_iff.2 hlarge
    refine ⟨err, ?_⟩
    rw [run_page, hwindow]

/-- **Integers in parameters are taken as they are.** No more rows are taken than the settings
allow. A page passes over as many pages as are in front of it, each of the size that is taken, and
an offset over as many rows as it says; a page wins, lower pages are the first, and an offset below
zero is zero. The call fails exactly when this number is beyond the last of 64 bits, and then the
planner keeps the window that it had, as it does for calls with numbers. The pages of one size lie
side by side. -/
theorem takes_of_params (s : Registry × Planner) (ps : Params)
    (h : ps.IntegersIn (s.2.settings.names.page ++ s.2.settings.names.pageSize ++
      s.2.settings.names.skip)) :
    let settings := s.2.settings
    let before (number : Int64) (rows : Nat) : Nat := (max number.toInt 1 - 1).toNat * rows
    let take := settings.rows ((ps.int? settings.names.pageSize).map Int64.toInt)
    let start := match ps.int? settings.names.page, ps.int? settings.names.skip with
      | none, some skip => (max skip.toInt 0).toNat
      | number?, _ => before (number?.getD 1) take
    (∀ size most, settings.maxPageSize = some most → settings.rows size ≤ most.toNat) ∧
      Takes s start take (paginateBy ps) ∧
      (∀ (number : Int64) (size : Option UInt64),
        let take := settings.rows (size.map fun n => (n.toNat : Int))
        Takes s (before number take) take (paginate number size)) ∧
      (∀ (skip : UInt64) (size : Option UInt64),
        Takes s skip.toNat (settings.rows (size.map fun n => (n.toNat : Int)))
          (skipTake skip size)) ∧
      ∀ size : Option UInt64, settings.Tiles size := by
  intro settings before take start
  have hnumber (number : Int64) (size : Option UInt64) :
      (PageRequest.page number size).start settings =
        before number (settings.rows (size.map fun n => (n.toNat : Int))) := by
    rw [PageRequest.start, Settings.toNat_clampPageSize]
  refine ⟨fun size most hmost => Settings.rows_le hmost size, ?_, fun number size => ?_,
    fun skip size => takes_page s (.offset skip size), settings.tiles⟩
  · have htakes := takes_page s (.ofParams settings.names ps)
    rw [PageRequest.start_ofParams h, PageRequest.rows_ofParams h] at htakes
    exact htakes.of_run (Work.run_bind_of_ok (show current.run.run s = (.ok s.2, s) from rfl))
  · have htakes := takes_page s (.page number size)
    rw [hnumber] at htakes
    exact htakes

/-- The third page, of fifty rows at most, and the last page there is a number for. -/
theorem takes_of_pages :
    let settings := { Settings.usual with maxPageSize := some 50 }
    let s := (Registry.empty, start Entity.event.define settings)
    let third : Params := ⟨[("page", .string " 3 "), ("count", .int 500), ("skip", .null)]⟩
    let last : Params := ⟨[("page", .int 9223372036854775807), ("size", .string "+20")]⟩
    (∃ w : Window, (paginateBy third).run.run s = (.ok (), (s.1, { s.2 with window := some w })) ∧
      w.skip.toNat = 100 ∧ w.take.toNat = 50) ∧
    ∃ err, (paginateBy last).run.run s = (.error err, s) := by
  intro settings s third last
  have hthird : ∀ e ∈ third.entries, e.2.IsInteger := by
    intro e he
    simp only [third, List.mem_cons, List.not_mem_nil, or_false] at he
    rcases he with rfl | rfl | rfl
    · exact .inr ⟨3, by decide⟩
    · exact .inr ⟨500, rfl⟩
    · exact .inl rfl
  have hlast : ∀ e ∈ last.entries, e.2.IsInteger := by
    intro e he
    simp only [last, List.mem_cons, List.not_mem_nil, or_false] at he
    rcases he with rfl | rfl
    · exact .inr ⟨9223372036854775807, rfl⟩
    · exact .inr ⟨20, by decide⟩
  exact ⟨(takes_of_params s third (Params.integersIn_of_entries hthird _)).2.1.fits (by decide),
    (takes_of_params s last (Params.integersIn_of_entries hlast _)).2.1.fails (by decide)⟩

end Planner
end RequestPlan
