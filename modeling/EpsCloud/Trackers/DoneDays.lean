import EpsCloud.Library.Runs
import EpsCloud.Routes.Agenda
import EpsCloud.Routes.Trackers

/-!
# A tracker's count is taken from its latest done day

The state row of a tracker is taken from the maximum over all of its events, and
the journal marks any day.  The count is one that a tracker can have, and the
agenda sees the tracker come due, as long as no event lies ahead of the day of
the request.

* `countsForward_recomputed_iff`: a recomputed row counts forward exactly when no
  done day lies ahead.
* `tracker_counts_forward_iff`: so along every run each request leaves a row that
  counts forward exactly when none of them marks a day ahead.
-/

namespace EpsCloud

/-- The two ways to mark a tracker. -/
inductive TrackerMark where
  | mark (date : String) (trackerId : ℕ)
  | toggle (trackerId : ℕ)

/-- A request that marks a tracker, with the clock that it reads. -/
structure TrackerRequest where
  clock : Clock
  mark : TrackerMark

namespace TrackerRequest

/-- The tracker that a request is about. -/
def trackerId (req : TrackerRequest) : ℕ :=
  match req.mark with
  | .mark _ trackerId => trackerId
  | .toggle trackerId => trackerId

/-- The day that a request is about. -/
def day? (req : TrackerRequest) : Option Date :=
  match req.mark with
  | .mark date _ => fromisoformat date
  | .toggle _ => some req.clock.today

/-- The handler of a request. -/
def handle (req : TrackerRequest) (db : Database) : Except Failure Database :=
  match req.mark with
  | .mark date trackerId => markTracker req.clock date trackerId db
  | .toggle trackerId => toggleTracker req.clock trackerId db

end TrackerRequest

/-- A request in a run. -/
def stepTracker (s : Dated) (req : TrackerRequest) : Dated := s.after req.clock (req.handle s.db)

/-- The latest done day up to `today`. -/
def LatestDoneBy (db : Database) (trackerId : ℕ) (today d : Date) : Prop :=
  DoneOn db trackerId d ∧ d ≤ today ∧ ∀ d', DoneOn db trackerId d' → d' ≤ today → d' ≤ d

/-- A state row that counts forward from the latest done day up to `today`. -/
structure TrackerState.CountsForward (state : TrackerState) (db : Database) (trackerId : ℕ)
    (today : Date) : Prop where
  notAhead : ∀ d ∈ state.lastDoneDate, d ≤ today
  nonneg : 0 ≤ state.daysSinceLastDone
  latest : (∃ d, DoneOn db trackerId d ∧ d ≤ today) →
    ∃ d, LatestDoneBy db trackerId today d ∧ state.lastDoneDate = some d ∧
      state.daysSinceLastDone = today - d
  due : ∀ (tracker : Tracker) (d : Date), LatestDoneBy db trackerId today d →
    ¬ DoneOn db trackerId today → tracker.thresholdDays ≤ today - d →
    trackerStatus tracker state (DoneOn db trackerId today) =
      some (.due (today - d - tracker.thresholdDays))

/-- After a successful request, its tracker has a state row that counts forward. -/
def TrackerRequest.CountsForward (s : Dated) (req : TrackerRequest) : Prop :=
  ∀ db', req.handle s.db = .ok db' →
    ∃ state, db'.trackerState.lookup req.trackerId = some state ∧
      state.CountsForward db' req.trackerId req.clock.today

/-- The request records a doing on a day after the one it is handled on. -/
def TrackerRequest.MarksAhead (s : Dated) (req : TrackerRequest) : Prop :=
  (∃ tracker, s.db.getTracker req.trackerId = some tracker) ∧
    ∃ day ∈ req.day?, req.clock.today < day ∧
      s.db.trackerEvents.lookup (day, req.trackerId) = none

/-! ## What a recomputed row says -/

/-- **A recomputed row counts forward exactly when no done day lies ahead.** -/
theorem countsForward_recomputed_iff (db : Database) (trackerId : ℕ) (clock : Clock) :
    (recomputedTrackerState db trackerId clock).CountsForward db trackerId clock.today ↔
      ∀ d, DoneOn db trackerId d → d ≤ clock.today := by
  constructor
  · intro h d hd
    obtain ⟨l, hl, hle⟩ := exists_lastDone hd
    exact le_trans hle (h.notAhead l hl)
  · intro h
    have hlatest : ∀ d, LatestDoneBy db trackerId clock.today d →
        lastDone db trackerId = some d := fun d hd =>
      lastDone_eq_some_iff.mpr ⟨hd.1, fun d' hd' => hd.2.2 d' hd' (h d' hd')⟩
    have hdays : ∀ d, lastDone db trackerId = some d →
        (recomputedTrackerState db trackerId clock).daysSinceLastDone = clock.today - d :=
      fun d hd => by rw [recomputedTrackerState, hd]
    refine ⟨?_, ?_, ?_, ?_⟩
    · intro d hd
      exact h d (lastDone_eq_some_iff.mp hd).1
    · cases hl : lastDone db trackerId with
      | none => exact le_of_eq (by rw [recomputedTrackerState, hl])
      | some d =>
        rw [hdays d hl]
        exact sub_nonneg.mpr (h d (lastDone_eq_some_iff.mp hl).1)
    · rintro ⟨d, hd, -⟩
      obtain ⟨l, hl, -⟩ := exists_lastDone hd
      obtain ⟨hdone, hmax⟩ := lastDone_eq_some_iff.mp hl
      exact ⟨l, ⟨hdone, h l hdone, fun d' hd' _ => hmax d' hd'⟩, hl, hdays l hl⟩
    · intro tracker d hd hnot hdue
      have hl := hlatest d hd
      have hsome : (recomputedTrackerState db trackerId clock).lastDoneDate = some d := hl
      rw [trackerStatus, if_neg (by simpa using hnot), hsome, hdays d hl, if_neg (by simp),
        if_pos hdue]

/-! ## What a request does to the done days -/

/-- **What a successful request leaves**: one edited event, and its tracker recomputed. -/
theorem TrackerRequest.handle_ok {req : TrackerRequest} {db db' : Database}
    (h : req.handle db = .ok db') :
    ∃ day ∈ req.day?, (∃ tracker, db.getTracker req.trackerId = some tracker) ∧
      db'.trackerEvents = db.trackerEvents.put (day, req.trackerId)
        (trackerChange (db.trackerEvents.lookup (day, req.trackerId))).row ∧
      db'.trackerState.lookup req.trackerId =
        some (recomputedTrackerState db' req.trackerId req.clock) := by
  obtain ⟨clock, mark | trackerId⟩ := req
  · obtain ⟨day, hday, htracker, rfl⟩ := markTracker_eq_ok.mp h
    exact ⟨day, hday, htracker, rfl, AList.lookup_insert _⟩
  · obtain ⟨htracker, rfl⟩ := toggleTracker_eq_ok.mp h
    refine ⟨clock.today, rfl, htracker, ?_, AList.lookup_insert _⟩
    rw [← toggledEvent_eq]
    rfl

/-- A request that is about a day and a tracker succeeds. -/
theorem TrackerRequest.exists_handle_ok {req : TrackerRequest} {db : Database} {day : Date}
    (hday : day ∈ req.day?) (htracker : ∃ tracker, db.getTracker req.trackerId = some tracker) :
    ∃ db', req.handle db = .ok db' := by
  obtain ⟨clock, mark | trackerId⟩ := req
  · exact ⟨_, markTracker_eq_ok.mpr ⟨day, hday, htracker, rfl⟩⟩
  · exact ⟨_, toggleTracker_eq_ok.mpr ⟨htracker, rfl⟩⟩

/-- Editing an event makes its day done if there was no event, and not done otherwise. -/
theorem doneOn_edited_iff {db db' : Database} {day : Date} {k : ℕ}
    (h : db'.trackerEvents = db.trackerEvents.put (day, k)
      (trackerChange (db.trackerEvents.lookup (day, k))).row) (k' : ℕ) (d : Date) :
    DoneOn db' k' d ↔ if (d, k') = (day, k) then db.trackerEvents.lookup (day, k) = none
      else DoneOn db k' d := by
  rw [DoneOn, h, Table.lookup_put]
  split_ifs with hkey
  · cases db.trackerEvents.lookup (day, k) <;> simp [trackerChange]
  · exact Iff.rfl

/-- No tracker has a done day ahead. -/
def Dated.NoDoneAhead (s : Dated) : Prop := ∀ k d, DoneOn s.db k d → d ≤ s.today

/-- The days of a run do not go back. -/
def InOrder (s : Dated) (req : TrackerRequest) : Prop := s.today ≤ req.clock.today

theorem stepTracker_noDoneAhead {s : Dated} {req : TrackerRequest} (h : s.NoDoneAhead)
    (horder : InOrder s req) (hmark : ¬ req.MarksAhead s) : (stepTracker s req).NoDoneAhead := by
  intro k d hd
  show d ≤ req.clock.today
  rw [stepTracker, Dated.after] at hd
  cases hres : req.handle s.db with
  | error e =>
    rw [hres] at hd
    exact le_trans (h k d hd) horder
  | ok db' =>
    rw [hres] at hd
    obtain ⟨day, hday, htracker, hevents, -⟩ := TrackerRequest.handle_ok hres
    rw [afterRequest, doneOn_edited_iff hevents] at hd
    split_ifs at hd with hkey
    · obtain ⟨rfl, rfl⟩ := Prod.mk.inj hkey
      exact not_lt.mp fun hlt => hmark ⟨htracker, d, hday, hlt, hd⟩
    · exact le_trans (h k d hd) horder

/-- **One request.**  It leaves a row that counts forward exactly when it does not mark a day
ahead. -/
theorem countsForward_iff_not_marksAhead {s : Dated} {req : TrackerRequest} (h : s.NoDoneAhead)
    (horder : InOrder s req) : req.CountsForward s ↔ ¬ req.MarksAhead s := by
  constructor
  · rintro hcounts ⟨htracker, day, hday, hlt, hnone⟩
    obtain ⟨db', hres⟩ := TrackerRequest.exists_handle_ok hday htracker
    obtain ⟨state, hstate, hforward⟩ := hcounts db' hres
    obtain ⟨day', hday', -, hevents, hrow⟩ := TrackerRequest.handle_ok hres
    obtain rfl : day = day' := Option.mem_unique hday hday'
    rw [hrow, Option.some.injEq] at hstate
    rw [← hstate, countsForward_recomputed_iff] at hforward
    have hdone : DoneOn db' req.trackerId day := by
      rw [doneOn_edited_iff hevents, if_pos rfl]
      exact hnone
    exact absurd (hforward day hdone) (not_le.mpr hlt)
  · intro hmark db' hres
    obtain ⟨day, -, -, -, hrow⟩ := TrackerRequest.handle_ok hres
    refine ⟨_, hrow, (countsForward_recomputed_iff db' req.trackerId req.clock).mpr ?_⟩
    have hafter := stepTracker_noDoneAhead h horder hmark
    rw [Dated.NoDoneAhead, stepTracker, Dated.after, hres] at hafter
    exact hafter req.trackerId

/-! ## Whole runs -/

/-- **Tracker counts run forward as long as no day ahead is marked.**  Start where no done day
lies ahead, and let the days not go back.  Every request leaves a row that counts forward
exactly when no request marks a day ahead. -/
theorem tracker_counts_forward_iff (s : Dated) (h : s.NoDoneAhead) (reqs : List TrackerRequest)
    (horder : ∀ x ∈ Runs.trace stepTracker s reqs, InOrder x.1 x.2) :
    (∀ x ∈ Runs.trace stepTracker s reqs, x.2.CountsForward x.1) ↔
      ∀ x ∈ Runs.trace stepTracker s reqs, ¬ x.2.MarksAhead x.1 :=
  Runs.forall_trace_iff (I := Dated.NoDoneAhead) (C := InOrder)
    (P := fun s req => req.CountsForward s) (Q := fun s req => ¬ req.MarksAhead s)
    (fun _ _ hs ho => countsForward_iff_not_marksAhead hs ho)
    (fun _ _ hs ho hq => stepTracker_noDoneAhead hs ho hq) h horder

/-- One tracker, every third day, that has not been done yet. -/
def oneTracker : Database :=
  { trackers := [{ id := 1, name := "plants", thresholdDays := 3,
                   visibleOnDays := [0, 1, 2, 3, 4, 5, 6] }] }

/-- Done on 2026-01-05, and a day before that filled in afterwards. -/
theorem tracker_counts_forward_oneTracker :
    TrackerRequest.CountsForward (stepTracker ⟨oneTracker, 739621⟩ ⟨⟨739621, 0⟩, .toggle 1⟩)
      ⟨⟨739622, 1⟩, .mark "2026-01-04" 1⟩ := by
  have hstart : (Dated.mk oneTracker 739621).NoDoneAhead := fun k d hd =>
    absurd hd (by simp [DoneOn, oneTracker])
  refine (tracker_counts_forward_iff ⟨oneTracker, 739621⟩ hstart
    [⟨⟨739621, 0⟩, .toggle 1⟩, ⟨⟨739622, 1⟩, .mark "2026-01-04" 1⟩] ?_).mpr ?_ _
    (List.mem_cons_of_mem _ List.mem_cons_self)
  · simp only [Runs.trace_cons, Runs.trace_nil, List.forall_mem_cons, List.not_mem_nil,
      false_implies, implies_true, and_true]
    have hnext : (739621 : Date) ≤ 739622 := by decide
    exact ⟨le_refl 739621, hnext⟩
  · simp only [Runs.trace_cons, Runs.trace_nil, List.forall_mem_cons, List.not_mem_nil,
      false_implies, implies_true, and_true]
    refine ⟨?_, ?_⟩
    · rintro ⟨-, day, hday, hlt, -⟩
      rw [← Option.some.inj hday] at hlt
      exact absurd hlt (by decide)
    · rintro ⟨-, day, hday, hlt, -⟩
      have hdate : day = 739620 := by
        have hparse : fromisoformat "2026-01-04" = some 739620 := by decide
        exact Option.some.inj (hday.symm.trans hparse)
      rw [hdate] at hlt
      exact absurd hlt (by decide)

/-- Done on 2026-01-01; on 2026-01-05 a day next week is marked, and the count is negative. -/
theorem tracker_counts_backwards :
    ¬ ∀ x ∈ Runs.trace stepTracker ⟨oneTracker, 739617⟩
      [⟨⟨739617, 0⟩, .toggle 1⟩, ⟨⟨739621, 1⟩, .mark "2026-01-12" 1⟩],
      x.2.CountsForward x.1 := by
  intro h
  obtain ⟨state, hstate, hcounts⟩ := (List.forall_mem_cons.mp (List.forall_mem_cons.mp h).2).1 _ rfl
  have hrow : state.lastDoneDate = some 739628 := by
    rw [← Option.some.inj hstate]
    rfl
  exact absurd (hcounts.notAhead 739628 hrow) (by decide)

end EpsCloud
