import EpsCloud.Library.Runs
import EpsCloud.Routes.DayView
import EpsCloud.Streaks.DaysPassing
import EpsCloud.Streaks.RecordedHistory
import EpsCloud.Trackers.DoneDays

/-!
# The derived figures on a later day

The state rows of streaks and trackers are functions of the recorded events and
of the day they are computed on, and only write requests compute them.  When a
page is rendered on a later day, it shows the figures of the day of the last
write.

* `Settled`: what every request of a history keeps.  Each row is what a recompute
  gave on the day of its `last_recomputed_at`.
* `streak_fresh_iff`: such a row shows the count of a later day exactly when the
  count is zero, or grace absorbs the days missed since.
* `figures_fresh_iff`: after every history, and on every day from then on, the
  pages show the figures of that day exactly when every streak's row is of this
  kind and every tracker that was ever done was recomputed on that day.
-/

namespace EpsCloud

/-! ## Histories -/

/-- The requests that record events of streaks and trackers, or define trackers. -/
inductive FigureAct where
  | markHabit (date : String) (streakId : ℕ) (mark : String)
  | toggleBadDay (date : String)
  | markTracker (date : String) (trackerId : ℕ)
  | toggleTracker (trackerId : ℕ)
  | addTracker (name thresholdDays : String) (visibleOnDays : List String)
  | editTracker (trackerId : ℕ) (thresholdDays : String) (visibleOnDays : List String)

/-- A request, with the clock that it reads. -/
structure FigureRequest where
  clock : Clock
  act : FigureAct

/-- The handler of a request. -/
def handleFigure (py : TextParsers) (req : FigureRequest) (db : Database) :
    Except Failure Database :=
  match req.act with
  | .markHabit date streakId mark => markHabit req.clock date streakId mark db
  | .toggleBadDay date => toggleBadDay req.clock date db
  | .markTracker date trackerId => markTracker req.clock date trackerId db
  | .toggleTracker trackerId => toggleTracker req.clock trackerId db
  | .addTracker name thresholdDays visibleOnDays =>
    addTracker py req.clock name thresholdDays visibleOnDays db
  | .editTracker trackerId thresholdDays visibleOnDays =>
    editTracker py trackerId thresholdDays visibleOnDays db

/-- A request of a history. -/
def stepFigure (py : TextParsers) (s : Dated) (req : FigureRequest) : Dated :=
  s.after req.clock (handleFigure py req s.db)

/-- The day of the entry that a request writes. -/
def FigureAct.day? : FigureAct → Option Date
  | .markHabit date _ _ => fromisoformat date
  | .toggleBadDay date => fromisoformat date
  | .markTracker date _ => fromisoformat date
  | _ => none

/-- The days of a history do not go back, `today` is the local date of the moment, and no entry
is dated later than the day it is made. -/
structure Timely (zone : Zone) (s : Dated) (req : FigureRequest) : Prop where
  order : s.today ≤ req.clock.today
  today : req.clock.today = currentDate zone req.clock.now
  notAhead : ∀ d ∈ req.act.day?, d ≤ req.clock.today

/-! ## What the pages show, and what they should show -/

/-- On `today` the dashboard and every page of the journal show the figures that a recompute
on `today` would give, and the dashboard lists every tracker that has come due. -/
structure ShowsFresh (db : Database) (today : Date) (now : Moment) : Prop where
  streaks : ∀ row ∈ (snapshot db today).streaks, ∀ state ∈ row.state,
    state.currentStreak =
      (recomputedStreakState db row.streak.id ⟨today, now⟩ (graceEnabled db)).currentStreak
  habits : ∀ day, ∀ row ∈ habitRows db day, ∀ state ∈ row.state,
    state.currentStreak =
      (recomputedStreakState db row.streak.id ⟨today, now⟩ (graceEnabled db)).currentStreak
  cards : ∀ card ∈ (snapshot db today).trackers, ∀ state ∈ card.state,
    ∀ d, lastDone db card.tracker.id = some d → state.daysSinceLastDone = today - d
  rows : ∀ day, ∀ row ∈ trackerRows db day, ∀ state ∈ row.state,
    ∀ d, lastDone db row.tracker.id = some d → state.daysSinceLastDone = today - d
  due : ∀ tracker ∈ activeTrackers db, ∀ d, lastDone db tracker.id = some d →
    ¬ DoneOn db tracker.id today → d + tracker.thresholdDays ≤ today →
    weekday today ∈ tracker.visibleOnDays →
    ∃ state, .tracker tracker state (.due (today - d - tracker.thresholdDays)) ∈
      dayList db today now

/-- The day that a streak's row was computed on. -/
def StreakState.dayIn (zone : Zone) (state : StreakState) : Date :=
  localDateOf zone state.lastRecomputedAt

/-- The day that a tracker's row was computed on. -/
def TrackerState.dayIn (zone : Zone) (state : TrackerState) : Date :=
  localDateOf zone state.lastRecomputedAt

/-- The streak's count is zero, or grace absorbs every day missed since the row was computed. -/
def StreakState.Holds (zone : Zone) (db : Database) (streakId : ℕ) (today : Date)
    (state : StreakState) : Prop :=
  state.currentStreak = 0 ∨
    Absorbed (graceEnabled db) state.currentStreak state.lastGraceUsedDate
      (missedDays (entryOn db streakId) (badDays db) (state.dayIn zone) today)

/-- No row has been overtaken by the days that went by since it was computed. -/
structure UpToDate (zone : Zone) (db : Database) (today : Date) : Prop where
  streaks : ∀ streakId, Streak.Active db streakId →
    ∀ state, db.streakState.lookup streakId = some state → state.Holds zone db streakId today
  trackers : ∀ tracker ∈ activeTrackers db, (∃ d, DoneOn db tracker.id d) →
    ∀ state, db.trackerState.lookup tracker.id = some state → state.dayIn zone = today

/-! ## What every request keeps -/

/-- The rows of active streaks are what a recompute gave on the day they were computed, and no
entry is later than that day. -/
structure StreaksSettled (zone : Zone) (db : Database) (today : Date) : Prop where
  figures : ∀ k, Streak.Active db k → ∀ state, db.streakState.lookup k = some state →
    state.figures = replayedFigures db k (state.dayIn zone) (graceEnabled db)
  day : ∀ k, Streak.Active db k → ∀ state, db.streakState.lookup k = some state →
    state.dayIn zone ≤ today ∧ ∀ d, (entryOn db k d).isSome → d ≤ state.dayIn zone
  entries : ∀ k d, (entryOn db k d).isSome → d ≤ today

/-- The rows of trackers are what a recompute gave on the day they were computed, and every
tracker that was ever done has one. -/
structure TrackersSettled (zone : Zone) (db : Database) (today : Date) : Prop where
  figures : ∀ k state, db.trackerState.lookup k = some state →
    state = recomputedTrackerState db k ⟨state.dayIn zone, state.lastRecomputedAt⟩
  day : ∀ k state, db.trackerState.lookup k = some state → state.dayIn zone ≤ today
  present : ∀ k d, DoneOn db k d → (db.trackerState.lookup k).isSome

/-- Nothing that is derived has come apart from what it was derived from. -/
structure Settled (zone : Zone) (s : Dated) : Prop where
  streaks : StreaksSettled zone s.db s.today
  trackers : TrackersSettled zone s.db s.today

section Keep

variable {zone : Zone} {db : Database} {today today' : Date}

theorem StreaksSettled.later (h : StreaksSettled zone db today) (hle : today ≤ today') :
    StreaksSettled zone db today' :=
  ⟨h.figures, fun k hk state hstate => ⟨le_trans (h.day k hk state hstate).1 hle,
    (h.day k hk state hstate).2⟩, fun k d hd => le_trans (h.entries k d hd) hle⟩

theorem TrackersSettled.later (h : TrackersSettled zone db today) (hle : today ≤ today') :
    TrackersSettled zone db today' :=
  ⟨h.figures, fun k state hstate => le_trans (h.day k state hstate) hle, h.present⟩

/-- Marking a day of one streak settles that streak and leaves the others settled. -/
theorem StreaksSettled.markHabit (h : StreaksSettled zone db today) {clock : Clock}
    (horder : today ≤ clock.today) (htoday : clock.today = currentDate zone clock.now) {day : Date}
    (hday : day ≤ clock.today) (streakId : ℕ) (passed : Bool) :
    StreaksSettled zone (recomputeStreakState (habitEdited clock day streakId passed db) streakId
      clock (graceEnabled db)) clock.today := by
  have hlog : ∀ k d, entryOn (recomputeStreakState (habitEdited clock day streakId passed db)
      streakId clock (graceEnabled db)) k d =
      entryOn (habitEdited clock day streakId passed db) k d := fun _ _ => rfl
  have hentries : ∀ k d, (entryOn (recomputeStreakState (habitEdited clock day streakId passed db)
      streakId clock (graceEnabled db)) k d).isSome → d ≤ clock.today := by
    intro k d hd
    by_cases hkey : (d, k) = (day, streakId)
    · rw [(Prod.mk.inj hkey).1]
      exact hday
    · rw [hlog, entryOn_habitEdited_of_ne hkey] at hd
      exact le_trans (h.entries k d hd) horder
  have hrow : ∀ k state, (recomputeStreakState (habitEdited clock day streakId passed db) streakId
      clock (graceEnabled db)).streakState.lookup k = some state → k ≠ streakId →
      db.streakState.lookup k = some state := by
    intro k state hstate hk
    rw [recomputeStreakState, AList.lookup_insert_ne hk] at hstate
    exact hstate
  have hself : ∀ state, (recomputeStreakState (habitEdited clock day streakId passed db) streakId
      clock (graceEnabled db)).streakState.lookup streakId = some state →
      state.dayIn zone = clock.today ∧ state = recomputedStreakState
        (habitEdited clock day streakId passed db) streakId clock (graceEnabled db) := by
    intro state hstate
    rw [recomputeStreakState, AList.lookup_insert, Option.some.injEq] at hstate
    subst hstate
    exact ⟨htoday.symm, rfl⟩
  refine ⟨?_, ?_, hentries⟩
  · intro k hk state hstate
    by_cases hid : k = streakId
    · subst hid
      obtain ⟨hdayIn, hstate'⟩ := hself state hstate
      rw [hdayIn, hstate', figures_recomputedStreakState]
      rfl
    · rw [replayedFigures_recompute, replayedFigures_habitEdited hid]
      exact h.figures k hk state (hrow k state hstate hid)
  · intro k hk state hstate
    by_cases hid : k = streakId
    · subst hid
      rw [(hself state hstate).1]
      exact ⟨le_refl _, fun d hd => hentries k d hd⟩
    · obtain ⟨hle, hold⟩ := h.day k hk state (hrow k state hstate hid)
      refine ⟨le_trans hle horder, fun d hd => hold d ?_⟩
      rw [hlog, entryOn_habitEdited_of_ne fun heq => hid (Prod.mk.inj heq).2] at hd
      exact hd

/-- Flipping a bad day settles every active streak. -/
theorem StreaksSettled.toggleBadDay (h : StreaksSettled zone db today) {clock : Clock}
    (horder : today ≤ clock.today) (htoday : clock.today = currentDate zone clock.now)
    (day : Date) :
    StreaksSettled zone (recomputeStreaks clock (graceEnabled db) db.activeStreakIds
      (badDayEdited clock day db)) clock.today := by
  have hwritten : ∀ k, Streak.Active db k → ∀ state,
      (recomputeStreaks clock (graceEnabled db) db.activeStreakIds
        (badDayEdited clock day db)).streakState.lookup k = some state →
      (state.figures, state.lastRecomputedAt) =
        (replayedFigures (badDayEdited clock day db) k clock.today (graceEnabled db),
          clock.now) := by
    intro k hk state hstate
    have hmap := map_lookup_recomputeStreaks (k := k)
      (f := fun state : StreakState => (state.figures, state.lastRecomputedAt))
      (v := (replayedFigures (badDayEdited clock day db) k clock.today (graceEnabled db),
        clock.now))
      db.activeStreakIds (badDayEdited clock day db) fun rows =>
        Prod.ext (figures_recomputedStreakState _ k clock (graceEnabled db)) rfl
    have hlisted : k ∈ db.activeStreakIds := hk
    rw [if_pos hlisted, hstate, Option.map_some, Option.some.injEq] at hmap
    exact hmap
  obtain ⟨rows, hrows⟩ := recomputeStreaks_frame clock (graceEnabled db) db.activeStreakIds
    (badDayEdited clock day db)
  have hentry : ∀ k d, entryOn (recomputeStreaks clock (graceEnabled db) db.activeStreakIds
      (badDayEdited clock day db)) k d = entryOn db k d := fun k d => by rw [hrows]; rfl
  have hactive : ∀ k, Streak.Active (recomputeStreaks clock (graceEnabled db) db.activeStreakIds
      (badDayEdited clock day db)) k → Streak.Active db k := fun k hk => by
    rw [hrows] at hk
    exact hk
  refine ⟨?_, ?_, ?_⟩
  · intro k hk state hstate
    obtain ⟨hfigures, hnow⟩ := Prod.mk.inj (hwritten k (hactive k hk) state hstate)
    rw [StreakState.dayIn, hnow, hfigures, hrows]
    show _ = replayedFigures (badDayEdited clock day db) k (currentDate zone clock.now) _
    rw [← htoday]
    rfl
  · intro k hk state hstate
    obtain ⟨-, hnow⟩ := Prod.mk.inj (hwritten k (hactive k hk) state hstate)
    have hdayIn : state.dayIn zone = clock.today := by
      rw [StreakState.dayIn, hnow]
      exact htoday.symm
    rw [hdayIn]
    refine ⟨le_refl _, fun d hd => ?_⟩
    rw [hentry] at hd
    exact le_trans (h.entries k d hd) horder
  · intro k d hd
    rw [hentry] at hd
    exact le_trans (h.entries k d hd) horder

/-- Recomputing one tracker after an edit of its events settles it and leaves the others
settled. -/
theorem TrackersSettled.recompute (h : TrackersSettled zone db today) {db' : Database}
    {clock : Clock} (horder : today ≤ clock.today)
    (htoday : clock.today = currentDate zone clock.now) {trackerId : ℕ}
    (hrows : db'.trackerState = db.trackerState)
    (hdone : ∀ k, k ≠ trackerId → ∀ d, DoneOn db' k d ↔ DoneOn db k d) :
    TrackersSettled zone (recomputeTrackerState db' trackerId clock) clock.today := by
  have hself : ∀ state, (recomputeTrackerState db' trackerId clock).trackerState.lookup trackerId =
      some state → state = recomputedTrackerState db' trackerId clock := by
    intro state hstate
    rw [recomputeTrackerState, AList.lookup_insert] at hstate
    exact (Option.some.inj hstate).symm
  have hother : ∀ k, k ≠ trackerId →
      (recomputeTrackerState db' trackerId clock).trackerState.lookup k =
        db.trackerState.lookup k := by
    intro k hk
    rw [recomputeTrackerState, AList.lookup_insert_ne hk, hrows]
  refine ⟨?_, ?_, ?_⟩
  · intro k state hstate
    by_cases hid : k = trackerId
    · subst hid
      obtain rfl := hself state hstate
      have hclock : (⟨(recomputedTrackerState db' k clock).dayIn zone,
          (recomputedTrackerState db' k clock).lastRecomputedAt⟩ : Clock) = clock := by
        show (⟨currentDate zone clock.now, clock.now⟩ : Clock) = clock
        rw [← htoday]
      rw [hclock]
      rfl
    · rw [hother k hid] at hstate
      exact (h.figures k state hstate).trans
        (recomputedTrackerState_congr (fun d => (hdone k hid d).symm) _)
  · intro k state hstate
    by_cases hid : k = trackerId
    · subst hid
      obtain rfl := hself state hstate
      exact le_of_eq htoday.symm
    · rw [hother k hid] at hstate
      exact le_trans (h.day k state hstate) horder
  · intro k d hd
    by_cases hid : k = trackerId
    · subst hid
      rw [recomputeTrackerState, AList.lookup_insert]
      rfl
    · rw [hother k hid]
      exact h.present k d ((hdone k hid d).mp hd)

end Keep

/-- Editing the event of one tracker leaves the done days of the others. -/
theorem doneOn_edited_of_ne {db db' : Database} (day : Date) {trackerId k : ℕ}
    (hevents : db'.trackerEvents = db.trackerEvents.put (day, trackerId)
      (trackerChange (db.trackerEvents.lookup (day, trackerId))).row) (hk : k ≠ trackerId)
    (d : Date) : DoneOn db' k d ↔ DoneOn db k d := by
  rw [doneOn_edited_iff hevents, if_neg fun heq => hk (Prod.mk.inj heq).2]

/-- **Every request of a history keeps what is derived settled.** -/
theorem stepFigure_settled {zone : Zone} {py : TextParsers} {s : Dated} {req : FigureRequest}
    (h : Settled zone s) (htimely : Timely zone s req) : Settled zone (stepFigure py s req) := by
  rw [stepFigure, Dated.after]
  cases hres : handleFigure py req s.db with
  | error e => exact ⟨h.streaks.later htimely.order, h.trackers.later htimely.order⟩
  | ok db' =>
    rw [afterRequest]
    have hstreaks := h.streaks.later htimely.order
    have htrackers := h.trackers.later htimely.order
    obtain ⟨clock, act⟩ := req
    cases act with
    | markHabit date streakId mark =>
      obtain ⟨day, passed, hday, -, -, rfl⟩ := markHabit_eq_ok.mp hres
      exact ⟨h.streaks.markHabit htimely.order htimely.today (htimely.notAhead day hday) _ _,
        ⟨htrackers.figures, htrackers.day, htrackers.present⟩⟩
    | toggleBadDay date =>
      obtain ⟨day, hday, rfl⟩ := toggleBadDay_eq_ok.mp hres
      refine ⟨h.streaks.toggleBadDay htimely.order htimely.today day, ?_⟩
      obtain ⟨rows, hrows⟩ := recomputeStreaks_frame clock (graceEnabled s.db)
        s.db.activeStreakIds (badDayEdited clock day s.db)
      show TrackersSettled zone (recomputeStreaks _ _ _ _) _
      rw [hrows]
      exact ⟨htrackers.figures, htrackers.day, htrackers.present⟩
    | markTracker date trackerId =>
      obtain ⟨day, hday, -, rfl⟩ := markTracker_eq_ok.mp hres
      refine ⟨⟨hstreaks.figures, hstreaks.day, hstreaks.entries⟩, ?_⟩
      exact h.trackers.recompute htimely.order htimely.today rfl
        fun k hk d => doneOn_edited_of_ne day rfl hk d
    | toggleTracker trackerId =>
      obtain ⟨-, rfl⟩ := toggleTracker_eq_ok.mp hres
      refine ⟨⟨hstreaks.figures, hstreaks.day, hstreaks.entries⟩, ?_⟩
      refine h.trackers.recompute htimely.order htimely.today rfl fun k hk d =>
        doneOn_edited_of_ne clock.today ?_ hk d
      rw [← toggledEvent_eq]
      rfl
    | addTracker name thresholdDays visibleOnDays =>
      obtain ⟨tracker, -, rfl⟩ := addTracker_eq_ok hres
      refine ⟨⟨hstreaks.figures, hstreaks.day, hstreaks.entries⟩, ?_⟩
      exact h.trackers.recompute htimely.order htimely.today rfl fun k hk d => Iff.rfl
    | editTracker trackerId thresholdDays visibleOnDays =>
      obtain ⟨f, rfl, -⟩ := editTracker_eq_ok hres
      exact ⟨⟨hstreaks.figures, hstreaks.day, hstreaks.entries⟩,
        ⟨htrackers.figures, htrackers.day, htrackers.present⟩⟩

/-! ## The figures of a settled database on a later day -/

/-- **A settled streak row on a later day.**  It shows the count of that day exactly when the
count is zero or grace absorbs the days missed since. -/
theorem streak_fresh_iff {zone : Zone} {db : Database} {today today' : Date}
    (h : StreaksSettled zone db today) (hle : today ≤ today') {streakId : ℕ}
    (hactive : Streak.Active db streakId) {state : StreakState}
    (hstate : db.streakState.lookup streakId = some state) (now : Moment) :
    state.currentStreak =
        (recomputedStreakState db streakId ⟨today', now⟩ (graceEnabled db)).currentStreak ↔
      state.Holds zone db streakId today' := by
  obtain ⟨hcurrent, hgrace⟩ := Prod.mk.inj (h.figures streakId hactive state hstate)
  obtain ⟨hday, hentries⟩ := h.day streakId hactive state hstate
  have hreplay : (recomputedStreakState db streakId ⟨today', now⟩ (graceEnabled db)).currentStreak =
      (replay (loggedDays db streakId) (badDays db) today' (graceEnabled db) 0).current :=
    replay_current _ _ _ _ _ _
  have hlookup : (fun d => (loggedDays db streakId).lookup d) = entryOn db streakId :=
    funext fun d => lookup_loggedDays db streakId d
  rw [hreplay, StreakState.Holds]
  by_cases hnil : loggedDays db streakId = []
  · rw [hnil, current_replay_nil] at hcurrent ⊢
    rw [hcurrent]
    exact ⟨fun _ => Or.inl rfl, fun _ => rfl⟩
  · rw [replay_later hnil (le_trans hday hle), hlookup, eq_comm, hcurrent, hgrace,
      current_afterMisses_eq_iff]
    intro e he
    refine hentries e.1 ?_
    rw [entryOn, mem_loggedDays.mp he]
    rfl

/-- A settled tracker row shows the days up to a later day exactly when it was computed on
it. -/
theorem tracker_fresh_iff {zone : Zone} {db : Database} {today : Date}
    (h : TrackersSettled zone db today) {trackerId : ℕ} {state : TrackerState}
    (hstate : db.trackerState.lookup trackerId = some state) {d today' : Date}
    (hd : lastDone db trackerId = some d) :
    state.daysSinceLastDone = today' - d ↔ state.dayIn zone = today' := by
  have hdays : state.daysSinceLastDone = state.dayIn zone - d := by
    rw [h.figures trackerId state hstate, recomputedTrackerState, hd]
    rfl
  rw [hdays]
  exact ⟨fun heq => by lia, fun heq => by rw [heq]⟩

/-- A tracker that has come due, with a row that counts up to today, is on the day list. -/
theorem due_mem_dayList {db : Database} {today : Date} {tracker : Tracker}
    (htracker : tracker ∈ activeTrackers db) {state : TrackerState}
    (hstate : db.trackerState.lookup tracker.id = some state) {d : Date}
    (hlast : state.lastDoneDate = some d) (hdays : state.daysSinceLastDone = today - d)
    (hnot : ¬ DoneOn db tracker.id today) (hdue : d + tracker.thresholdDays ≤ today)
    (hvisible : weekday today ∈ tracker.visibleOnDays) (now : Moment) :
    .tracker tracker state (.due (today - d - tracker.thresholdDays)) ∈ dayList db today now := by
  have hstatus : trackerStatus tracker state (decide (DoneOn db tracker.id today)) =
      some (.due (today - d - tracker.thresholdDays)) := by
    rw [trackerStatus, if_neg (by simpa using hnot), hlast, if_neg (by simp), hdays,
      if_pos (by lia)]
  have hrow : dayTracker db today tracker =
      some (.tracker tracker state (.due (today - d - tracker.thresholdDays))) := by
    rw [dayTracker, hstate]
    show (if weekday today ∈ tracker.visibleOnDays then _ else _) = _
    rw [if_pos hvisible, hstatus]
    rfl
  rw [dayList, KeySort.mem_sortByKey]
  exact List.mem_append_right _ (List.mem_filterMap.mpr ⟨tracker, htracker, hrow⟩)

/-- **The pages of a settled database on a later day.** -/
theorem showsFresh_iff_upToDate {zone : Zone} {s : Dated} (h : Settled zone s) {today : Date}
    (hle : s.today ≤ today) (now : Moment) :
    ShowsFresh s.db today now ↔ UpToDate zone s.db today := by
  constructor
  · intro hfresh
    refine ⟨?_, ?_⟩
    · intro streakId hactive state hstate
      obtain ⟨streak, hstreak, rfl⟩ := active_iff_mem_activeStreaks.mp hactive
      exact (streak_fresh_iff h.streaks hle hactive hstate now).mp
        (hfresh.streaks _ (List.mem_map_of_mem hstreak) state hstate)
    · rintro tracker htracker ⟨d, hd⟩ state hstate
      obtain ⟨l, hl, -⟩ := exists_lastDone hd
      have hcard := List.mem_map_of_mem (f := trackerCard s.db)
        ((KeySort.sortByKey_perm Tracker.id _).mem_iff.mpr htracker)
      exact (tracker_fresh_iff h.trackers hstate hl).mp (hfresh.cards _ hcard state hstate l hl)
  · intro hdate
    have hstreak : ∀ streak ∈ activeStreaks s.db, ∀ state ∈ s.db.streakState.lookup streak.id,
        state.currentStreak = (recomputedStreakState s.db streak.id ⟨today, now⟩
          (graceEnabled s.db)).currentStreak := by
      intro streak hmem state hstate
      have hactive := active_iff_mem_activeStreaks.mpr ⟨streak, hmem, rfl⟩
      exact (streak_fresh_iff h.streaks hle hactive hstate now).mpr
        (hdate.streaks streak.id hactive state hstate)
    have hcount : ∀ tracker ∈ activeTrackers s.db,
        ∀ state ∈ s.db.trackerState.lookup tracker.id, ∀ d,
          lastDone s.db tracker.id = some d → state.daysSinceLastDone = today - d := by
      intro tracker hmem state hstate d hd
      exact (tracker_fresh_iff h.trackers hstate hd).mpr
        (hdate.trackers tracker hmem ⟨d, (lastDone_eq_some_iff.mp hd).1⟩ state hstate)
    refine ⟨?_, ?_, ?_, ?_, ?_⟩
    · intro row hrow state hstate
      obtain ⟨streak, hmem, rfl⟩ := List.mem_map.mp hrow
      exact hstreak streak hmem state hstate
    · intro day row hrow state hstate
      obtain ⟨streak, hmem, rfl⟩ := List.mem_map.mp hrow
      exact hstreak streak hmem state hstate
    · intro card hcard state hstate d hd
      obtain ⟨tracker, hmem, rfl⟩ := List.mem_map.mp hcard
      exact hcount tracker (KeySort.mem_sortByKey.mp hmem) state hstate d hd
    · intro day row hrow state hstate d hd
      obtain ⟨tracker, hmem, rfl⟩ := List.mem_map.mp hrow
      exact hcount tracker (KeySort.mem_sortByKey.mp (List.mem_filter.mp hmem).1) state hstate d hd
    · intro tracker hmem d hd hnot hdue hvisible
      obtain ⟨state, hstate⟩ := Option.isSome_iff_exists.mp
        (h.trackers.present tracker.id d (lastDone_eq_some_iff.mp hd).1)
      have hlast : state.lastDoneDate = some d := by
        rw [h.trackers.figures tracker.id state hstate]
        exact hd
      exact ⟨state, due_mem_dayList hmem hstate hlast (hcount tracker hmem state hstate d hd) hnot
        hdue hvisible now⟩

/-- **Derived figures and the days that go by.**  Start from a settled database and run any
history of timely requests.  On every day from the last one on, the dashboard and the journal
show the figures of that day, and the dashboard lists every tracker that has come due, exactly
when each streak's count is zero or held up by grace over the days missed since its row was
computed, and each tracker that was ever done was recomputed on that day. -/
theorem figures_fresh_iff (zone : Zone) (py : TextParsers) (s : Dated) (h : Settled zone s)
    (reqs : List FigureRequest)
    (htimely : ∀ x ∈ Runs.trace (stepFigure py) s reqs, Timely zone x.1 x.2) (today : Date)
    (hlater : (reqs.foldl (stepFigure py) s).today ≤ today) (now : Moment) :
    ShowsFresh (reqs.foldl (stepFigure py) s).db today now ↔
      UpToDate zone (reqs.foldl (stepFigure py) s).db today :=
  showsFresh_iff_upToDate
    (Runs.foldl_invariant (I := Settled zone) (C := Timely zone)
      (fun _ _ hs hreq => stepFigure_settled hs hreq) h htimely) hlater now

/-- A database in which nothing is recorded is settled. -/
theorem settled_of_nothing_recorded (zone : Zone) {db : Database} (hlog : db.habitLog = ∅)
    (hevents : db.trackerEvents = ∅) (hstreaks : db.streakState = ∅)
    (htrackers : db.trackerState = ∅)
    (today : Date) : Settled zone ⟨db, today⟩ := by
  refine ⟨⟨?_, ?_, ?_⟩, ⟨?_, ?_, ?_⟩⟩ <;>
    simp [hlog, hevents, hstreaks, htrackers, entryOn, DoneOn]

/-- A streak and a tracker. -/
def oneStreakOneTracker : Database := { oneTracker with streaks := [{ id := 1 }] }

/-- On 2026-01-05 the streak is failed and the tracker is done.  Three days later the day before it
is filled in for the tracker. -/
def filledInOnThursday : List FigureRequest :=
  [⟨⟨739621, 739621 * dayLength⟩, .markHabit "2026-01-05" 1 "fail"⟩,
    ⟨⟨739621, 739621 * dayLength⟩, .toggleTracker 1⟩,
    ⟨⟨739624, 739624 * dayLength⟩, .markTracker "2026-01-04" 1⟩]

theorem filledInOnThursday_timely :
    ∀ x ∈ Runs.trace (stepFigure asciiParsers) ⟨oneStreakOneTracker, 739621⟩ filledInOnThursday,
      Timely utcZone x.1 x.2 := by
  have hmonday : fromisoformat "2026-01-05" = some 739621 := by decide
  have hsunday : fromisoformat "2026-01-04" = some 739620 := by decide
  simp only [filledInOnThursday, Runs.trace_cons, Runs.trace_nil, List.forall_mem_cons]
  refine ⟨⟨le_refl 739621, by decide, ?_⟩, ⟨by decide, by decide, ?_⟩,
    ⟨by decide, by decide, ?_⟩, fun x hx => absurd hx List.not_mem_nil⟩
  · intro d hd
    obtain rfl := Option.some.inj (hmonday.symm.trans hd)
    exact le_rfl
  · intro d hd
    cases hd
  · intro d hd
    obtain rfl := Option.some.inj (hsunday.symm.trans hd)
    decide

/-- On that Thursday the streak has been at zero for days and the tracker has come due. -/
theorem figures_fresh_filledInOnThursday :
    ShowsFresh (filledInOnThursday.foldl (stepFigure asciiParsers)
      ⟨oneStreakOneTracker, 739621⟩).db 739624 0 := by
  refine (figures_fresh_iff utcZone asciiParsers ⟨oneStreakOneTracker, 739621⟩
    (settled_of_nothing_recorded utcZone rfl rfl rfl rfl 739621) filledInOnThursday
    filledInOnThursday_timely 739624 (by decide) 0).mpr ⟨?_, ?_⟩
  · intro k hk state hstate
    obtain ⟨streak, hstreak, rfl⟩ := active_iff_mem_activeStreaks.mp hk
    obtain rfl := List.mem_singleton.mp hstreak
    obtain rfl := Option.some.inj hstate
    exact Or.inl (by decide)
  · intro tracker htracker _ state hstate
    obtain rfl := List.mem_singleton.mp htracker
    obtain rfl := Option.some.inj hstate
    decide

/-- The tracker is done on 2026-01-05, from the dashboard. -/
def doneOnMonday : List FigureRequest := [⟨⟨739621, 739621 * dayLength⟩, .toggleTracker 1⟩]

/-- Three days later the tracker has come due, and the dashboard does not list it. -/
theorem due_tracker_not_listed :
    ¬ ShowsFresh (doneOnMonday.foldl (stepFigure asciiParsers) ⟨oneTracker, 739621⟩).db 739624
      0 := by
  intro h
  have hlast : lastDone (doneOnMonday.foldl (stepFigure asciiParsers) ⟨oneTracker, 739621⟩).db 1 =
      some 739621 := by decide
  obtain ⟨state, hrow⟩ := h.due _ List.mem_cons_self 739621 hlast (by decide) (by decide)
    (by decide)
  have hempty : dayList (doneOnMonday.foldl (stepFigure asciiParsers) ⟨oneTracker, 739621⟩).db
      739624 0 = [] := by decide
  rw [hempty] at hrow
  exact absurd hrow List.not_mem_nil

end EpsCloud
